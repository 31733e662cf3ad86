import ComponentApi.Proofs.Comment.Styles

/-!
# Comments that are written and read

A note is what a comment is meant to say: lines of a description, then keywords with lines of their
own. It is written as a block with a star in front of each line, or as a run of line comments. What
makes a note readable is part of it: lines are trimmed, and no line that should continue something
has the form of a keyword.

`parse_write` says that reading a written note gives the note back, whatever its lines start with.
The form of a line that opens a keyword is said without the function that looks for it
(`OpensKeyword`), and the two agree (`keywordLine?_eq_none_iff`).
-/

namespace ComponentApi.Comment

open Text

/-! ### Lines that open keywords -/

/-- The line is `@` and the name of a keyword, and then nothing, or a blank and any text, or an
opening brace behind any blanks and any text. -/
def OpensKeyword (line : List Char) : Prop :=
  ∃ first name value, line = '@' :: first :: (name ++ value) ∧ isKeywordStart first = true ∧
    (∀ c ∈ name, isKeywordPart c = true) ∧
    (value = [] ∨ (∃ c text, value = c :: text ∧ isBlank c = true) ∨
      ∃ blanks text, value = blanks ++ '\x7b' :: text ∧ ∀ c ∈ blanks, isBlank c = true)

/-- The code points of the blanks. -/
def blankCodes : List Nat :=
  blankRanges.flatMap fun (first, last) => List.range' first (last + 1 - first)

/-- The blanks are the characters with the listed codes. -/
lemma mem_blankCodes {c : Char} (h : isBlank c = true) : c.toNat ∈ blankCodes := by
  obtain ⟨⟨first, last⟩, hrange, hc⟩ := List.any_eq_true.1 h
  rw [Bool.and_eq_true, decide_eq_true_eq, decide_eq_true_eq] at hc
  refine List.mem_flatMap.2 ⟨_, hrange, List.mem_range'_1.2 ?_⟩
  omega

/-- What is false of all blanks holds of no blank. -/
lemma isBlank_eq_false {p : Char → Bool} (hcodes : ∀ code ∈ blankCodes, p (Char.ofNat code) = false)
    {c : Char} (h : p c = true) : isBlank c = false := by
  by_contra hblank
  rw [Bool.not_eq_false] at hblank
  have hc := hcodes c.toNat (mem_blankCodes hblank)
  rw [Char.ofNat_toNat, h] at hc
  cases hc

/-- A character that can start a keyword is no blank. -/
lemma isBlank_of_isKeywordStart {c : Char} (h : isKeywordStart c = true) : isBlank c = false :=
  isBlank_eq_false (by decide +kernel) h

/-- A character of a keyword is no blank. -/
lemma isBlank_of_isKeywordPart {c : Char} (h : isKeywordPart c = true) : isBlank c = false :=
  isBlank_eq_false (by decide +kernel) h

/-- What a line that opens a keyword gives. -/
lemma keywordLine?_append {first : Char} {name value : List Char}
    (hfirst : isKeywordStart first = true) (hname : ∀ c ∈ name, isKeywordPart c = true)
    (hvalue : ∀ c ∈ value.head?, isBlank c = true ∨ c = '\x7b') :
    keywordLine? ('@' :: first :: (name ++ value)) = some (first :: name, trim value) := by
  have hcut : cutAt (!isKeywordPart ·) (name ++ value) = (name, value) := by
    apply cutAt_append
    · simpa using hname
    · intro c hc
      rcases hvalue c hc with hblank | rfl
      · cases hpart : isKeywordPart c with
        | false => rfl
        | true =>
          rw [isBlank_of_isKeywordPart hpart] at hblank
          cases hblank
      · decide
  rw [keywordLine?, if_pos hfirst, hcut]
  cases value with
  | nil => rfl
  | cons c text =>
    have hc : (isBlank c || c == '\x7b') = true := by simpa using hvalue c rfl
    exact if_pos hc

/-- A line in which a keyword is found opens it. -/
lemma OpensKeyword.of_keywordLine? {line : List Char} {found : List Char × List Char}
    (h : keywordLine? line = some found) : OpensKeyword line := by
  unfold keywordLine? at h
  split at h
  · next first rest =>
    split_ifs at h with hfirst
    -- The name is what is cut off, and what follows it decides.
    obtain ⟨name, value, hcut⟩ : ∃ name value, cutAt (!isKeywordPart ·) rest = (name, value) :=
      ⟨_, _, rfl⟩
    rw [hcut] at h
    obtain ⟨hname, hvalue⟩ := Prod.mk.inj hcut
    have hrest : rest = name ++ value := by
      rw [← hname, ← hvalue, List.takeWhile_append_dropWhile]
    have hpart : ∀ c ∈ name, isKeywordPart c = true := by
      intro c hc
      rw [← hname] at hc
      simpa using List.mem_takeWhile_imp hc
    refine ⟨first, name, value, by rw [hrest], hfirst, hpart, ?_⟩
    cases value with
    | nil => exact .inl rfl
    | cons c text =>
      dsimp only at h
      split_ifs at h with hc
      rcases Bool.or_eq_true_iff.1 hc with hblank | hbrace
      · exact .inr (.inl ⟨c, text, rfl, hblank⟩)
      · cases eq_of_beq hbrace
        exact .inr (.inr ⟨[], text, rfl, nofun⟩)
  · cases h

/-- A line opens a keyword exactly if it has the form of one. -/
lemma keywordLine?_eq_none_iff {line : List Char} :
    keywordLine? line = none ↔ ¬ OpensKeyword line := by
  constructor
  · rintro hnone ⟨first, name, value, rfl, hfirst, hname, hvalue⟩
    rw [keywordLine?_append hfirst hname] at hnone
    · cases hnone
    · rcases hvalue with rfl | ⟨c, text, rfl, hblank⟩ | ⟨blanks, text, rfl, hblanks⟩
      · exact nofun
      · rintro d ⟨⟩
        exact .inl hblank
      · cases blanks with
        | nil =>
          rintro d ⟨⟩
          exact .inr rfl
        | cons c blanks =>
          rintro d ⟨⟩
          exact .inl (hblanks c List.mem_cons_self)
  · intro hopens
    cases hfound : keywordLine? line with
    | none => rfl
    | some found => exact absurd (.of_keywordLine? hfound) hopens

/-! ### Notes -/

/-- A keyword of a note, with the lines of its description. -/
structure KeywordNote where
  first : Char
  rest : List Char
  start : isKeywordStart first = true
  part : ∀ c ∈ rest, isKeywordPart c = true
  lines : List (List Char)
  solid : ∀ line ∈ lines, line ≠ [] ∧ trim line = line ∧ '\n' ∉ line
  plain : ∀ line ∈ lines.tail, ¬ OpensKeyword line

namespace KeywordNote

/-- The name of a keyword. -/
def name (note : KeywordNote) : List Char :=
  note.first :: note.rest

/-- The name of a keyword has no blanks. -/
lemma isBlank_of_mem_name (note : KeywordNote) : ∀ c ∈ note.name, isBlank c = false := by
  intro c hc
  rcases List.mem_cons.1 hc with rfl | hc
  · exact isBlank_of_isKeywordStart note.start
  · exact isBlank_of_isKeywordPart (note.part c hc)

/-- The keyword that the note is about. -/
def keyword (note : KeywordNote) : Keyword :=
  ⟨String.ofList note.name, String.ofList (joinLines note.lines)⟩

/-- The lines that the note is written in. The first line of the description stands beside the
name. -/
def written (note : KeywordNote) : List (List Char) :=
  match note.lines with
  | [] => ['@' :: note.name]
  | line :: more => ('@' :: note.name ++ ' ' :: line) :: more

end KeywordNote

/-- What a comment is meant to say. -/
structure Note where
  description : List (List Char)
  keywords : List KeywordNote
  trimmed : ∀ line ∈ description, trim line = line ∧ '\n' ∉ line
  firstNonempty : description.head? ≠ some []
  lastNonempty : description.getLast? ≠ some []
  plain : ∀ line ∈ description, ¬ OpensKeyword line

/-- How a note is laid out. -/
inductive Layout where
  /-- A block with a star in front of each line. -/
  | block
  /-- A run of line comments. -/
  | run
  deriving DecidableEq, Repr

namespace Note

/-- The lines of a note. -/
def written (note : Note) : List (List Char) :=
  note.description ++ note.keywords.flatMap KeywordNote.written

/-- A note as a comment. -/
def write (note : Note) : Layout → List Char
  | .block => joinLines ("/**".toList :: note.written.map starLine ++ [" */".toList])
  | .run => joinLines (note.written.map lineComment)

end Note

/-! ### Drafts of notes -/

/-- Lines in front of the first keyword belong to the description. -/
lemma foldl_add_description {lines : List (List Char)}
    (hplain : ∀ line ∈ lines, ¬ OpensKeyword line) (description : List (List Char)) :
    lines.foldl Draft.add ⟨description, []⟩ = ⟨lines.reverse ++ description, []⟩ := by
  induction lines generalizing description with
  | nil => rfl
  | cons line rest ih =>
    have hnone := keywordLine?_eq_none_iff.2 (hplain line List.mem_cons_self)
    have hadd : Draft.add ⟨description, []⟩ line = ⟨line :: description, []⟩ := by
      rw [Draft.add, hnone]
    rw [List.foldl_cons, hadd, ih fun line hline => hplain line (List.mem_cons_of_mem _ hline)]
    simp

/-- Lines behind a keyword continue it. -/
lemma foldl_add_continuation {lines : List (List Char)}
    (hplain : ∀ line ∈ lines, ¬ OpensKeyword line) (hsolid : ∀ line ∈ lines, line ≠ [])
    (description : List (List Char)) (name : List Char) (before : List (List Char))
    (earlier : List (List Char × List (List Char))) :
    lines.foldl Draft.add ⟨description, (name, before) :: earlier⟩ =
      ⟨description, (name, lines.reverse ++ before) :: earlier⟩ := by
  induction lines generalizing before with
  | nil => rfl
  | cons line rest ih =>
    have hnone := keywordLine?_eq_none_iff.2 (hplain line List.mem_cons_self)
    have hadd : Draft.add ⟨description, (name, before) :: earlier⟩ line =
        ⟨description, (name, line :: before) :: earlier⟩ := by
      simp [Draft.add, hnone, hsolid line List.mem_cons_self]
    rw [List.foldl_cons, hadd, ih (fun line hline => hplain line (List.mem_cons_of_mem _ hline))
      fun line hline => hsolid line (List.mem_cons_of_mem _ hline)]
    simp

/-- A keyword of a draft, which stands for that of a note. -/
def KeywordNote.draft (note : KeywordNote) : List Char × List (List Char) :=
  (note.name, note.lines.reverse)

/-- The lines of a keyword add it to a draft. -/
lemma foldl_add_keyword (note : KeywordNote) (draft : Draft) :
    note.written.foldl Draft.add draft = ⟨draft.description, note.draft :: draft.keywords⟩ := by
  unfold KeywordNote.written KeywordNote.draft
  cases hlines : note.lines with
  | nil =>
    have hline : keywordLine? ('@' :: note.name) = some (note.name, []) := by
      have h : keywordLine? ('@' :: note.first :: (note.rest ++ [])) = some (note.name, []) :=
        keywordLine?_append note.start note.part nofun
      rwa [List.append_nil] at h
    show draft.add ('@' :: note.name) = _
    rw [Draft.add, hline]
    rfl
  | cons line more =>
    obtain ⟨hne, htrim, -⟩ := note.solid line (hlines ▸ List.mem_cons_self)
    have hline : keywordLine? ('@' :: note.name ++ ' ' :: line) = some (note.name, line) := by
      have h : keywordLine? ('@' :: note.name ++ ' ' :: line) =
          some (note.name, trim (' ' :: line)) :=
        keywordLine?_append note.start note.part (by rintro c ⟨⟩; exact .inl (by decide))
      rwa [trim_cons_of_blank (by decide), htrim] at h
    have hadd : draft.add ('@' :: note.name ++ ' ' :: line) =
        ⟨draft.description, (note.name, [line]) :: draft.keywords⟩ := by
      rw [Draft.add, hline]
      simp [hne]
    have hplain : ∀ line ∈ more, ¬ OpensKeyword line := by
      have h := note.plain
      rwa [hlines] at h
    have hsolid : ∀ line ∈ more, line ≠ [] := fun line hline =>
      (note.solid line (hlines ▸ List.mem_cons_of_mem _ hline)).1
    rw [List.foldl_cons, hadd, foldl_add_continuation hplain hsolid, List.reverse_cons]

/-- The lines of keywords add all of them to a draft. -/
lemma foldl_add_keywords (notes : List KeywordNote) (draft : Draft) :
    (notes.flatMap KeywordNote.written).foldl Draft.add draft =
      ⟨draft.description, (notes.map KeywordNote.draft).reverse ++ draft.keywords⟩ := by
  induction notes generalizing draft with
  | nil => rfl
  | cons note rest ih =>
    rw [List.flatMap_cons, List.foldl_append, foldl_add_keyword, ih]
    simp

/-- An empty line behind everything is no part of a keyword. -/
lemma add_nil (description : List (List Char)) (keywords : List (List Char × List (List Char))) :
    Draft.add ⟨description, keywords⟩ [] =
      ⟨if keywords.isEmpty then [] :: description else description, keywords⟩ := by
  cases keywords <;> rfl

/-! ### Lines of notes -/

/-- The lines of a keyword are trimmed and are single lines. -/
lemma KeywordNote.trim_of_mem_written (note : KeywordNote) {line : List Char}
    (h : line ∈ note.written) : trim line = line ∧ '\n' ∉ line := by
  have hname : '\n' ∉ '@' :: note.name := by
    intro hmem
    rcases List.mem_cons.1 hmem with hmark | hmem
    · cases hmark
    · cases note.isBlank_of_mem_name '\n' hmem
  have hfirst : ∀ text : List Char, ∀ c ∈ ('@' :: note.name ++ text).head?, isBlank c = false := by
    rintro text c ⟨⟩
    decide
  unfold written at h
  split at h
  · cases List.mem_singleton.1 h
    refine ⟨trim_eq_self (by simpa using hfirst []) fun c hc => ?_, hname⟩
    have hne : note.name ≠ [] := List.cons_ne_nil note.first note.rest
    rw [List.getLast?_cons_of_ne_nil hne] at hc
    exact note.isBlank_of_mem_name c (List.mem_of_getLast? hc)
  · next value more hlines =>
    have hsolid := note.solid
    rw [hlines] at hsolid
    rcases List.mem_cons.1 h with rfl | h
    · obtain ⟨hne, htrim, hnewline⟩ := hsolid value List.mem_cons_self
      refine ⟨trim_eq_self (hfirst _) fun c hc => ?_, ?_⟩
      · rw [List.getLast?_append_of_ne_nil _ (List.cons_ne_nil _ _),
          List.getLast?_cons_of_ne_nil hne] at hc
        exact getLast?_of_trim_eq htrim c hc
      · exact List.not_mem_append hname (List.not_mem_cons_of_ne_of_not_mem (by decide) hnewline)
    · exact (hsolid line (List.mem_cons_of_mem _ h)).2

/-- The lines of a note that is written are trimmed, and each is one line. -/
lemma Note.trim_of_mem_written (note : Note) {line : List Char} (h : line ∈ note.written) :
    trim line = line ∧ '\n' ∉ line := by
  rcases List.mem_append.1 h with h | h
  · exact note.trimmed line h
  · obtain ⟨keyword, _, hline⟩ := List.mem_flatMap.1 h
    exact keyword.trim_of_mem_written hline

/-- A block is written with the delimiters of a documentation comment. -/
lemma Note.write_block (note : Note) :
    note.write .block = Style.documentation.write
      (joinLines ([] :: note.written.map starLine ++ [[' ']])) := by
  have hfirst : ∀ lines : List (List Char),
      joinLines ("/**".toList :: lines) = "/**".toList ++ joinLines ([] :: lines) := by
    intro lines
    cases lines with
    | nil => rfl
    | cons line rest => simp [joinLines, List.intercalate_cons_cons]
  have hlast : ∀ first last : List Char,
      joinLines (first :: note.written.map starLine ++ [last]) =
        joinLines (first :: note.written.map starLine) ++ '\n' :: last :=
    fun first last => intercalate_concat (List.cons_ne_nil _ _) last
  show joinLines ("/**".toList :: note.written.map starLine ++ [" */".toList]) =
    "/**".toList ++ joinLines ([] :: note.written.map starLine ++ [[' ']]) ++ "*/".toList
  rw [hlast, hfirst, hlast, List.append_assoc, List.append_assoc, List.append_assoc]
  rfl

/-- The clean lines of a block are those of the note, between the lines of the delimiters. -/
lemma Note.cleanLines_block (note : Note) :
    cleanLines (note.write .block) = [] :: note.written ++ [[]] := by
  have hlines : lines (joinLines ([] :: note.written.map starLine ++ [[' ']])) =
      [] :: note.written.map starLine ++ [[' ']] := by
    apply lines_intercalate
    · intro line hline
      rcases List.mem_append.1 hline with hline | hline
      · rcases List.mem_cons.1 hline with rfl | hline
        · exact List.not_mem_nil
        · obtain ⟨inner, hinner, rfl⟩ := List.mem_map.1 hline
          exact List.not_mem_append (by decide) (note.trim_of_mem_written hinner).2
      · cases List.mem_singleton.1 hline
        decide
    · intro line hline
      rcases List.mem_cons.1 hline with rfl | hline
      · exact nofun
      · obtain ⟨inner, hinner, rfl⟩ := List.mem_map.1 hline
        exact getLast?_append_ne_return (by decide) (note.trim_of_mem_written hinner).1
  have hclean : note.written.map (cleanLine ∘ starLine) = note.written := by
    have hline : ∀ line ∈ note.written, (cleanLine ∘ starLine) line = line := fun line hline =>
      (cleanLine_starLine line).trans (note.trim_of_mem_written hline).1
    rw [List.map_congr_left hline, List.map_id']
  rw [cleanLines, note.write_block, body_documentation, hlines, List.map_append, List.map_cons,
    List.map_map, hclean]
  rfl

/-! ### Reading notes -/

/-- An empty first line is trimmed away. -/
lemma trim_joinLines_cons_nil (lines : List (List Char)) :
    trim (joinLines ([] :: lines)) = trim (joinLines lines) := by
  cases lines with
  | nil => rfl
  | cons line rest =>
    rw [joinLines, List.intercalate_cons_cons]
    exact trim_cons_of_blank (by decide) _

/-- An empty last line is trimmed away. -/
lemma trim_joinLines_concat_nil (lines : List (List Char)) :
    trim (joinLines (lines ++ [[]])) = trim (joinLines lines) := by
  by_cases hne : lines = []
  · subst hne
    rfl
  · rw [joinLines, intercalate_concat hne]
    exact trim_append_blanks (List.forall_mem_singleton.2 (by decide))

/-- The description of a note is trimmed, since its first and its last line are not empty. -/
lemma Note.trim_description (note : Note) :
    trim (joinLines note.description) = joinLines note.description := by
  apply trim_eq_self
  · intro c hc
    cases hlines : note.description with
    | nil =>
      rw [hlines] at hc
      cases hc
    | cons first rest =>
      have hne : first ≠ [] := by
        rintro rfl
        exact note.firstNonempty (hlines ▸ rfl)
      have htrim := (note.trimmed first (hlines ▸ List.mem_cons_self)).1
      refine head?_of_trim_eq htrim c ?_
      rw [hlines] at hc
      cases rest with
      | nil => simpa [joinLines] using hc
      | cons second others =>
        rwa [joinLines, List.intercalate_cons_cons, List.append_assoc,
          List.head?_append_of_ne_nil _ hne] at hc
  · intro c hc
    rcases List.eq_nil_or_concat' note.description with hlines | ⟨init, last, hlines⟩
    · rw [hlines] at hc
      cases hc
    · have hne : last ≠ [] := by
        rintro rfl
        exact note.lastNonempty (by simp [hlines])
      have htrim := (note.trimmed last (by simp [hlines])).1
      refine getLast?_of_trim_eq htrim c ?_
      rw [hlines] at hc
      by_cases hinit : init = []
      · simpa [hinit, joinLines] using hc
      · rwa [joinLines, intercalate_concat hinit,
          List.getLast?_append_of_ne_nil _ (List.cons_ne_nil _ _),
          List.getLast?_cons_of_ne_nil hne] at hc

/-- Reading a written note gives a draft of it. In front of the first keyword there may be empty
lines around the description. -/
lemma Note.exists_draft (note : Note) (layout : Layout) :
    ∃ description, (cleanLines (note.write layout)).foldl Draft.add {} =
        ⟨description.reverse, (note.keywords.map KeywordNote.draft).reverse⟩ ∧
      trim (joinLines description) = joinLines note.description := by
  cases layout with
  | run =>
    refine ⟨note.description, ?_, note.trim_description⟩
    rw [write, cleanLines_run (fun _ h => (note.trim_of_mem_written h).1)
      fun _ h => (note.trim_of_mem_written h).2, written, List.foldl_append,
      foldl_add_description note.plain, foldl_add_keywords]
    simp
  | block =>
    refine ⟨[] :: note.description ++ (if note.keywords.isEmpty then [[]] else []), ?_, ?_⟩
    · have hfirst : Draft.add {} [] = ⟨[[]], []⟩ := rfl
      rw [cleanLines_block, List.cons_append, List.foldl_cons, hfirst, List.foldl_append, written,
        List.foldl_append, foldl_add_description note.plain, foldl_add_keywords]
      show Draft.add _ [] = _
      rw [add_nil]
      cases hempty : note.keywords with
      | nil => simp
      | cons keyword rest => simp
    · rw [List.cons_append, trim_joinLines_cons_nil]
      split
      · rw [trim_joinLines_concat_nil, note.trim_description]
      · rw [List.append_nil, note.trim_description]

/-- The first keyword that names a visibility decides. -/
lemma findSome?_visibility (keywords : List Keyword) (default : Visibility) :
    match keywords.find? fun k => ["public", "protected", "private"].contains k.name with
    | some k =>
      ((keywords.findSome? fun k => Visibility.ofName? k.name).getD default).name = k.name
    | none => (keywords.findSome? fun k => Visibility.ofName? k.name).getD default = default := by
  induction keywords with
  | nil => rfl
  | cons k rest ih =>
    have hname : ["public", "protected", "private"].contains k.name =
        (Visibility.ofName? k.name).isSome := by
      cases hword : Visibility.ofName? k.name with
      | some visibility =>
        rw [← Visibility.ofName?_eq_some.1 hword]
        cases visibility <;> rfl
      | none =>
        rw [Option.isSome_none, Bool.eq_false_iff, ne_eq, List.contains_iff_mem]
        intro hmem
        simp only [List.mem_cons, List.not_mem_nil, or_false] at hmem
        rcases hmem with hmem | hmem | hmem <;>
          (rw [hmem] at hword
           revert hword
           decide)
    rw [List.find?_cons, List.findSome?_cons, hname]
    cases hword : Visibility.ofName? k.name with
    | none => exact ih
    | some visibility => exact Visibility.ofName?_eq_some.1 hword

/-- Reading a written note gives the note back: its keywords in their order; its description, or
that of the first keyword `description` if there is one; and the visibility that the first keyword
of such a name names, or the default one. -/
theorem Note.parse_write (note : Note) (layout : Layout) (default : Visibility) :
    let keywords := note.keywords.map KeywordNote.keyword
    let doc := parse (note.write layout) default
    doc.keywords = keywords ∧
    doc.description =
      (match keywords.find? (·.name == "description") with
      | some k => k.description
      | none => String.ofList (joinLines note.description)) ∧
    match keywords.find? fun k => ["public", "protected", "private"].contains k.name with
    | some k => doc.visibility.name = k.name
    | none => doc.visibility = default := by
  intro keywords
  obtain ⟨description, hdraft, htrim⟩ := note.exists_draft layout
  have hkeywords : Draft.finishKeywords
      ⟨description.reverse, (note.keywords.map KeywordNote.draft).reverse⟩ = keywords := by
    simp [Draft.finishKeywords, keywords, KeywordNote.draft, KeywordNote.keyword]
  rw [parse_eq, hdraft]
  dsimp only
  rw [hkeywords, List.reverse_reverse, htrim]
  exact ⟨rfl, rfl, findSome?_visibility keywords default⟩

/-- A note whose lines start with what could be taken for marks of a comment or of a keyword. -/
theorem Note.parse_write_marks :
    let note : Note := {
      description := ["* a".toList, [], "// @b".toList]
      keywords := [
        { first := 't', rest := "ype".toList, start := by decide
          part := List.all_eq_true.1 (by decide)
          lines := ["\x7ba\x7d".toList, "- @b".toList, "*/".toList]
          solid := by decide
          plain := fun line hline => keywordLine?_eq_none_iff.1 (by revert line; decide) },
        { first := 'p', rest := "ublic".toList, start := by decide
          part := List.all_eq_true.1 (by decide), lines := [], solid := by decide, plain := nofun }]
      trimmed := by decide
      firstNonempty := by decide
      lastNonempty := by decide
      plain := fun line hline => keywordLine?_eq_none_iff.1 (by revert line; decide) }
    note.write .run =
        "// * a\n// \n// // @b\n// @type \x7ba\x7d\n// - @b\n// */\n// @public".toList ∧
      (parse (note.write .run) .private).keywords =
        [⟨"type", "\x7ba\x7d\n- @b\n*/"⟩, ⟨"public", ""⟩] ∧
      (parse (note.write .block) .private).description = "* a\n\n// @b" ∧
      (parse (note.write .block) .private).visibility.name = "public" := by
  intro note
  obtain ⟨hkeywords, -, -⟩ := note.parse_write .run .private
  obtain ⟨-, hdescription, hvisibility⟩ := note.parse_write .block .private
  exact ⟨by decide, hkeywords.trans (by decide), hdescription.trans (by decide), hvisibility⟩

end ComponentApi.Comment
