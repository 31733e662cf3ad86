import Mathlib.Data.List.DropRight
import Mathlib.Data.List.Infix
import Mathlib.Tactic.Basic
import ComponentApi.Text.Blank

/-!
# Trimmed texts and lines

A text is trimmed if it neither starts nor ends with a blank. This module says what trimming and the
removal of delimiters do to a text that is put together from parts, and that the lines of a text
that is put together from lines are these lines.
-/

namespace ComponentApi.Text

/-! ### Trimming -/

section Trim

variable {text before after : List Char}

/-- Trimming the end drops the blanks there. -/
lemma trimEnd_eq (text : List Char) : trimEnd text = text.rdropWhile isBlank := rfl

/-- Blanks at the start are trimmed away. -/
lemma trimStart_append_of_blank (h : ∀ c ∈ before, isBlank c = true) :
    trimStart (before ++ text) = trimStart text :=
  List.dropWhile_append_of_pos h

/-- Blanks at the end are trimmed away. -/
lemma trimEnd_append_of_blank (h : ∀ c ∈ after, isBlank c = true) :
    trimEnd (text ++ after) = trimEnd text := by
  have hreverse : ∀ c ∈ after.reverse, isBlank c = true := fun c hc => h c (List.mem_reverse.1 hc)
  rw [trimEnd, trimEnd, List.reverse_append, List.dropWhile_append_of_pos hreverse]

/-- A text does not change at its start if that is not blank. -/
lemma trimStart_eq_self (h : ∀ c ∈ text.head?, isBlank c = false) : trimStart text = text := by
  cases text with
  | nil => rfl
  | cons c rest => rw [trimStart, List.dropWhile_cons_of_neg (by simp [h c rfl])]

/-- What ends in a character that is not blank stays in front of everything. -/
lemma trimEnd_append_cons {c : Char} (h : isBlank c = false) (before after : List Char) :
    trimEnd (before ++ c :: after) = before ++ c :: trimEnd after := by
  have hstay : ∀ rest : List Char, List.dropWhile isBlank (c :: rest) = c :: rest :=
    fun rest => List.dropWhile_cons_of_neg (by simp [h])
  rw [trimEnd, trimEnd, List.reverse_append, List.reverse_cons, List.append_assoc,
    List.dropWhile_append]
  cases hempty : (List.dropWhile isBlank after.reverse).isEmpty with
  | true =>
    rw [List.isEmpty_iff] at hempty
    simp [hempty, hstay]
  | false => simp

/-- A text whose start is trimmed does not start with a blank. -/
lemma head?_trimStart (text : List Char) : ∀ c ∈ (trimStart text).head?, isBlank c = false := by
  intro c hc
  have h := List.head?_dropWhile_not isBlank text
  rw [trimStart] at hc
  rw [hc] at h
  simpa using h

/-- In front of anything but a blank only the end is trimmed. -/
lemma trim_eq_trimEnd (h : ∀ c ∈ text.head?, isBlank c = false) : trim text = trimEnd text := by
  rw [trim, trimStart_eq_self h]

/-- Blanks in front of a text do not matter to the trimmed text. -/
lemma trim_blanks_append (h : ∀ c ∈ before, isBlank c = true) :
    trim (before ++ text) = trim text := by
  rw [trim, trimStart_append_of_blank h, trim]

/-- Blanks behind a text do not matter to the trimmed text. -/
lemma trim_append_blanks (h : ∀ c ∈ after, isBlank c = true) :
    trim (text ++ after) = trim text := by
  by_cases hblank : ∀ c ∈ text, isBlank c = true
  · have hall : ∀ c ∈ text ++ after, isBlank c = true := by
      intro c hc
      exact (List.mem_append.1 hc).elim (hblank c) (h c)
    rw [trim, trim, trimStart, trimStart, List.dropWhile_eq_nil_iff.2 hall,
      List.dropWhile_eq_nil_iff.2 hblank]
  · have hne : (text.dropWhile isBlank).isEmpty = false := by
      rw [Bool.eq_false_iff, ne_eq, List.isEmpty_iff, List.dropWhile_eq_nil_iff]
      exact hblank
    rw [trim, trimStart, List.dropWhile_append, hne]
    exact trimEnd_append_of_blank h

/-- Blanks around a text are lost when it is trimmed. -/
lemma trim_append_of_blank (hbefore : ∀ c ∈ before, isBlank c = true)
    (hafter : ∀ c ∈ after, isBlank c = true) : trim (before ++ text ++ after) = trim text := by
  rw [trim_append_blanks hafter, trim_blanks_append hbefore]

/-- One blank in front of a text does not matter to the trimmed text. -/
lemma trim_cons_of_blank {c : Char} (h : isBlank c = true) (text : List Char) :
    trim (c :: text) = trim text := by
  rw [trim, trimStart, List.dropWhile_cons_of_pos h]
  rfl

/-- A text that neither starts nor ends with a blank is trimmed. -/
lemma trim_eq_self {text : List Char} (hfirst : ∀ c ∈ text.head?, isBlank c = false)
    (hlast : ∀ c ∈ text.getLast?, isBlank c = false) : trim text = text := by
  rw [trim_eq_trimEnd hfirst, trimEnd_eq, List.rdropWhile_eq_self_iff]
  intro hne
  simp [hlast _ (List.getLast?_eq_getLast_of_ne_nil hne)]

/-- A text without blanks is trimmed. -/
lemma trim_eq_self_of_solid (h : ∀ c ∈ text, isBlank c = false) : trim text = text :=
  trim_eq_self (fun c hc => h c (List.mem_of_mem_head? hc))
    fun c hc => h c (List.mem_of_mem_getLast? hc)

/-- A text between two characters that are not blank is trimmed. -/
lemma trim_between {first last : Char} (hfirst : isBlank first = false)
    (hlast : isBlank last = false) (text : List Char) :
    trim (first :: text ++ [last]) = first :: text ++ [last] := by
  apply trim_eq_self
  · rintro c ⟨⟩
    exact hfirst
  · rw [List.getLast?_concat]
    rintro c ⟨⟩
    exact hlast

/-- A text keeps its first character if it keeps anything. -/
lemma trimEnd_cons_cases (c : Char) (text : List Char) :
    trimEnd (c :: text) = [] ∨ ∃ rest, trimEnd (c :: text) = c :: rest := by
  obtain ⟨blanks, hblanks⟩ : trimEnd (c :: text) <+: c :: text := List.rdropWhile_prefix ..
  cases htrim : trimEnd (c :: text) with
  | nil => exact .inl rfl
  | cons d rest =>
    rw [htrim] at hblanks
    cases hblanks
    exact .inr ⟨rest, rfl⟩

/-- Trimming the end once is enough. -/
lemma trimEnd_trimEnd (text : List Char) : trimEnd (trimEnd text) = trimEnd text :=
  List.rdropWhile_idempotent isBlank text

/-- Trimming the end does not let the text start with a blank. -/
lemma head?_trimEnd (h : ∀ c ∈ text.head?, isBlank c = false) :
    ∀ c ∈ (trimEnd text).head?, isBlank c = false := by
  intro c hc
  cases text with
  | nil => cases hc
  | cons d text =>
    rcases trimEnd_cons_cases d text with htrim | ⟨rest, htrim⟩
    · rw [htrim] at hc
      cases hc
    · rw [htrim] at hc
      exact h c hc

/-- Trimming once is enough. -/
@[simp] lemma trim_trim (text : List Char) : trim (trim text) = trim text := by
  have hfirst : ∀ c ∈ (trim text).head?, isBlank c = false := head?_trimEnd (head?_trimStart text)
  rw [trim_eq_trimEnd hfirst, trim, trimEnd_trimEnd]

/-- A trimmed text starts with no blank. -/
lemma head?_of_trim_eq (h : trim text = text) : ∀ c ∈ text.head?, isBlank c = false := by
  rw [← h]
  exact head?_trimEnd (head?_trimStart text)

/-- A text whose end is trimmed does not end with a blank. -/
lemma getLast?_trimEnd (text : List Char) : ∀ c ∈ (trimEnd text).getLast?, isBlank c = false := by
  intro c hc
  rw [trimEnd_eq] at hc
  have hne : text.rdropWhile isBlank ≠ [] := by
    intro hnil
    rw [hnil] at hc
    cases hc
  have hlast := List.rdropWhile_last_not isBlank text hne
  rw [List.getLast?_eq_getLast_of_ne_nil hne] at hc
  cases hc
  simpa using hlast

/-- A trimmed text ends with no blank. -/
lemma getLast?_of_trim_eq (h : trim text = text) : ∀ c ∈ text.getLast?, isBlank c = false := by
  rw [← h]
  exact getLast?_trimEnd (trimStart text)

/-- A text is what its end is trimmed to, with blanks behind it. -/
lemma exists_blanks_trimEnd (text : List Char) :
    ∃ blanks, text = trimEnd text ++ blanks ∧ ∀ c ∈ blanks, isBlank c = true :=
  ⟨text.rtakeWhile isBlank, List.rdropWhile_append_rtakeWhile.symm,
    fun _ hc => List.mem_rtakeWhile_imp hc⟩

/-- Trimming does not care about blanks that are taken off before. -/
lemma trim_trimEnd (text : List Char) : trim (trimEnd text) = trim text := by
  obtain ⟨blanks, htext, hblanks⟩ := exists_blanks_trimEnd text
  calc trim (trimEnd text) = trim (trimEnd text ++ blanks) := (trim_append_blanks hblanks).symm
    _ = trim text := by rw [← htext]

/-- Trimming the start first does not matter. -/
lemma trim_trimStart (text : List Char) : trim (trimStart text) = trim text := by
  rw [trim, trimStart_eq_self (head?_trimStart text), trim]

/-- A text is its trimmed text between blanks. -/
lemma exists_blanks_trim (text : List Char) :
    ∃ before after, text = before ++ trim text ++ after ∧ (∀ c ∈ before, isBlank c = true) ∧
      ∀ c ∈ after, isBlank c = true := by
  obtain ⟨after, hend, hafter⟩ := exists_blanks_trimEnd (trimStart text)
  refine ⟨text.takeWhile isBlank, after, ?_, fun c hc => List.mem_takeWhile_imp hc, hafter⟩
  rw [List.append_assoc, trim, ← hend, trimStart, List.takeWhile_append_dropWhile]

/-- Trimming the end takes off blanks only. -/
lemma mem_trimEnd_iff {c : Char} (hc : isBlank c = false) : c ∈ trimEnd text ↔ c ∈ text := by
  obtain ⟨blanks, htext, hblanks⟩ := exists_blanks_trimEnd text
  have hnot : c ∉ blanks := by
    intro hmem
    rw [hblanks c hmem] at hc
    cases hc
  constructor
  · intro hmem
    rw [htext]
    exact List.mem_append_left blanks hmem
  · intro hmem
    rw [htext] at hmem
    exact (List.mem_append.1 hmem).resolve_right hnot

/-- Another character does not stand among blanks. -/
lemma count_eq_zero_of_blank {c : Char} (hc : isBlank c = false) {blanks : List Char}
    (h : ∀ c ∈ blanks, isBlank c = true) : blanks.count c = 0 := by
  rw [List.count_eq_zero]
  intro hmem
  rw [h c hmem] at hc
  cases hc

/-- Trimming takes off blanks only. -/
lemma count_trim {c : Char} (hc : isBlank c = false) (text : List Char) :
    (trim text).count c = text.count c := by
  obtain ⟨before, after, htext, hbefore, hafter⟩ := exists_blanks_trim text
  calc (trim text).count c
      = before.count c + (trim text).count c + after.count c := by
        rw [count_eq_zero_of_blank hc hbefore, count_eq_zero_of_blank hc hafter, Nat.zero_add,
          Nat.add_zero]
    _ = (before ++ trim text ++ after).count c := by rw [List.count_append, List.count_append]
    _ = text.count c := by rw [← htext]

end Trim

/-! ### Delimiters -/

/-- An end can be dropped exactly if the text is the rest and this end. -/
lemma dropEnd?_eq_some_iff {tail text rest : List Char} :
    dropEnd? tail text = some rest ↔ text = rest ++ tail := by
  rw [dropEnd?, Option.map_eq_some_iff]
  constructor
  · rintro ⟨reversed, hreversed, rfl⟩
    have h := congrArg List.reverse (dropStart?_eq_some_iff.1 hreversed)
    simpa using h
  · rintro rfl
    exact ⟨rest.reverse, dropStart?_eq_some_iff.2 (by simp), by simp⟩

/-- A start that was put in front is dropped. -/
@[simp] lemma dropStart?_append (start rest : List Char) :
    dropStart? start (start ++ rest) = some rest :=
  dropStart?_eq_some_iff.2 rfl

/-- An end that was put behind is dropped. -/
@[simp] lemma dropEnd?_append (rest tail : List Char) :
    dropEnd? tail (rest ++ tail) = some rest :=
  dropEnd?_eq_some_iff.2 rfl

/-- What is left without an end that was put behind is the text in front of it. -/
@[simp] lemma dropEnd_append (rest tail : List Char) : dropEnd tail (rest ++ tail) = rest := by
  rw [dropEnd, dropEnd?_append, Option.getD_some]

/-- A character at the end is dropped only where the text ends with it. -/
lemma dropEnd_singleton_eq_self {c : Char} {text : List Char} (h : text.getLast? ≠ some c) :
    dropEnd [c] text = text := by
  rw [dropEnd]
  cases hdrop : dropEnd? [c] text with
  | none => rfl
  | some rest =>
    rw [dropEnd?_eq_some_iff.1 hdrop] at h
    simp at h

/-- A text is cut where the first character with the property stands. -/
lemma cutAt_append {p : Char → Bool} {before after : List Char}
    (hbefore : ∀ c ∈ before, p c = false) (hafter : ∀ c ∈ after.head?, p c = true) :
    cutAt p (before ++ after) = (before, after) := by
  have hpass : ∀ c ∈ before, (!p c) = true := by simpa using hbefore
  unfold cutAt
  rw [List.takeWhile_append_of_pos hpass, List.dropWhile_append_of_pos hpass]
  cases after with
  | nil => simp
  | cons c rest => simp [hafter c rfl]

/-- The characters of a text are no separators if it has none. -/
lemma beq_eq_false_of_notMem {separator : Char} {text : List Char} (h : separator ∉ text) :
    ∀ c ∈ text, (c == separator) = false := by
  intro c hc
  rw [beq_eq_false_iff_ne]
  rintro rfl
  exact h hc

/-- A text is cut in two at the first separator. -/
lemma splitOnce?_append {separator : Char} {before : List Char} (h : separator ∉ before)
    (after : List Char) :
    splitOnce? separator (before ++ separator :: after) = some (before, after) := by
  rw [splitOnce?, cutAt_append (beq_eq_false_of_notMem h) (by simp)]

/-- A text without the separator is not split. -/
lemma splitOnce?_eq_none {separator : Char} {text : List Char} (h : separator ∉ text) :
    splitOnce? separator text = none := by
  have hcut : cutAt (· == separator) (text ++ []) = (text, []) :=
    cutAt_append (beq_eq_false_of_notMem h) nofun
  rw [List.append_nil] at hcut
  rw [splitOnce?, hcut]

/-! ### Lines -/

/-- The pieces of a text are those between its separators. -/
lemma pieces_eq_splitOn (separator : Char) (text : List Char) :
    pieces separator text = text.splitOn separator := by
  induction text with
  | nil => rfl
  | cons c text ih =>
    rw [pieces, ih, List.splitOn_eq_splitOnP, List.splitOn_eq_splitOnP,
      List.splitOnP_cons_eq_if_modifyHead]
    obtain ⟨piece, rest, hpieces⟩ := List.exists_cons_of_ne_nil
      (List.splitOnP_ne_nil (· == separator) text)
    rw [hpieces]
    rfl

/-- The pieces of a text have no separators in them. -/
lemma notMem_of_mem_pieces {separator : Char} {text piece : List Char}
    (h : piece ∈ pieces separator text) : separator ∉ piece := by
  induction text generalizing piece with
  | nil => simp_all [pieces]
  | cons c text ih =>
    obtain ⟨first, rest, hpieces⟩ := List.exists_cons_of_ne_nil
      (List.splitOn_ne_nil separator text)
    rw [← pieces_eq_splitOn] at hpieces
    rw [pieces, hpieces] at h
    rw [hpieces] at ih
    split at h
    · rcases List.mem_cons.1 h with rfl | h
      · exact List.not_mem_nil
      · exact ih h
    · next hc =>
      rcases List.mem_cons.1 h with rfl | h
      · rw [List.mem_cons, not_or]
        refine ⟨?_, ih List.mem_cons_self⟩
        rintro rfl
        exact hc (beq_self_eq_true separator)
      · exact ih (List.mem_cons_of_mem _ h)

/-- A line holds no line feed. -/
lemma notMem_of_mem_lines {text line : List Char} (h : line ∈ lines text) : '\n' ∉ line := by
  have hlast : (pieces '\n' text).getLastD [] ∈ pieces '\n' text := by
    have hne : pieces '\n' text ≠ [] := pieces_eq_splitOn '\n' text ▸ List.splitOn_ne_nil _ _
    rw [List.getLastD_eq_getLast?, List.getLast?_eq_getLast_of_ne_nil hne]
    exact List.getLast_mem hne
  rw [lines, List.mem_append, List.mem_map] at h
  rcases h with ⟨piece, hpiece, rfl⟩ | h
  · have hnewline := notMem_of_mem_pieces (List.mem_of_mem_dropLast hpiece)
    rw [dropEnd]
    cases hdrop : dropEnd? ['\r'] piece with
    | none => exact hnewline
    | some rest =>
      rw [dropEnd?_eq_some_iff.1 hdrop] at hnewline
      exact fun hmem => hnewline (List.mem_append_left _ hmem)
  · split at h
    · cases h
    · cases List.mem_singleton.1 h
      exact notMem_of_mem_pieces hlast

/-- The lines of lines that are put together, where none but the last ends with a carriage return.
If the last is empty it is none. -/
lemma lines_intercalate {init : List (List Char)} {last : List Char}
    (hnewline : ∀ line ∈ init ++ [last], '\n' ∉ line)
    (hreturn : ∀ line ∈ init, line.getLast? ≠ some '\r') :
    lines (['\n'].intercalate (init ++ [last])) =
      init ++ if last.isEmpty then [] else [last] := by
  have hpieces : pieces '\n' (['\n'].intercalate (init ++ [last])) = init ++ [last] := by
    rw [pieces_eq_splitOn]
    exact List.splitOn_intercalate '\n' hnewline (by simp)
  have hinit : init.map (dropEnd ['\r']) = init := by
    rw [List.map_congr_left fun line hline => dropEnd_singleton_eq_self (hreturn line hline),
      List.map_id']
  simp [lines, hpieces, hinit]

/-- Lines that are put together, in two parts. -/
lemma intercalate_append {lines more : List (List Char)} (hlines : lines ≠ []) (hmore : more ≠ []) :
    ['\n'].intercalate (lines ++ more) =
      ['\n'].intercalate lines ++ '\n' :: ['\n'].intercalate more := by
  induction lines with
  | nil => exact absurd rfl hlines
  | cons line rest ih =>
    cases rest with
    | nil => simp [List.intercalate_cons_of_ne_nil hmore]
    | cons second others =>
      have hrest := ih (List.cons_ne_nil second others)
      rw [List.cons_append, List.cons_append, List.intercalate_cons_cons, ← List.cons_append, hrest,
        List.intercalate_cons_cons]
      simp

/-- One more line at the end of lines that are put together. -/
lemma intercalate_concat {lines : List (List Char)} (hne : lines ≠ []) (last : List Char) :
    ['\n'].intercalate (lines ++ [last]) = ['\n'].intercalate lines ++ '\n' :: last := by
  rw [intercalate_append hne (List.cons_ne_nil last []), List.intercalate_singleton]

/-- Trailing blanks are those of the last line, unless that is blank as a whole. -/
lemma trimEnd_intercalate {c : Char} (h : isBlank c = false) (init : List (List Char))
    (before after : List Char) :
    trimEnd (['\n'].intercalate (init ++ [before ++ c :: after])) =
      ['\n'].intercalate (init ++ [trimEnd (before ++ c :: after)]) := by
  by_cases hne : init = []
  · subst hne
    simp
  · rw [intercalate_concat hne, intercalate_concat hne, trimEnd_append_cons h, ← List.cons_append,
      ← List.append_assoc, trimEnd_append_cons h, List.append_assoc, List.cons_append]

end ComponentApi.Text
