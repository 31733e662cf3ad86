import ComponentApi.Proofs.Text.Lines
import ComponentApi.Proofs.Text.Slices
import ComponentApi.Script.LeadingComment

/-!
# The comment in front of a position

The comment that belongs to a position ends where the blanks in front of the position start. It is
looked for backwards. A block comment starts at the last mark that could open one, so a mark inside
the comment is taken for its start: `leadingComment?_block_iff` says that a block comment is found
whole exactly if it holds no such mark. A run of line comments goes up to the first line that is
none (`leadingComment?_lines`).
-/

namespace ComponentApi.Script

open Text

/-! ### Marks -/

/-- A start can be dropped exactly if the text starts with it. -/
lemma isSome_dropStart?_iff {start text : List Char} :
    (dropStart? start text).isSome = true ↔ start <+: text := by
  rw [Option.isSome_iff_exists]
  constructor
  · rintro ⟨rest, hrest⟩
    exact ⟨rest, (dropStart?_eq_some_iff.1 hrest).symm⟩
  · rintro ⟨rest, rfl⟩
    exact ⟨rest, dropStart?_append start rest⟩

/-- An end can be dropped exactly if the text ends with it. -/
lemma isSome_dropEnd?_iff {tail text : List Char} :
    (dropEnd? tail text).isSome = true ↔ tail <:+ text := by
  rw [Option.isSome_iff_exists]
  constructor
  · rintro ⟨rest, hrest⟩
    exact ⟨rest, (dropEnd?_eq_some_iff.1 hrest).symm⟩
  · rintro ⟨rest, rfl⟩
    exact ⟨rest, dropEnd?_append rest tail⟩

/-! ### Block comments -/

/-- A text as a block comment. -/
def blockComment (body : List Char) : List Char :=
  '/' :: '*' :: (body ++ ['*', '/'])

/-- On the way back, all is passed up to the first start mark. -/
lemma backToBlockStart?_append {passed : List Char} (h : ¬ ['*', '/'] <:+: passed)
    (rest : List Char) :
    backToBlockStart? (passed ++ '*' :: '/' :: rest) = some (passed ++ ['*', '/']) := by
  induction passed with
  | nil => rfl
  | cons c passed ih =>
    obtain ⟨hstart, hpassed⟩ := not_or.1 (mt List.infix_cons_iff.2 h)
    have hgo : ∀ tail, c = '*' → passed ++ '*' :: '/' :: rest = '/' :: tail → False := by
      rintro tail rfl htail
      cases passed with
      | nil => cases htail
      | cons d passed =>
        obtain ⟨rfl, _⟩ := List.cons.inj htail
        exact hstart ⟨passed, rfl⟩
    rw [List.cons_append, backToBlockStart?, ih hpassed, Option.map_some, List.cons_append]
    exact hgo

/-- The search back for the start of a block comment stops at the first mark that it comes to. -/
lemma backToBlockStart?_eq_some_iff {reversed comment : List Char} :
    backToBlockStart? reversed = some comment ↔
      ∃ passed rest, reversed = passed ++ '*' :: '/' :: rest ∧ ¬ ['*', '/'] <:+: passed ∧
        comment = passed ++ ['*', '/'] := by
  constructor
  · intro h
    fun_induction backToBlockStart? reversed generalizing comment with
    | case1 rest =>
      cases h
      exact ⟨[], rest, rfl, by decide, rfl⟩
    | case2 c rest hgo ih =>
      obtain ⟨found, hfound, rfl⟩ := Option.map_eq_some_iff.1 h
      obtain ⟨passed, more, rfl, hpassed, rfl⟩ := ih hfound
      refine ⟨c :: passed, more, rfl, ?_, rfl⟩
      intro hinfix
      rcases List.infix_cons_iff.1 hinfix with ⟨tail, htail⟩ | hinfix
      · obtain ⟨rfl, hrest⟩ := List.cons.inj htail
        exact hgo (tail ++ '*' :: '/' :: more) rfl (by rw [← hrest]; rfl)
      · exact hpassed hinfix
    | case3 => cases h
  · rintro ⟨passed, rest, rfl, hpassed, rfl⟩
    exact backToBlockStart?_append hpassed rest

/-- In front of the end of a block comment stands the comment that starts with the last start
mark. -/
lemma lastComment?_eq_some_iff {text comment : List Char} (h : ['*', '/'] <:+ trimEnd text) :
    lastComment? text = some comment ↔
      ∃ front inside, trimEnd text = front ++ '/' :: '*' :: inside ∧ ¬ ['/', '*'] <:+: inside ∧
        comment = '/' :: '*' :: inside := by
  unfold lastComment?
  dsimp only
  rw [if_pos (isSome_dropEnd?_iff.2 h), Option.map_eq_some_iff]
  constructor
  · rintro ⟨reversed, hreversed, rfl⟩
    obtain ⟨passed, rest, htext, hpassed, rfl⟩ := backToBlockStart?_eq_some_iff.1 hreversed
    refine ⟨rest.reverse, passed.reverse, ?_, ?_, by simp⟩
    · simpa using congrArg List.reverse htext
    · rwa [← List.reverse_infix, List.reverse_reverse]
  · rintro ⟨front, inside, htext, hinside, rfl⟩
    refine ⟨inside.reverse ++ ['*', '/'], ?_, by simp⟩
    refine backToBlockStart?_eq_some_iff.2 ⟨inside.reverse, front.reverse, ?_, ?_, rfl⟩
    · simp [htext]
    · rwa [← List.reverse_infix, List.reverse_reverse]

/-- The comment in front of a place is the last one of the text up to there. -/
lemma leadingComment?_append (text after : List Char) :
    leadingComment? (text ++ after) (byteLength text) = lastComment? text := by
  rw [leadingComment?, takeBytes?_append, Option.bind_some]

/-- In front of a position behind a block comment and blanks, that comment is found whole exactly if
no mark that could open a block comment stands behind its start. Otherwise what is found is the part
from the last of these marks on. -/
theorem leadingComment?_block_iff (before body : List Char) {blanks : List Char}
    (hblanks : ∀ c ∈ blanks, isBlank c = true) (after : List Char) :
    let text := before ++ blockComment body ++ blanks
    (leadingComment? (text ++ after) (byteLength text) = some (blockComment body) ↔
        ¬ ['/', '*'] <:+: body ++ ['*', '/']) ∧
      ∀ front inside, body ++ ['*', '/'] = front ++ '/' :: '*' :: inside →
        ¬ ['/', '*'] <:+: inside →
        leadingComment? (text ++ after) (byteLength text) = some ('/' :: '*' :: inside) := by
  intro text
  have htrim : trimEnd text = before ++ blockComment body := by
    have hend := trimEnd_append_cons (by decide : isBlank '/' = false)
      (before ++ '/' :: '*' :: (body ++ ['*'])) []
    have hnil : trimEnd [] = [] := rfl
    rw [trimEnd_append_of_blank hblanks]
    simpa [blockComment, hnil] using hend
  have hclosed : ['*', '/'] <:+ trimEnd text :=
    ⟨before ++ '/' :: '*' :: body, by simp [htrim, blockComment]⟩
  rw [leadingComment?_append, lastComment?_eq_some_iff hclosed, htrim]
  refine ⟨⟨?_, ?_⟩, ?_⟩
  · rintro ⟨front, inside, _, hinside, hbody⟩
    rwa [List.cons.inj (List.cons.inj hbody).2 |>.2]
  · intro hbody
    exact ⟨before, body ++ ['*', '/'], rfl, hbody, rfl⟩
  · intro front inside hbody hinside
    refine (lastComment?_eq_some_iff hclosed).2
      ⟨before ++ '/' :: '*' :: front, inside, ?_, hinside, rfl⟩
    simp [htrim, blockComment, hbody]

/-- A comment with two patterns of files is cut at the second one. -/
theorem leadingComment?_block_iff_patterns :
    let body := "* Reads src/*.js and lib/*.ts ".toList
    let text := "let a;\n".toList ++ blockComment body ++ "\n  ".toList
    (∀ c ∈ "\n  ".toList, isBlank c = true) ∧
      body ++ ['*', '/'] = "* Reads src/*.js and lib".toList ++ '/' :: '*' :: ".ts */".toList ∧
      ¬ ['/', '*'] <:+: ".ts */".toList ∧
      leadingComment? (text ++ "let b;".toList) (byteLength text) = some "/*.ts */".toList := by
  intro body text
  have hblanks : ∀ c ∈ "\n  ".toList, isBlank c = true := List.all_eq_true.1 (by decide)
  obtain ⟨-, hcut⟩ :=
    leadingComment?_block_iff "let a;\n".toList body hblanks "let b;".toList
  have hbody : body ++ ['*', '/'] =
      "* Reads src/*.js and lib".toList ++ '/' :: '*' :: ".ts */".toList := by decide
  have hinside : ¬ ['/', '*'] <:+: ".ts */".toList := by decide
  exact ⟨hblanks, hbody, hinside, hcut _ _ hbody hinside⟩

/-- A block comment is not always found whole, although it ends with the first mark that closes
it. -/
theorem not_leadingComment?_pattern :
    ¬ ∀ body : List Char, ¬ ['*', '/'] <:+: body →
      leadingComment? (blockComment body) (byteLength (blockComment body)) =
        some (blockComment body) := by
  intro h
  have hcomment := h " src/*.js ".toList (by decide)
  revert hcomment
  decide

/-! ### Line comments -/

/-- A line that holds a line comment and nothing else. -/
structure CommentLine where
  indent : List Char
  text : List Char
  blank : ∀ c ∈ indent, isBlank c = true
  single : '\n' ∉ indent ++ text

/-- The line as it is written. -/
def CommentLine.print (line : CommentLine) : List Char :=
  line.indent ++ '/' :: '/' :: line.text

/-- Lines of line comments, one below the other. -/
def printRun (run : List CommentLine) : List Char :=
  ['\n'].intercalate (run.map CommentLine.print)

/-- The text ends where a line starts, and the line before is no line comment. -/
inductive EndsBelowOther : List Char → Prop
  | nil : EndsBelowOther []
  | line {front last : List Char} (hfront : front = [] ∨ ['\n'] <:+ front) (hlast : '\n' ∉ last)
      (hother : ¬ ['/', '/'] <+: trimStart last) : EndsBelowOther (front ++ last ++ ['\n'])

/-- The comment is a part of the source. It starts with the mark of a comment, and it ends where the
blanks in front of the position start. -/
structure EndsBefore (source : List Char) (position : Nat) (comment : List Char) : Prop where
  part : ∃ before blanks after, source = before ++ comment ++ blanks ++ after ∧
    position = byteLength (before ++ comment ++ blanks) ∧ ∀ c ∈ blanks, isBlank c = true
  solid : ∀ c ∈ comment.getLast?, isBlank c = false
  mark : ['/', '*'] <+: comment ∨ ['/', '/'] <+: comment

namespace CommentLine

variable (line : CommentLine)

/-- A comment line is one line. -/
lemma newline_notMem_print : '\n' ∉ line.print := by
  have h := line.single
  simp only [List.mem_append, not_or] at h
  simp [print, h]

/-- Without its indentation, a comment line starts with its mark. -/
lemma trimStart_print : trimStart line.print = '/' :: '/' :: line.text := by
  rw [print, trimStart_append_of_blank line.blank, trimStart_eq_self (by rintro c ⟨⟩; decide)]

/-- The line without the blanks at its end. -/
def trimmed : CommentLine where
  indent := line.indent
  text := trimEnd line.text
  blank := line.blank
  single := by
    obtain ⟨hindent, htext⟩ := not_or.1 (mt List.mem_append.2 line.single)
    refine List.not_mem_append hindent fun hmem => htext ?_
    exact (List.rdropWhile_prefix isBlank line.text).subset hmem

/-- The trimmed line is the line without the blanks at its end. -/
lemma print_trimmed : line.trimmed.print = trimEnd line.print := by
  have h := trimEnd_append_cons (by decide : isBlank '/' = false) (line.indent ++ ['/']) line.text
  simpa [print, trimmed] using h.symm

/-- A trimmed comment line is its mark and its text, without the blanks at the end. -/
lemma trim_print : trim line.print = '/' :: '/' :: trimEnd line.text := by
  rw [trim, trimStart_print]
  exact trimEnd_append_cons (by decide) ['/'] line.text

/-- A comment line without the blanks at its end is its indentation and the trimmed line. -/
lemma print_trimmed_eq : line.trimmed.print = line.indent ++ trim line.print := by
  rw [trim_print]
  rfl

/-- A trimmed comment line has at least its mark. -/
lemma two_le_length_trim : 2 ≤ (trim line.print).length := by
  rw [trim_print, List.length_cons, List.length_cons]
  omega

end CommentLine

section Run

variable {above : List Char} {lines : List (List Char)} {init run : List CommentLine}
  {last : CommentLine}

/-- The lines above. -/
lemma EndsBelowOther.exists_lines (h : EndsBelowOther above) :
    ∃ lines : List (List Char), (∀ line ∈ lines, '\n' ∉ line) ∧
      (∀ line ∈ lines.getLast?, ¬ ['/', '/'] <+: trimStart line) ∧
      ∀ more ≠ [], above ++ ['\n'].intercalate more = ['\n'].intercalate (lines ++ more) := by
  cases h with
  | nil => exact ⟨[], by simp, by simp, fun _ _ => rfl⟩
  | @line front last hfront hlast hother =>
    rcases hfront with rfl | ⟨before, rfl⟩
    · refine ⟨[last], by simpa using hlast, by simpa using hother, fun more hmore => ?_⟩
      rw [intercalate_append (List.cons_ne_nil _ _) hmore]
      simp
    · have hpieces : ['\n'].intercalate (pieces '\n' before) = before := by
        rw [pieces_eq_splitOn, List.intercalate_splitOn]
      have hne : pieces '\n' before ≠ [] := by
        rw [pieces_eq_splitOn]
        exact List.splitOn_ne_nil _ _
      refine ⟨pieces '\n' before ++ [last], ?_, by simpa using hother, fun more hmore => ?_⟩
      · intro line hline
        rcases List.mem_append.1 hline with hline | hline
        · exact notMem_of_mem_pieces hline
        · rwa [List.mem_singleton.1 hline]
      · have hends : pieces '\n' before ++ [last] ≠ [] := List.append_ne_nil_of_left_ne_nil hne _
        rw [intercalate_append hends hmore, intercalate_concat hne, hpieces]
        simp

/-- A run of line comments below another line is taken as a whole. -/
lemma lineComments_append
    (h : ∀ line ∈ lines.getLast?, ¬ ['/', '/'] <+: trimStart line) :
    lineComments (lines ++ run.map CommentLine.print).reverse =
      (run.map CommentLine.print).reverse := by
  have hrun : ∀ line ∈ (run.map CommentLine.print).reverse,
      (dropStart? ['/', '/'] (trimStart line)).isSome = true := by
    intro line hline
    obtain ⟨comment, _, rfl⟩ := List.mem_map.1 (List.mem_reverse.1 hline)
    rw [comment.trimStart_print]
    rfl
  have hlines : lineComments lines.reverse = [] := by
    rw [← List.head?_reverse] at h
    cases hreverse : lines.reverse with
    | nil => rfl
    | cons line rest =>
      rw [hreverse] at h
      exact List.takeWhile_cons_of_neg (mt isSome_dropStart?_iff.1 (h line rfl))
  rw [lineComments, List.reverse_append, List.takeWhile_append_of_pos hrun]
  exact (congrArg _ hlines).trans (List.append_nil _)

/-- Only the last line of a run loses blanks at the end, and it stays a line comment. -/
lemma trimEnd_lines_run :
    trimEnd (['\n'].intercalate (lines ++ (init ++ [last]).map CommentLine.print)) =
      ['\n'].intercalate (lines ++ (init ++ [last.trimmed]).map CommentLine.print) := by
  simp only [List.map_append, List.map_cons, List.map_nil, last.print_trimmed,
    ← List.append_assoc]
  exact trimEnd_intercalate (by decide) _ last.indent ('/' :: last.text)

/-- The last line is at the end. -/
lemma trim_print_suffix :
    trim last.print <:+
      ['\n'].intercalate (lines ++ (init ++ [last.trimmed]).map CommentLine.print) := by
  have hlast : trim last.print <:+ last.trimmed.print :=
    last.print_trimmed_eq ▸ List.suffix_append _ _
  rw [List.map_append, ← List.append_assoc]
  by_cases hnil : lines ++ init.map CommentLine.print = []
  · rwa [hnil, List.nil_append, List.map_singleton, List.intercalate_singleton]
  · rw [List.map_singleton, intercalate_concat hnil]
    exact hlast.trans ((List.suffix_cons _ _).trans (List.suffix_append _ _))

/-- Lines that are joined with a run of comment lines are split into the same lines. -/
lemma pieces_lines_run (h : ∀ line ∈ lines, '\n' ∉ line) (hrun : run ≠ []) :
    pieces '\n' (['\n'].intercalate (lines ++ run.map CommentLine.print)) =
      lines ++ run.map CommentLine.print := by
  rw [pieces_eq_splitOn]
  refine List.splitOn_intercalate '\n' ?_ (List.append_ne_nil_of_right_ne_nil _ (by simpa))
  intro line hline
  rcases List.mem_append.1 hline with hline | hline
  · exact h line hline
  · obtain ⟨comment, _, rfl⟩ := List.mem_map.1 hline
    exact comment.newline_notMem_print

/-- In front of the end of a run of line comments stands the run. -/
lemma lastComment?_run (habove : EndsBelowOther above)
    (hclosed : ¬ ['*', '/'] <:+ trim last.print) {blanks : List Char}
    (hblanks : ∀ c ∈ blanks, isBlank c = true) :
    lastComment? (above ++ printRun (init ++ [last]) ++ blanks) =
      some (trim (printRun (init ++ [last]))) := by
  obtain ⟨lines, hlines, hother, heq⟩ := habove.exists_lines
  have hne : ∀ last : CommentLine, init ++ [last] ≠ [] := by simp
  have hall : trimEnd (above ++ printRun (init ++ [last]) ++ blanks) =
      ['\n'].intercalate (lines ++ (init ++ [last.trimmed]).map CommentLine.print) := by
    rw [trimEnd_append_of_blank hblanks, printRun, heq _ (by simp), trimEnd_lines_run]
  have hrun : trimEnd (printRun (init ++ [last])) = printRun (init ++ [last.trimmed]) :=
    @trimEnd_lines_run [] init last
  have hopen : ¬ ['*', '/'] <:+
      ['\n'].intercalate (lines ++ (init ++ [last.trimmed]).map CommentLine.print) := fun hsuffix =>
    hclosed (List.suffix_of_suffix_length_le hsuffix trim_print_suffix last.two_le_length_trim)
  unfold lastComment?
  dsimp only
  rw [hall, if_neg (mt isSome_dropEnd?_iff.1 hopen), pieces_lines_run hlines (hne _),
    lineComments_append hother]
  split
  · next hnil => simp at hnil
  · rw [List.reverse_reverse, ← trim_trimEnd (printRun (init ++ [last])), hrun]
    rfl

end Run

/-! ### Any comment that is found -/

section Found

variable {text comment part : List Char}

/-- The last lines of a text are the end of the text. -/
lemma intercalate_suffix {lines all : List (List Char)} (h : lines <:+ all) (hne : lines ≠ []) :
    ['\n'].intercalate lines <:+ ['\n'].intercalate all := by
  obtain ⟨more, rfl⟩ := h
  by_cases hmore : more = []
  · rw [hmore, List.nil_append]
  · rw [intercalate_append hmore hne]
    exact (List.suffix_cons _ _).trans (List.suffix_append _ _)

/-- What stands at the end of a text without blanks there has none either. -/
lemma trimEnd_eq_self_of_suffix (h : part <:+ trimEnd text) : trimEnd part = part := by
  rw [trimEnd_eq, List.rdropWhile_eq_self_iff]
  intro hne
  obtain ⟨front, hfront⟩ := h
  have hlast : part.getLast hne ∈ (trimEnd text).getLast? := by
    rw [← hfront, List.getLast?_append_of_ne_nil _ hne, List.getLast?_eq_getLast_of_ne_nil hne]
    rfl
  simp [getLast?_trimEnd text _ hlast]

/-- A text that starts with a line comment, perhaps behind blanks, starts with its slashes when it
is trimmed. -/
lemma exists_trimStart {line : List Char} (h : ['/', '/'] <+: trimStart line)
    (rest : List (List Char)) :
    ['/', '/'] <+: trimStart (['\n'].intercalate (line :: rest)) := by
  obtain ⟨more, hmore⟩ := h
  obtain ⟨below, hbelow⟩ : ∃ below, ['\n'].intercalate (line :: rest) = line ++ below := by
    cases rest with
    | nil => exact ⟨[], by simp⟩
    | cons second others => exact ⟨_, List.intercalate_cons_cons.trans (List.append_assoc ..)⟩
  rw [trimStart] at hmore
  rw [hbelow, trimStart, List.dropWhile_append, ← hmore]
  exact ⟨more ++ below, rfl⟩

/-- The line comments at the end of a text are a part of it, and they start with slashes. -/
lemma trim_lineComments (h : lineComments (pieces '\n' (trimEnd text)).reverse ≠ []) :
    let comments := lineComments (pieces '\n' (trimEnd text)).reverse
    trim (['\n'].intercalate comments.reverse) <:+ trimEnd text ∧
      ['/', '/'] <+: trim (['\n'].intercalate comments.reverse) := by
  intro comments
  have hlines : comments.reverse <:+ pieces '\n' (trimEnd text) := by
    rw [← List.reverse_prefix, List.reverse_reverse]
    exact List.takeWhile_prefix _
  have hne : comments.reverse ≠ [] := List.reverse_ne_nil_iff.2 h
  have hpart := intercalate_suffix hlines hne
  rw [pieces_eq_splitOn, List.intercalate_splitOn] at hpart
  have hstart := (List.dropWhile_suffix isBlank).trans hpart
  rw [trim, trimStart, trimEnd_eq_self_of_suffix hstart]
  refine ⟨hstart, ?_⟩
  obtain ⟨top, below, htop⟩ := List.exists_cons_of_ne_nil hne
  have hmem : top ∈ comments := List.mem_reverse.1 (htop ▸ List.mem_cons_self)
  have hmark := List.mem_takeWhile_imp hmem
  rw [htop]
  exact exists_trimStart (isSome_dropStart?_iff.1 hmark) below

/-- What is found is the end of the text without trailing blanks, and it starts with a mark. -/
lemma suffix_of_lastComment? (h : lastComment? text = some comment) :
    comment <:+ trimEnd text ∧ (['/', '*'] <+: comment ∨ ['/', '/'] <+: comment) := by
  by_cases hclosed : ['*', '/'] <:+ trimEnd text
  · obtain ⟨front, inside, htext, _, rfl⟩ := (lastComment?_eq_some_iff hclosed).1 h
    exact ⟨⟨front, htext.symm⟩, .inl ⟨inside, rfl⟩⟩
  · unfold lastComment? at h
    dsimp only at h
    rw [if_neg (mt isSome_dropEnd?_iff.1 hclosed)] at h
    split at h
    · cases h
    · next hne =>
      cases h
      obtain ⟨hpart, hmark⟩ := trim_lineComments hne
      exact ⟨hpart, .inr hmark⟩

end Found

/-- In front of a position behind a run of line comments and blanks, the whole run is found, and
nothing of what stands above it, if that does not end with another line comment. Whatever is found
anywhere is a part of the source that ends where the blanks in front of the position start. -/
theorem leadingComment?_lines :
    (∀ (above : List Char) (init : List CommentLine) (last : CommentLine)
      (blanks after : List Char),
      EndsBelowOther above → ¬ ['*', '/'] <:+ trim last.print →
      (∀ c ∈ blanks, isBlank c = true) →
      leadingComment? (above ++ printRun (init ++ [last]) ++ blanks ++ after)
          (byteLength (above ++ printRun (init ++ [last]) ++ blanks)) =
        some (trim (printRun (init ++ [last])))) ∧
    ∀ source position comment, leadingComment? source position = some comment →
      EndsBefore source position comment := by
  refine ⟨?_, ?_⟩
  · intro above init last blanks after habove hclosed hblanks
    rw [leadingComment?_append]
    exact lastComment?_run habove hclosed hblanks
  · intro source position comment h
    obtain ⟨text, htake, htext⟩ := Option.bind_eq_some_iff.1 h
    obtain ⟨⟨after, rfl⟩, rfl⟩ := takeBytes?_eq_some_iff.1 htake
    obtain ⟨⟨before, hbefore⟩, hmark⟩ := suffix_of_lastComment? htext
    obtain ⟨blanks, hsplit, hblanks⟩ := exists_blanks_trimEnd text
    refine ⟨⟨before, blanks, after, ?_, ?_, hblanks⟩, ?_, hmark⟩
    · rw [hbefore, ← hsplit]
    · rw [hbefore, ← hsplit]
    · intro c hc
      refine getLast?_trimEnd text c ?_
      rw [← hbefore, List.getLast?_append, hc]
      rfl

/-- Two indented lines, the first with a carriage return, below a statement with a comment of its
own. -/
theorem leadingComment?_lines_indented :
    let above := "let a; // about a\n".toList
    let first : CommentLine :=
      ⟨"  ".toList, " é first\r".toList, List.all_eq_true.1 (by decide), by decide⟩
    let last : CommentLine :=
      ⟨"\t".toList, "last ".toList, List.all_eq_true.1 (by decide), by decide⟩
    let blanks := "\n\n  ".toList
    EndsBelowOther above ∧ ¬ ['*', '/'] <:+ trim last.print ∧ (∀ c ∈ blanks, isBlank c = true) ∧
      leadingComment? (above ++ printRun ([first] ++ [last]) ++ blanks ++ "let b;".toList)
          (byteLength (above ++ printRun ([first] ++ [last]) ++ blanks)) =
        some "// é first\r\n\t//last".toList := by
  intro above first last blanks
  have habove : EndsBelowOther above :=
    @EndsBelowOther.line [] "let a; // about a".toList (.inl rfl) (by decide) (by decide)
  have hclosed : ¬ ['*', '/'] <:+ trim last.print := by decide
  have hblanks : ∀ c ∈ blanks, isBlank c = true := List.all_eq_true.1 (by decide)
  have hrun := leadingComment?_lines.1 above [first] last blanks "let b;".toList habove hclosed
    hblanks
  exact ⟨habove, hclosed, hblanks, hrun.trans (by decide)⟩

end ComponentApi.Script
