import ComponentApi.Comment.Basic
import ComponentApi.Proofs.Text.Lines

/-!
# Styles of comments

A text can be written as a comment in four styles: as a block, as a block with a second star, as a
markup comment and as a run of line comments. A comment says what its clean lines say
(`parse_congr`), so the styles agree where they have the same clean lines.

`styles_agree_iff` says that they do, for every text but the empty one. In `/**/` the star of the
closing delimiter is taken for the second star of the opening one, so that a slash is left over.
-/

namespace ComponentApi.Comment

open Text

/-! ### Clean lines -/

/-- The clean lines of a comment. -/
def cleanLines (text : List Char) : List (List Char) :=
  (lines (body text)).map cleanLine

/-- What a comment says depends on its clean lines only. -/
lemma parse_eq (text : List Char) (default : Visibility) :
    parse text default =
      let draft := (cleanLines text).foldl Draft.add {}
      let keywords := draft.finishKeywords
      ⟨(keywords.findSome? fun k => Visibility.ofName? k.name).getD default,
        match keywords.find? (·.name == "description") with
        | some k => k.description
        | none => String.ofList (trim (joinLines draft.description.reverse)),
        keywords⟩ := by
  unfold parse cleanLines
  rfl

/-- A comment is read from its cleaned lines alone. -/
lemma parse_congr {text text' : List Char} (h : cleanLines text = cleanLines text')
    (default : Visibility) : parse text default = parse text' default := by
  rw [parse_eq, parse_eq, h]

/-- A cleaned line is trimmed. -/
lemma trim_cleanLine (line : List Char) : trim (cleanLine line) = cleanLine line := by
  unfold cleanLine
  dsimp only
  split <;> exact trim_trim _

/-- A line is cleaned without the blanks around it. -/
lemma cleanLine_trimEnd (line : List Char) : cleanLine (trimEnd line) = cleanLine line := by
  unfold cleanLine
  rw [trim_trimEnd]

/-- A line as a line comment. -/
def lineComment (line : List Char) : List Char :=
  "// ".toList ++ line

/-- A line of a block, behind a star. -/
def starLine (line : List Char) : List Char :=
  " * ".toList ++ line

/-- The slashes of a line comment and the blank behind them are removed, and no more. -/
lemma cleanLine_lineComment (line : List Char) : cleanLine (lineComment line) = trim line := by
  have htrim : trim (lineComment line) = "//".toList ++ trimEnd (' ' :: line) := by
    rw [trim_eq_trimEnd (by rintro c ⟨⟩; decide)]
    exact trimEnd_append_cons (by decide) ['/'] (' ' :: line)
  have hline : trim (trimEnd (' ' :: line)) = trim line := by
    rw [trim_trimEnd, trim_cons_of_blank (by decide)]
  unfold cleanLine
  rw [htrim, dropStart, dropStart?_append, Option.getD_some, ← hline]
  -- What is left is empty or starts with the blank, so there is no star to remove.
  rcases trimEnd_cons_cases ' ' line with hempty | ⟨rest, hrest⟩
  · rw [hempty]
  · rw [hrest]
    rfl

/-- The star of a line of a block and the blanks around it are removed, and no more. -/
lemma cleanLine_starLine (line : List Char) : cleanLine (starLine line) = trim line := by
  have htrim : trim (starLine line) = '*' :: trimEnd (' ' :: line) := by
    show trim (' ' :: '*' :: ' ' :: line) = _
    rw [trim_cons_of_blank (by decide), trim_eq_trimEnd (by rintro c ⟨⟩; decide)]
    exact trimEnd_append_cons (by decide) [] (' ' :: line)
  have hline : trim (trimEnd (' ' :: line)) = trim line := by
    rw [trim_trimEnd, trim_cons_of_blank (by decide)]
  have hslashes : dropStart "//".toList ('*' :: trimEnd (' ' :: line)) =
      '*' :: trimEnd (' ' :: line) := rfl
  unfold cleanLine
  rw [htrim, hslashes, ← hline]
  -- The blank parts the star from a second one.
  rcases trimEnd_cons_cases ' ' line with hempty | ⟨rest, hrest⟩
  · rw [hempty]
    rfl
  · rw [hrest]
    rfl

/-! ### Runs of line comments -/

/-- A mark in front of a trimmed line does not make it end with a carriage return. -/
lemma getLast?_append_ne_return {mark line : List Char} (hmark : mark.getLast? ≠ some '\r')
    (h : trim line = line) : (mark ++ line).getLast? ≠ some '\r' := by
  intro hlast
  rw [List.getLast?_append] at hlast
  cases hline : line.getLast? with
  | none =>
    rw [hline] at hlast
    exact hmark hlast
  | some c =>
    rw [hline] at hlast
    cases hlast
    cases getLast?_of_trim_eq h '\r' hline

/-- Two slashes are no delimiter around a comment. -/
lemma body_slashes (text : List Char) :
    body ('/' :: '/' :: text) = trimEnd ('/' :: '/' :: text) := by
  have hend : trimEnd ('/' :: '/' :: text) = '/' :: '/' :: trimEnd text :=
    trimEnd_append_cons (by decide) ['/'] text
  have htrim : trim ('/' :: '/' :: text) = '/' :: '/' :: trimEnd text := by
    rw [trim_eq_trimEnd (by rintro c ⟨⟩; decide), hend]
  unfold body
  rw [htrim, hend]
  rfl

/-- A run of line comments has no delimiters, but its last line may lose blanks. -/
lemma body_run (init : List (List Char)) (last : List Char) :
    body (joinLines (init.map lineComment ++ [lineComment last])) =
      joinLines (init.map lineComment ++ [trimEnd (lineComment last)]) := by
  obtain ⟨rest, hrest⟩ : ∃ rest, joinLines (init.map lineComment ++ [lineComment last]) =
      '/' :: '/' :: rest := by
    cases init with
    | nil => exact ⟨_, List.intercalate_singleton⟩
    | cons first others =>
      obtain ⟨second, more, hmore⟩ := List.exists_cons_of_ne_nil
        (List.append_ne_nil_of_right_ne_nil (others.map lineComment)
          (List.cons_ne_nil (lineComment last) []))
      rw [List.map_cons, List.cons_append, hmore, joinLines, List.intercalate_cons_cons]
      exact ⟨_, rfl⟩
  rw [hrest, body_slashes, ← hrest]
  exact trimEnd_intercalate (by decide) (init.map lineComment) ['/'] (' ' :: last)

/-- Without the blanks at its end a line comment is still one. -/
lemma trimEnd_lineComment_ne_nil (line : List Char) : trimEnd (lineComment line) ≠ [] := by
  have hend : trimEnd (lineComment line) = "//".toList ++ trimEnd (' ' :: line) :=
    trimEnd_append_cons (by decide) ['/'] (' ' :: line)
  rw [hend]
  exact List.cons_ne_nil _ _

/-- The lines of a run of line comments. -/
lemma lines_run {init : List (List Char)} {last : List Char}
    (htrim : ∀ line ∈ init ++ [last], trim line = line)
    (hnewline : ∀ line ∈ init ++ [last], '\n' ∉ line) :
    lines (joinLines (init.map lineComment ++ [trimEnd (lineComment last)])) =
      init.map lineComment ++ [trimEnd (lineComment last)] := by
  have hcomment : ∀ line ∈ init ++ [last], '\n' ∉ lineComment line :=
    fun line hline => List.not_mem_append (by decide) (hnewline line hline)
  have hfirst : ∀ line ∈ init.map lineComment ++ [trimEnd (lineComment last)], '\n' ∉ line := by
    intro line hline
    rcases List.mem_append.1 hline with hline | hline
    · obtain ⟨inner, hinner, rfl⟩ := List.mem_map.1 hline
      exact hcomment inner (List.mem_append_left _ hinner)
    · cases List.mem_singleton.1 hline
      have hpart : trimEnd (lineComment last) <+: lineComment last := List.rdropWhile_prefix ..
      exact fun hmem => hcomment last (by simp) (hpart.subset hmem)
  have hreturn : ∀ line ∈ init.map lineComment, line.getLast? ≠ some '\r' := by
    intro line hline
    obtain ⟨inner, hinner, rfl⟩ := List.mem_map.1 hline
    exact getLast?_append_ne_return (by decide) (htrim inner (List.mem_append_left _ hinner))
  have hlast : (trimEnd (lineComment last)).isEmpty = false := by
    rw [List.isEmpty_eq_false_iff]
    exact trimEnd_lineComment_ne_nil last
  rw [joinLines, lines_intercalate hfirst hreturn, hlast]
  rfl

/-- The clean lines of a run of line comments. -/
lemma cleanLines_run {run : List (List Char)} (htrim : ∀ line ∈ run, trim line = line)
    (hnewline : ∀ line ∈ run, '\n' ∉ line) :
    cleanLines (joinLines (run.map lineComment)) = run := by
  rcases List.eq_nil_or_concat' run with rfl | ⟨init, last, rfl⟩
  · rfl
  · have hinit : ∀ line ∈ init, (cleanLine ∘ lineComment) line = line := fun line hline =>
      (cleanLine_lineComment line).trans (htrim line (List.mem_append_left _ hline))
    rw [cleanLines, List.map_append, List.map_singleton, body_run, lines_run htrim hnewline,
      List.map_append, List.map_map, List.map_singleton, cleanLine_trimEnd, cleanLine_lineComment,
      htrim last (by simp), List.map_congr_left hinit, List.map_id']

/-! ### The four styles -/

/-- The ways to write a comment. -/
inductive Style where
  | block
  /-- A block whose opening delimiter has a second star. -/
  | documentation
  | markup
  /-- A run of line comments. -/
  | line
  deriving DecidableEq, Repr

/-- A text written as a comment. -/
def Style.write (text : List Char) : Style → List Char
  | .block => "/*".toList ++ text ++ "*/".toList
  | .documentation => "/**".toList ++ text ++ "*/".toList
  | .markup => "<!--".toList ++ text ++ "-->".toList
  | .line => joinLines ((lines text).map lineComment)

/-- A text between delimiters that are not blank is trimmed. -/
lemma trim_delimited {first last : Char} (hfirst : isBlank first = false)
    (hlast : isBlank last = false) (opening text closing : List Char) :
    trim (first :: opening ++ (text ++ (closing ++ [last]))) =
      first :: opening ++ (text ++ (closing ++ [last])) := by
  simpa using trim_between hfirst hlast (opening ++ (text ++ closing))

/-- A second star of the opening delimiter is looked for in all that follows the first, the closing
delimiter included. -/
lemma body_block (text : List Char) :
    body (Style.block.write text) =
      dropEnd "*/".toList (dropStart ['*'] (text ++ "*/".toList)) := by
  have hwrite : Style.block.write text = "/*".toList ++ (text ++ "*/".toList) :=
    List.append_assoc ..
  have htrim : trim (Style.block.write text) = "/*".toList ++ (text ++ "*/".toList) := by
    rw [hwrite]
    exact trim_delimited (by decide) (by decide) ['*'] text ['*']
  unfold body
  rw [htrim]
  rfl

/-- A block comment gives its text back, unless that is empty or starts with a star. -/
lemma body_block_of_head {text : List Char} (hne : text ≠ []) (hstart : text.head? ≠ some '*') :
    body (Style.block.write text) = text := by
  have hdrop : dropStart ['*'] (text ++ "*/".toList) = text ++ "*/".toList := by
    obtain ⟨c, rest, rfl⟩ := List.exists_cons_of_ne_nil hne
    have hc : c ≠ '*' := fun h => hstart (congrArg some h)
    simp [dropStart, dropStart?, hc.symm]
  rw [body_block, hdrop, dropEnd_append]

/-- A documentation comment gives its text back. -/
lemma body_documentation (text : List Char) : body (Style.documentation.write text) = text := by
  have hblock : Style.documentation.write text = Style.block.write ('*' :: text) := rfl
  have hdrop : dropStart ['*'] ('*' :: text ++ "*/".toList) = text ++ "*/".toList := rfl
  rw [hblock, body_block, hdrop, dropEnd_append]

/-- A comment of the markup gives its text back. -/
lemma body_markup (text : List Char) : body (Style.markup.write text) = text := by
  have hwrite : Style.markup.write text = "<!--".toList ++ (text ++ "-->".toList) :=
    List.append_assoc ..
  have htrim : trim (Style.markup.write text) = "<!--".toList ++ (text ++ "-->".toList) := by
    rw [hwrite]
    exact trim_delimited (by decide) (by decide) "!--".toList text "--".toList
  unfold body
  rw [htrim]
  exact dropEnd_append text "-->".toList

/-- In every style the clean lines are the lines of the text, unless the text is empty. -/
lemma cleanLines_write {text : List Char} (hne : text ≠ []) (hstart : text.head? ≠ some '*')
    (hclean : ∀ line ∈ lines text, cleanLine line = line) (style : Style) :
    cleanLines (style.write text) = lines text := by
  have hlines : (lines text).map cleanLine = lines text := by
    rw [List.map_congr_left hclean, List.map_id']
  cases style with
  | block => rw [cleanLines, body_block_of_head hne hstart, hlines]
  | documentation => rw [cleanLines, body_documentation, hlines]
  | markup => rw [cleanLines, body_markup, hlines]
  | line =>
    apply cleanLines_run
    · intro line hline
      rw [← hclean line hline, trim_cleanLine]
    · exact fun line hline => notMem_of_mem_lines hline

/-- All styles say the same, exactly if the text is not empty. The text must not start with a star
that would belong to the opening delimiter, and its lines must be clean. -/
theorem styles_agree_iff {text : List Char} (hstart : text.head? ≠ some '*')
    (hclean : ∀ line ∈ lines text, cleanLine line = line) (default : Visibility) :
    (∀ style style' : Style,
        parse (style.write text) default = parse (style'.write text) default) ↔
      text ≠ [] := by
  constructor
  · rintro hagree rfl
    have hdescription : "/" = "" :=
      congrArg DocComment.description (hagree .block .documentation)
    revert hdescription
    decide
  · intro hne style style'
    apply parse_congr
    rw [cleanLines_write hne hstart hclean, cleanLines_write hne hstart hclean]

/-- The styles agree on a keyword between empty lines, with a line below it that starts with two
stars. -/
theorem styles_agree_iff_keyword :
    let text := "\n\n@see a\r\n** b\n".toList
    (∀ style style' : Style,
        parse (style.write text) .public = parse (style'.write text) .public) ∧
      parse (Style.line.write text) .public =
        ⟨.public, "", [⟨"see", "a\n** b"⟩]⟩ := by
  intro text
  exact ⟨(styles_agree_iff (by decide) (by decide) .public).2 (by decide), by decide⟩

/-- An empty block is not read like the other empty comments. -/
theorem not_styles_agree_empty :
    ¬ ∀ (text : List Char) (default : Visibility), text.head? ≠ some '*' →
      (∀ line ∈ lines text, cleanLine line = line) → ∀ style style' : Style,
        parse (style.write text) default = parse (style'.write text) default := by
  intro hagree
  have hdescription : (parse "/**/".toList .private).description =
      (parse "/***/".toList .private).description :=
    congrArg DocComment.description
      (hagree [] .private (by decide) (by decide) .block .documentation)
  revert hdescription
  decide

end ComponentApi.Comment
