import ComponentApi.Proofs.TypeExpr.Splitting

/-!
# Types that are written and read

A type is written as operands between bars. An operand is a name, a quoted constant, or a type in
parentheses, with any blanks around it. What makes a name and a constant readable is part of them:
the brackets of a name are balanced and its bars stand inside them, and a constant holds no
parentheses.

`parse_written` says that reading a written type gives the type back, with the text of every union
as it was written. It also says what is true of every text: the text of a type reads as that type,
and a union has at least two alternatives.
-/

namespace ComponentApi.TypeExpr

open Text

/-! ### Written types -/

/-- The kinds of brackets, each with its opening and its closing bracket. -/
def brackets : List (Char × Char) :=
  [('(', ')'), ('<', '>'), ('[', ']'), ('\x7b', '\x7d')]

/-- A name of a type. The brackets of each kind are balanced, in whatever way the kinds are nested,
and where a bar stands some bracket is open. -/
structure TypeName where
  text : List Char
  nonempty : text ≠ []
  trimmed : trim text = text
  unquoted : '\'' ∉ text ∧ '"' ∉ text
  bare : text.head? ≠ some '('
  closed : ∀ kind ∈ brackets, text.count kind.2 = text.count kind.1
  opened : ∀ before ∈ text.inits, ∀ kind ∈ brackets, before.count kind.2 ≤ before.count kind.1
  barred : ∀ before ∈ text.inits, before ++ ['|'] <+: text →
    ∃ kind ∈ brackets, before.count kind.2 < before.count kind.1

/-- The value of a constant. -/
structure ConstantValue where
  text : List Char
  unquoted : '\'' ∉ text
  unopened : '(' ∉ text
  unclosed : ')' ∉ text

/-- Any number of blanks. -/
structure Blanks where
  text : List Char
  blank : ∀ c ∈ text, isBlank c = true

mutual

/-- What stands between the bars of a written type. -/
inductive Operand where
  | name (word : TypeName)
  | constant (value : ConstantValue)
  /-- A type in parentheses. -/
  | group (inner : TypeText)
  | spaced (before : Blanks) (operand : Operand) (after : Blanks)

/-- A type as it is written: operands with bars between them. -/
inductive TypeText where
  | last (operand : Operand)
  | bar (first : Operand) (rest : TypeText)

end

mutual

/-- The operand as it is written. -/
def Operand.print : Operand → List Char
  | .name word => word.text
  | .constant value => '\'' :: value.text ++ ['\'']
  | .group inner => '(' :: inner.print ++ [')']
  | .spaced before operand after => before.text ++ operand.print ++ after.text

/-- The type as it is written. -/
def TypeText.print : TypeText → List Char
  | .last operand => operand.print
  | .bar first rest => first.print ++ '|' :: rest.print

end

mutual

/-- The type that an operand is meant to be. -/
def Operand.type : Operand → TypeExpr
  | .name word =>
    let text := String.ofList word.text
    .named text (if text = "*" ∨ text = "any" then "any" else text)
  | .constant value =>
    .constant (String.ofList ('\'' :: value.text ++ ['\''])) (String.ofList value.text)
  | .group inner => inner.type
  | .spaced _ operand _ => operand.type

/-- The type that a written type is meant to be: a union keeps its own text, without the
parentheses and the blanks around it. -/
def TypeText.type : TypeText → TypeExpr
  | .last operand => operand.type
  | .bar first rest =>
    .union (String.ofList (trim (first.print ++ '|' :: rest.print)))
      (first.type :: rest.alternatives)

/-- The types of the operands. -/
def TypeText.alternatives : TypeText → List TypeExpr
  | .last operand => [operand.type]
  | .bar first rest => first.type :: rest.alternatives

end

/-! ### Names -/

/-- How many more brackets the text opens than it closes, of the kinds that are listed. -/
def excess (kinds : List (Char × Char)) (text : List Char) : Int :=
  kinds.foldr (fun kind rest => text.count kind.1 - text.count kind.2 + rest) 0

/-- A bracket changes the number of open brackets of its own kind. -/
lemma bracketStep_eq (c : Char) : bracketStep c = excess brackets [c] := by
  by_cases hc : c ∈ ['(', '<', '[', '\x7b', ')', '>', ']', '\x7d']
  · simp only [List.mem_cons, List.not_mem_nil, or_false] at hc
    rcases hc with rfl | rfl | rfl | rfl | rfl | rfl | rfl | rfl <;> rfl
  · simp only [List.mem_cons, List.not_mem_nil, or_false, not_or] at hc
    simp [bracketStep, excess, brackets, hc]

/-- The brackets that a text leaves open are those of all kinds. -/
lemma bracketLevel_eq (text : List Char) : bracketLevel text = excess brackets text := by
  induction text with
  | nil => rfl
  | cons c text ih =>
    have hcount : ∀ d : Char, (c :: text).count d = [c].count d + text.count d := by
      intro d
      rw [← List.count_append, List.singleton_append]
    rw [bracketLevel, bracketStep_eq, ih]
    simp only [excess, brackets, List.foldr_cons, List.foldr_nil, hcount, Int.natCast_add]
    omega

/-- A text that closes all brackets that it opens leaves none open. -/
lemma bracketLevel_eq_zero {text : List Char}
    (h : ∀ kind ∈ brackets, text.count kind.2 = text.count kind.1) : bracketLevel text = 0 := by
  simp only [brackets, List.forall_mem_cons] at h
  simp only [bracketLevel_eq, excess, brackets, List.foldr_cons, List.foldr_nil]
  omega

/-- A text without the two marks has no quotes. -/
lemma isQuote_eq_false {text : List Char} (h : '\'' ∉ text ∧ '"' ∉ text) :
    ∀ c ∈ text, isQuote c = false := by
  intro c hc
  rw [isQuote, Bool.or_eq_false_iff, beq_eq_false_iff_ne, beq_eq_false_iff_ne]
  refine ⟨?_, ?_⟩
  · rintro rfl
    exact h.1 hc
  · rintro rfl
    exact h.2 hc

namespace TypeName

variable (name : TypeName) {before : List Char}

/-- The name of a type has no quotes. -/
lemma isQuote_of_mem : ∀ c ∈ name.text, isQuote c = false :=
  isQuote_eq_false name.unquoted

/-- Behind the name of a type, all brackets are closed. -/
lemma bracketLevel_text : bracketLevel name.text = 0 :=
  bracketLevel_eq_zero name.closed

/-- In the start of a name, no more brackets close than open. -/
lemma count_le (h : before <+: name.text) :
    ∀ kind ∈ brackets, before.count kind.2 ≤ before.count kind.1 :=
  name.opened before ((List.mem_inits ..).2 h)

/-- In front of a bar in a name, a bracket is open. -/
lemma bracketLevel_pos (h : before ++ ['|'] <+: name.text) : 0 < bracketLevel before := by
  have hpart : before <+: name.text := (List.prefix_append before ['|']).trans h
  have hopened := name.count_le hpart
  have hbarred := name.barred before ((List.mem_inits ..).2 hpart) h
  simp only [brackets, List.forall_mem_cons, List.exists_mem_cons_iff, List.not_mem_nil, false_and,
    exists_false, or_false] at hopened hbarred
  simp only [bracketLevel_eq, excess, brackets, List.foldr_cons, List.foldr_nil]
  omega

/-- Splitting goes past a name. -/
lemma splitUnion_append {depth : Int} (hdepth : 0 ≤ depth) (piece rest : List Char) :
    splitUnion depth none piece (name.text ++ rest) =
      splitUnion depth none (name.text.reverse ++ piece) rest := by
  rw [TypeExpr.splitUnion_append name.isQuote_of_mem, name.bracketLevel_text, Int.add_zero]
  intro before hbefore
  have := name.bracketLevel_pos hbefore
  omega

/-- The parentheses in a name are balanced. -/
lemma parensPass : ParensPass name.text := by
  intro depth rest
  have hclosed : name.text.count ')' = name.text.count '(' :=
    name.closed ('(', ')') List.mem_cons_self
  rw [parensBalanced_append, hclosed, Nat.add_sub_cancel]
  intro before hbefore
  have hopened : before.count ')' ≤ before.count '(' :=
    name.count_le hbefore ('(', ')') List.mem_cons_self
  omega

end TypeName

/-! ### Texts of operands -/

/-- Blanks have no parentheses. -/
lemma ParensPass.blanks (blanks : Blanks) : ParensPass blanks.text := by
  apply ParensPass.of_notMem
  · intro hmem
    cases blanks.blank '(' hmem
  · intro hmem
    cases blanks.blank ')' hmem

mutual

/-- The parentheses of an operand are balanced. -/
lemma Operand.parensPass : ∀ operand : Operand, ParensPass operand.print
  | .name word => word.parensPass
  | .constant value => by
    rw [Operand.print]
    exact .of_notMem (by simp [value.unopened]) (by simp [value.unclosed])
  | .group inner => by
    rw [Operand.print]
    exact .group inner.parensPass
  | .spaced before operand after => by
    rw [Operand.print]
    exact ((ParensPass.blanks before).append operand.parensPass).append (.blanks after)

/-- The parentheses of a written type are balanced. -/
lemma TypeText.parensPass : ∀ type : TypeText, ParensPass type.print
  | .last operand => operand.parensPass
  | .bar first rest => by
    rw [TypeText.print, ← List.singleton_append]
    have hbar : ParensPass ['|'] := .of_notMem (by decide) (by decide)
    exact first.parensPass.append (hbar.append rest.parensPass)

end

mutual

/-- Splitting goes past an operand. -/
lemma Operand.splitUnion_append : ∀ (operand : Operand) {depth : Int}, 0 ≤ depth →
    ∀ piece rest : List Char, splitUnion depth none piece (operand.print ++ rest) =
      splitUnion depth none (operand.print.reverse ++ piece) rest
  | .name word, _, hdepth, piece, rest => word.splitUnion_append hdepth piece rest
  | .constant value, depth, _, piece, rest => by
    rw [Operand.print, List.append_assoc]
    exact splitUnion_quoted rfl value.unquoted
  | .group inner, depth, hdepth, piece, rest => by
    have hopen : ∀ text, splitUnion depth none piece ('(' :: text) =
        splitUnion (depth + 1) none ('(' :: piece) text := fun _ => splitUnion_cons rfl nofun
    have hclose : ∀ piece, splitUnion (depth + 1) none piece (')' :: rest) =
        splitUnion (depth + 1 - 1) none (')' :: piece) rest := fun _ => splitUnion_cons rfl nofun
    rw [Operand.print, List.append_assoc, List.cons_append, hopen,
      inner.splitUnion_append (by omega), List.singleton_append, hclose, Int.add_sub_cancel]
    simp
  | .spaced before operand after, depth, hdepth, piece, rest => by
    rw [Operand.print, List.append_assoc, List.append_assoc, splitUnion_blanks_append before.blank,
      operand.splitUnion_append hdepth, splitUnion_blanks_append after.blank]
    simp

/-- Inside brackets splitting goes past a whole type. -/
lemma TypeText.splitUnion_append : ∀ (type : TypeText) {depth : Int}, 0 < depth →
    ∀ piece rest : List Char, splitUnion depth none piece (type.print ++ rest) =
      splitUnion depth none (type.print.reverse ++ piece) rest
  | .last operand, _, hdepth, piece, rest =>
    operand.splitUnion_append (Int.le_of_lt hdepth) piece rest
  | .bar first more, depth, hdepth, piece, rest => by
    have hbar : ∀ piece text, splitUnion depth none piece ('|' :: text) =
        splitUnion (depth + 0) none ('|' :: piece) text :=
      fun _ _ => splitUnion_cons rfl fun _ => Int.ne_of_gt hdepth
    rw [TypeText.print, List.append_assoc, first.splitUnion_append (Int.le_of_lt hdepth),
      List.cons_append, hbar, Int.add_zero, more.splitUnion_append hdepth]
    simp

end

/-- The texts of the operands. -/
def TypeText.pieces : TypeText → List (List Char)
  | .last operand => [operand.print]
  | .bar first rest => first.print :: rest.pieces

/-- A written type splits at its bars. -/
lemma TypeText.splitUnion_print : ∀ type : TypeText,
    splitUnion 0 none [] type.print = type.pieces.map fun piece => .type (trim piece)
  | .last operand => by
    have hlast := operand.splitUnion_append (Int.le_refl 0) [] []
    rw [List.append_nil, splitUnion, List.append_nil, List.reverse_reverse] at hlast
    exact hlast
  | .bar first rest => by
    rw [print, first.splitUnion_append (Int.le_refl 0), List.append_nil, splitUnion]
    simp [isQuote, pieces, rest.splitUnion_print]

/-- Behind its blanks an operand does not start with a parenthesis, or it ends with the partner. -/
lemma Operand.exists_core : ∀ operand : Operand, ∃ before core after,
    operand.print = before ++ core ++ after ∧ (∀ c ∈ before, isBlank c = true) ∧
    ((∃ c rest, core = c :: rest ∧ isBlank c = false ∧ c ≠ '(') ∨
      ∃ inner, core = '(' :: inner ++ [')'] ∧ ParensPass inner)
  | .name word => by
    refine ⟨[], word.text, [], by simp [print], nofun, .inl ?_⟩
    obtain ⟨c, rest, htext⟩ := List.exists_cons_of_ne_nil word.nonempty
    have hblank := head?_of_trim_eq word.trimmed
    have hbare := word.bare
    rw [htext] at hblank hbare ⊢
    exact ⟨c, rest, rfl, hblank c rfl, by simpa using hbare⟩
  | .constant value =>
    ⟨[], '\'' :: value.text ++ ['\''], [], by simp [print], nofun,
      .inl ⟨'\'', _, rfl, by decide, by decide⟩⟩
  | .group inner =>
    ⟨[], '(' :: inner.print ++ [')'], [], by simp [print], nofun,
      .inr ⟨inner.print, rfl, inner.parensPass⟩⟩
  | .spaced before operand after => by
    obtain ⟨blanks, core, rest, hprint, hblanks, hcore⟩ := operand.exists_core
    refine ⟨before.text ++ blanks, core, rest ++ after.text, by simp [print, hprint], ?_, hcore⟩
    intro c hc
    exact (List.mem_append.1 hc).elim (before.blank c) (hblanks c)

/-- Parentheses of an operand do not enclose a union. -/
lemma TypeText.enclosed?_bar (first : Operand) (rest : TypeText) :
    enclosed? (trim (TypeText.bar first rest).print) = none := by
  obtain ⟨before, core, after, hprint, hbefore, hcore⟩ := first.exists_core
  have htext : (TypeText.bar first rest).print =
      before ++ (core ++ after ++ '|' :: rest.print) := by
    simp [print, hprint]
  have htrim : trim (core ++ after ++ '|' :: rest.print) =
      core ++ after ++ '|' :: trimEnd rest.print := by
    rw [trim_eq_trimEnd, trimEnd_append_cons (by decide : isBlank '|' = false)]
    rcases hcore with ⟨c, more, rfl, hblank, -⟩ | ⟨inner, rfl, -⟩
    · rintro d ⟨⟩
      exact hblank
    · rintro d ⟨⟩
      decide
  rw [htext, trim_blanks_append hbefore, htrim]
  -- Trimming keeps the core of the first operand and the bar, so parentheses close before the end.
  rcases hcore with ⟨c, more, rfl, -, hc⟩ | ⟨inner, rfl, hinner⟩
  · exact enclosed?_of_head? (by simpa using hc)
  · have hsplit : '(' :: inner ++ [')'] ++ after ++ '|' :: trimEnd rest.print =
        '(' :: inner ++ ')' :: (after ++ '|' :: trimEnd rest.print) := by simp
    rw [hsplit, enclosed?_group_append hinner (by simp)]

/-! ### Reading what is written -/

/-- An operand that is not in parentheses is a single type. -/
lemma Operand.parse_of_enclosed? (operand : Operand) (h : enclosed? (trim operand.print) = none) :
    parse operand.print = single (trim operand.print) := by
  apply parse_of_single h
  intro a b rest hsplit
  have hlast := (TypeText.last operand).splitUnion_print
  rw [TypeText.print, ← splitUnion_trim, hsplit] at hlast
  cases hlast

/-- A name is read as the type that it names. -/
lemma Operand.parse_name (word : TypeName) : parse word.text = (Operand.name word).type := by
  have henclosed : enclosed? (trim word.text) = none := by
    rw [word.trimmed]
    exact enclosed?_of_head? word.bare
  have hstart : dropStart? ['\''] word.text = none := by
    rw [Option.eq_none_iff_forall_ne_some]
    intro rest hrest
    exact word.unquoted.1 (by simp [dropStart?_eq_some_iff.1 hrest])
  have hparse : parse word.text = single word.text := by
    have h := (Operand.name word).parse_of_enclosed? henclosed
    rwa [print, word.trimmed] at h
  have hne : String.ofList word.text ≠ "" := by
    simpa using word.nonempty
  rw [hparse, single, hstart, type]
  by_cases hany : String.ofList word.text = "any"
  · simp [hany]
  · simp [hany, hne]

/-- A text in quotes is read as a constant. -/
lemma Operand.parse_constant (value : ConstantValue) :
    parse ('\'' :: value.text ++ ['\'']) = (Operand.constant value).type := by
  have htrim : trim (Operand.constant value).print = '\'' :: value.text ++ ['\''] :=
    trim_between (by decide) (by decide) value.text
  have hparse : parse ('\'' :: value.text ++ ['\'']) = single ('\'' :: value.text ++ ['\'']) := by
    have h := (Operand.constant value).parse_of_enclosed? (enclosed?_of_head? (by simp [htrim]))
    rw [htrim] at h
    exact h
  have hvalue : (dropStart? ['\''] ('\'' :: value.text ++ ['\''])).bind (dropEnd? ['\'']) =
      some value.text := dropEnd?_append value.text ['\'']
  rw [hparse, single, hvalue, type]

/-- A group is read as the type in it. -/
lemma Operand.parse_group (inner : TypeText) :
    parse ('(' :: inner.print ++ [')']) = parse inner.print := by
  apply parse_of_enclosed
  rw [trim_between (by decide) (by decide), enclosed?_group inner.parensPass]

/-- A union is read operand by operand. -/
lemma TypeText.parse_bar (first : Operand) (rest : TypeText) :
    parse (TypeText.bar first rest).print =
      .union (String.ofList (trim (first.print ++ '|' :: rest.print)))
        (parse first.print :: rest.pieces.map parse) := by
  have hsplit := (TypeText.bar first rest).splitUnion_print
  rw [← splitUnion_trim] at hsplit
  obtain ⟨second, more, hpieces⟩ : ∃ second more, rest.pieces = second :: more := by
    cases rest with
    | last operand => exact ⟨_, _, rfl⟩
    | bar first rest => exact ⟨_, _, rfl⟩
  rw [pieces, hpieces] at hsplit
  have hread : ∀ piece : List Char, Alternative.read (.type (trim piece)) = parse piece :=
    fun piece => parse_congr (trim_trim piece)
  rw [parse_of_union (enclosed?_bar first rest) hsplit, hpieces]
  simp [hread, print]

mutual

/-- An operand is read back. -/
lemma Operand.parse_print : ∀ operand : Operand, parse operand.print = operand.type
  | .name word => Operand.parse_name word
  | .constant value => by rw [Operand.print, Operand.parse_constant]
  | .group inner => by
    rw [Operand.print, Operand.parse_group, inner.parse_print, Operand.type]
  | .spaced before operand after => by
    rw [Operand.print, parse_congr (trim_append_of_blank before.blank after.blank),
      operand.parse_print, Operand.type]

/-- A written type is read back. -/
lemma TypeText.parse_print : ∀ type : TypeText, parse type.print = type.type
  | .last operand => by rw [TypeText.print, operand.parse_print, TypeText.type]
  | .bar first rest => by
    rw [TypeText.parse_bar, first.parse_print, rest.parse_pieces, TypeText.type]

/-- The pieces between the bars of a written type are read as its alternatives. -/
lemma TypeText.parse_pieces : ∀ type : TypeText, type.pieces.map parse = type.alternatives
  | .last operand => by
    rw [TypeText.pieces, List.map_singleton, operand.parse_print, TypeText.alternatives]
  | .bar first rest => by
    rw [TypeText.pieces, List.map_cons, first.parse_print, rest.parse_pieces,
      TypeText.alternatives]

end

/-- Reading a written type gives the type that is meant. Reading the text of any type that was read
gives that type again, and every union in it has at least two alternatives. -/
theorem parse_written :
    (∀ type : TypeText, parse type.print = type.type) ∧
    ∀ text : List Char,
      parse (parse text).text.toList = parse text ∧ (parse text).isProper = true :=
  ⟨TypeText.parse_print, fun text => ⟨parse_text_parse text, isProper_parse text⟩⟩

/-- A union with a bar inside a name, one inside a constant, and one in a union of its own. -/
theorem parse_written_nested :
    let space : Blanks := ⟨[' '], List.forall_mem_singleton.2 (by decide)⟩
    let list : TypeName :=
      { text := "List<a|b>".toList, nonempty := by decide, trimmed := by decide
        unquoted := by decide, bare := by decide, closed := by decide, opened := by decide
        barred := by decide }
    let star : TypeName :=
      { text := ['*'], nonempty := by decide, trimmed := by decide, unquoted := by decide
        bare := by decide, closed := by decide, opened := by decide, barred := by decide }
    let quoted : ConstantValue := ⟨"x|y".toList, by decide, by decide, by decide⟩
    let inner : TypeText := .bar (.constant quoted) (.last (.spaced space (.name star) space))
    let type : TypeText := .bar (.name list) (.last (.group (.last (.group inner))))
    type.print = "List<a|b>|(('x|y'| * ))".toList ∧
      parse type.print = .union "List<a|b>|(('x|y'| * ))"
        [.named "List<a|b>" "List<a|b>",
          .union "'x|y'| *" [.constant "'x|y'" "x|y", .named "*" "any"]] := by
  intro space list star quoted inner type
  exact ⟨by decide, (parse_written.1 type).trans rfl⟩

end ComponentApi.TypeExpr
