import ComponentApi.Proofs.TypeExpr.RoundTrip

/-!
# Unions of function types

The type of a function holds an arrow, and to splitting the head of an arrow is a closing bracket.
So behind an arrow fewer brackets seem to be open than are, and a bar may be passed over that stands
between types in parentheses, or one may split that stands inside them.

`parse_union_groups_iff` says when a union of two types in parentheses is read as such: exactly if
the first holds no arrow and no bar of the second stands behind as many arrows as brackets are open
there.
-/

namespace ComponentApi.TypeExpr

open Text

/-! ### Arrows -/

/-- The text without the heads of its arrows `=>`. -/
def dropHeads : List Char → List Char
  | '=' :: '>' :: text => '=' :: dropHeads text
  | c :: text => c :: dropHeads text
  | [] => []

/-- How many arrows the text holds. -/
def arrowCount : List Char → Nat
  | '=' :: '>' :: text => arrowCount text + 1
  | _ :: text => arrowCount text
  | [] => 0

/-- How many brackets the text leaves open, where the head of an arrow closes none. -/
def openCount (text : List Char) : Int :=
  bracketLevel (dropHeads text)

/-- A character that starts no arrow stays. -/
lemma dropHeads_cons {c : Char} {text : List Char}
    (h : ∀ rest, c = '=' → text = '>' :: rest → False) :
    dropHeads (c :: text) = c :: dropHeads text := by
  rw [dropHeads]
  exact h

/-- A character that starts no arrow does not count. -/
lemma arrowCount_cons {c : Char} {text : List Char}
    (h : ∀ rest, c = '=' → text = '>' :: rest → False) :
    arrowCount (c :: text) = arrowCount text := by
  rw [arrowCount]
  exact h

/-- Splitting counts the head of an arrow as a closing bracket. -/
lemma openCount_eq (text : List Char) : openCount text = bracketLevel text + arrowCount text := by
  unfold openCount
  induction text using dropHeads.induct with
  | case1 text ih =>
    have hequals : bracketStep '=' = 0 := rfl
    have hhead : bracketStep '>' = -1 := rfl
    simp only [dropHeads, bracketLevel, arrowCount, ih, hequals, hhead]
    omega
  | case2 c text hc ih =>
    rw [dropHeads_cons hc, arrowCount_cons hc, bracketLevel, bracketLevel, ih, Int.add_assoc]
  | case3 => rfl

/-- Leaving out the heads of arrows leaves all other characters. -/
lemma count_dropHeads {c : Char} (hc : c ≠ '>') (text : List Char) :
    (dropHeads text).count c = text.count c := by
  induction text using dropHeads.induct with
  | case1 text ih => simp [dropHeads, List.count_cons, hc.symm, ih]
  | case2 d text hd ih => rw [dropHeads_cons hd, List.count_cons, List.count_cons, ih]
  | case3 => rfl

/-- More text behind a part does not change the arrows in it, except at its end. -/
lemma dropHeads_prefix_append (before after : List Char) :
    dropHeads before <+: dropHeads (before ++ after) := by
  induction before using dropHeads.induct with
  | case1 text ih =>
    apply (List.prefix_cons_inj '=').2
    exact ih
  | case2 c text hc ih =>
    rw [dropHeads_cons hc, List.cons_append]
    by_cases hsplit : ∃ rest, c = '=' ∧ text ++ after = '>' :: rest
    · obtain ⟨rest, rfl, hrest⟩ := hsplit
      -- Only between the two parts can an arrow stand that is not in the first.
      cases text with
      | nil =>
        rw [List.nil_append] at hrest
        rw [hrest]
        apply (List.prefix_cons_inj '=').2
        exact List.nil_prefix
      | cons d text =>
        cases hrest
        exact absurd rfl (hc text rfl)
    · rw [dropHeads_cons fun rest hequals hrest => hsplit ⟨rest, hequals, hrest⟩]
      apply (List.prefix_cons_inj c).2
      exact ih
  | case3 => exact List.nil_prefix

/-- Without arrows, nothing is left out. -/
lemma dropHeads_eq_self {text : List Char} (h : arrowCount text = 0) : dropHeads text = text := by
  induction text using dropHeads.induct with
  | case1 text => cases h
  | case2 c text hc ih =>
    rw [arrowCount_cons hc] at h
    rw [dropHeads_cons hc, ih h]
  | case3 => rfl

/-- A text whose brackets are balanced, in whatever way the kinds are nested, when the head of an
arrow is no bracket. -/
structure ArrowText where
  text : List Char
  unquoted : '\'' ∉ text ∧ '"' ∉ text
  closed : ∀ kind ∈ brackets, (dropHeads text).count kind.2 = (dropHeads text).count kind.1
  opened : ∀ before ∈ (dropHeads text).inits, ∀ kind ∈ brackets,
    before.count kind.2 ≤ before.count kind.1

/-- The text in parentheses. -/
def ArrowText.group (type : ArrowText) : List Char :=
  '(' :: type.text ++ [')']

/-- A bar stands behind as many arrows as brackets are open there, the parenthesis before the text
counted as one of them. -/
def HasBareBar (text : List Char) : Prop :=
  ∃ before ∈ text.inits, before ++ ['|'] <+: text ∧ (arrowCount before : Int) = openCount before + 1

instance : DecidablePred HasBareBar := fun text =>
  List.decidableBEx _ text.inits

namespace ArrowText

variable (type : ArrowText) {before : List Char}

/-- A written type opens as many brackets as it closes. -/
lemma openCount_text : openCount type.text = 0 :=
  bracketLevel_eq_zero type.closed

/-- In the start of a written type, no more brackets close than open. -/
lemma count_le (h : before <+: type.text) :
    ∀ kind ∈ brackets, (dropHeads before).count kind.2 ≤ (dropHeads before).count kind.1 := by
  obtain ⟨after, htext⟩ := h
  apply type.opened
  rw [List.mem_inits, ← htext]
  exact dropHeads_prefix_append before after

/-- Without arrows, the level of brackets never falls below zero. -/
lemma bracketLevel_nonneg (harrow : arrowCount type.text = 0) (h : before <+: type.text) :
    0 ≤ bracketLevel before := by
  have hopened := type.opened before
  rw [dropHeads_eq_self harrow, List.mem_inits] at hopened
  have hcount := hopened h
  simp only [brackets, List.forall_mem_cons] at hcount
  simp only [bracketLevel_eq, excess, brackets, List.foldr_cons, List.foldr_nil]
  omega

/-- Arrows are nothing to the parentheses. -/
lemma parens_le (h : before <+: type.text) : before.count ')' ≤ before.count '(' := by
  have hcount := type.count_le h ('(', ')') List.mem_cons_self
  rwa [count_dropHeads (by decide), count_dropHeads (by decide)] at hcount

/-- A written type has as many closing as opening parentheses. -/
lemma parens_eq : type.text.count ')' = type.text.count '(' := by
  have hcount := type.closed ('(', ')') List.mem_cons_self
  rwa [count_dropHeads (by decide), count_dropHeads (by decide)] at hcount

/-- The parentheses of a written type are balanced. -/
lemma parensPass : ParensPass type.text := by
  intro depth rest
  rw [parensBalanced_append, type.parens_eq, Nat.add_sub_cancel]
  intro before hbefore
  have := type.parens_le hbefore
  omega

/-! ### A type in parentheses -/

/-- A group has as many closing as opening parentheses. -/
lemma parens_group : type.group.count ')' = type.group.count '(' := by
  simp [group, type.parens_eq]

/-- A group has no quotes. -/
lemma isQuote_of_mem_group : ∀ c ∈ type.group, isQuote c = false := by
  intro c hc
  rw [group, List.mem_append, List.mem_cons, List.mem_singleton] at hc
  rcases hc with (rfl | hc) | rfl
  · rfl
  · exact isQuote_eq_false type.unquoted c hc
  · rfl

/-- Behind a group, the level of brackets has fallen by one for each arrow in it. -/
lemma bracketLevel_group : bracketLevel type.group = -arrowCount type.text := by
  have hopen : bracketStep '(' = 1 := rfl
  have hclose : bracketStep ')' = -1 := rfl
  have htext := openCount_eq type.text
  rw [type.openCount_text] at htext
  simp only [group, bracketLevel_append, bracketLevel, hopen, hclose]
  omega

/-- A bar in a group stands behind its opening parenthesis, in the type. -/
lemma bar_group_iff : before ++ ['|'] <+: type.group ↔
    ∃ inner, before = '(' :: inner ∧ inner ++ ['|'] <+: type.text := by
  constructor
  · intro h
    cases before with
    | nil => simp [group] at h
    | cons c inner =>
      obtain ⟨rfl, hinner⟩ := List.cons_prefix_cons.1 h
      refine ⟨inner, rfl, ?_⟩
      rcases List.prefix_concat_iff.1 hinner with hall | hpart
      · simpa using List.append_inj_right' hall rfl
      · exact hpart
  · rintro ⟨inner, rfl, hinner⟩
    exact (List.prefix_cons_inj '(').2 (hinner.trans (List.prefix_append type.text [')']))

/-- Splitting finds no bracket open at the bars that arrows lay bare. -/
lemma hasBareBar_iff : HasBareBar type.text ↔
    ∃ before, before ++ ['|'] <+: type.group ∧ bracketLevel before = 0 := by
  have hlevel : ∀ inner,
      bracketLevel ('(' :: inner) = 1 + (openCount inner - arrowCount inner) := by
    intro inner
    have hopen : bracketStep '(' = 1 := rfl
    rw [bracketLevel, hopen, openCount_eq, Int.add_sub_cancel]
  constructor
  · rintro ⟨inner, -, hinner, hbare⟩
    refine ⟨'(' :: inner, type.bar_group_iff.2 ⟨inner, rfl, hinner⟩, ?_⟩
    rw [hlevel]
    omega
  · rintro ⟨before, hbefore, hzero⟩
    obtain ⟨inner, rfl, hinner⟩ := type.bar_group_iff.1 hbefore
    have hpart : inner <+: type.text := (List.prefix_append inner ['|']).trans hinner
    refine ⟨inner, (List.mem_inits ..).2 hpart, hinner, ?_⟩
    rw [hlevel] at hzero
    omega

/-- The parenthesis is still open where a bar stands. -/
lemma parens_lt_of_bar (h : before ++ ['|'] <+: type.group) :
    before.count ')' < before.count '(' := by
  obtain ⟨inner, rfl, hinner⟩ := type.bar_group_iff.1 h
  have hle := type.parens_le ((List.prefix_append inner ['|']).trans hinner)
  rw [List.count_cons_self, List.count_cons_of_ne (by decide)]
  omega

/-- A group is read as the type in it. -/
lemma parse_group : parse type.group = parse type.text := by
  apply parse_of_enclosed
  rw [group, trim_between (by decide) (by decide), enclosed?_group type.parensPass]

/-- A piece with an open parenthesis is not read as the type. -/
lemma read_ne (h : before.count ')' < before.count '(') :
    Alternative.read (.type (trim before)) ≠ parse type.text := by
  intro hread
  have hpiece := (wraps_text_parse before).parens_eq
  have htext := (wraps_text_parse type.text).parens_eq
  rw [Alternative.read, parse_congr (trim_trim before)] at hread
  rw [hread] at hpiece
  have := type.parens_eq
  omega

/-- A type in parentheses is one alternative, unless arrows lay bare a bar in it. -/
lemma splitUnion_group_iff : (splitUnion 0 none [] type.group).map Alternative.read =
    [parse type.text] ↔ ¬ HasBareBar type.text := by
  have hcases := splitUnion_append_cases type.isQuote_of_mem_group 0 [] []
  rw [hasBareBar_iff]
  simp only [List.append_nil, List.reverse_nil, List.nil_append, Int.zero_add] at hcases
  rcases hcases with ⟨hsplit, hbars⟩ | ⟨before, after, hgroup, hlevel, hsplit⟩
  · apply iff_of_true
    · rw [hsplit, splitUnion, List.reverse_reverse, List.map_singleton, Alternative.read,
        parse_congr (trim_trim type.group), type.parse_group]
    · rintro ⟨before, hbefore, hlevel⟩
      exact hbars before hbefore hlevel
  · apply iff_of_false
    · rw [hsplit, List.map_cons, List.cons.injEq, List.map_eq_nil_iff]
      exact fun h => splitUnion_ne_nil _ _ _ _ h.2
    · rw [not_not]
      exact ⟨before, by rw [hgroup]; exact ⟨after, by simp⟩, hlevel⟩

end ArrowText

/-! ### Two types in parentheses -/

/-- The union of two types in parentheses. -/
def unionOfGroups (first second : ArrowText) : List Char :=
  first.group ++ '|' :: second.group

variable {first second : ArrowText}

/-- A union of groups is trimmed. -/
lemma trim_unionOfGroups : trim (unionOfGroups first second) = unionOfGroups first second := by
  have hbetween := trim_between (by decide : isBlank '(' = false) (by decide : isBlank ')' = false)
    (first.text ++ ")|(".toList ++ second.text)
  simpa [unionOfGroups, ArrowText.group] using hbetween

/-- A union of groups is not one group. -/
lemma enclosed?_unionOfGroups : enclosed? (unionOfGroups first second) = none := by
  have h := enclosed?_group_append first.parensPass
    (List.cons_ne_nil '|' second.group)
  simpa [unionOfGroups, ArrowText.group] using h

/-- Without an arrow in the first type the union is split between the two. -/
lemma splitUnion_unionOfGroups (h : arrowCount first.text = 0) :
    splitUnion 0 none [] (unionOfGroups first second) =
      .type (trim first.group) :: splitUnion 0 none [] second.group := by
  have hbars : ∀ before, before ++ ['|'] <+: first.group → 0 + bracketLevel before ≠ 0 := by
    intro before hbefore
    obtain ⟨inner, rfl, hinner⟩ := first.bar_group_iff.1 hbefore
    have hlevel := first.bracketLevel_nonneg h ((List.prefix_append inner ['|']).trans hinner)
    have hopen : bracketStep '(' = 1 := rfl
    rw [bracketLevel, hopen]
    omega
  rw [unionOfGroups, splitUnion_append first.isQuote_of_mem_group hbars, first.bracketLevel_group,
    h, splitUnion]
  simp [isQuote]

/-- With an arrow in the first type splitting misses the bar between the two, and the first
alternative has a parenthesis open. -/
lemma map_read_ne_of_arrow (h : arrowCount first.text ≠ 0) :
    (splitUnion 0 none [] (unionOfGroups first second)).map Alternative.read ≠
      [parse first.text, parse second.text] := by
  intro hread
  have hlevel := first.bracketLevel_group
  rcases splitUnion_append_cases first.isQuote_of_mem_group 0 [] ('|' :: second.group) with
    ⟨hpass, -⟩ | ⟨before, after, hgroup, -, hsplit⟩
  · have hbar : '|' = '|' → 0 + bracketLevel first.group ≠ 0 := by
      intro _
      omega
    rw [unionOfGroups, hpass, splitUnion_cons rfl hbar] at hread
    rcases splitUnion_append_cases second.isQuote_of_mem_group _ _ [] with
      ⟨hpass, -⟩ | ⟨before, after, hgroup, -, hsplit⟩
    · rw [← List.append_nil second.group, hpass] at hread
      simp [splitUnion] at hread
    · have hbefore : before ++ ['|'] <+: second.group := ⟨after, by rw [hgroup]; simp⟩
      rw [← List.append_nil second.group, hsplit, List.map_cons, List.cons.injEq] at hread
      apply first.read_ne _ hread.1
      have hfirst := first.parens_group
      have hsecond := second.parens_lt_of_bar hbefore
      simp only [List.append_nil, List.reverse_cons, List.reverse_reverse, List.count_append,
        List.count_cons_of_ne (by decide : '|' ≠ ')'),
        List.count_cons_of_ne (by decide : '|' ≠ '('), List.count_nil]
      omega
  · have hbefore : before ++ ['|'] <+: first.group := ⟨after, by rw [hgroup]; simp⟩
    rw [unionOfGroups, hsplit, List.map_cons, List.cons.injEq] at hread
    exact first.read_ne (first.parens_lt_of_bar hbefore) hread.1

/-- A union of two types in parentheses is read as one, with its text and the two types, exactly if
the first type holds no arrow and arrows lay bare no bar in the second. -/
theorem parse_union_groups_iff (first second : ArrowText) (text : String) :
    parse (unionOfGroups first second) = .union text [parse first.text, parse second.text] ↔
      text = String.ofList (unionOfGroups first second) ∧ arrowCount first.text = 0 ∧
        ¬ HasBareBar second.text := by
  have henclosed : enclosed? (trim (unionOfGroups first second)) = none := by
    rw [trim_unionOfGroups, enclosed?_unionOfGroups]
  rw [parse_eq_union_iff henclosed, trim_unionOfGroups]
  by_cases harrow : arrowCount first.text = 0
  · have hfirst : Alternative.read (.type (trim first.group)) = parse first.text := by
      rw [Alternative.read, parse_congr (trim_trim first.group), first.parse_group]
    rw [splitUnion_unionOfGroups harrow, List.map_cons, hfirst, List.cons.injEq,
      ArrowText.splitUnion_group_iff]
    simp [harrow]
  · simp [harrow, map_read_ne_of_arrow harrow]

/-- The type of a function may stand behind the bar, also behind one that stands in brackets. -/
theorem parse_union_groups_iff_function :
    let map : ArrowText :=
      { text := "Map<k,(v|w)>".toList, unquoted := by decide, closed := by decide
        opened := by decide }
    let function : ArrowText :=
      { text := "(e: E<a|b>) => void".toList, unquoted := by decide, closed := by decide
        opened := by decide }
    parse "(Map<k,(v|w)>)|((e: E<a|b>) => void)".toList =
      .union "(Map<k,(v|w)>)|((e: E<a|b>) => void)" [parse map.text, parse function.text] := by
  intro map function
  exact (parse_union_groups_iff map function _).2 ⟨rfl, by decide, by decide⟩

/-- With the type of a function in front of the bar there is no union. -/
theorem not_parse_union_groups_arrow :
    ¬ ∀ first second : ArrowText, first.text ≠ [] → second.text ≠ [] →
      ∃ text, parse (unionOfGroups first second) =
        .union text [parse first.text, parse second.text] := by
  intro hunion
  let function : ArrowText :=
    { text := "() => void".toList, unquoted := by decide, closed := by decide, opened := by decide }
  let null : ArrowText :=
    { text := "null".toList, unquoted := by decide, closed := by decide, opened := by decide }
  obtain ⟨text, hparse⟩ := hunion function null (by decide) (by decide)
  have henclosed : enclosed? (trim (unionOfGroups function null)) = none := by
    rw [trim_unionOfGroups, enclosed?_unionOfGroups]
  obtain ⟨-, -, hread⟩ := (parse_eq_union_iff henclosed).1 hparse
  rw [trim_unionOfGroups] at hread
  exact map_read_ne_of_arrow (by decide) hread

end ComponentApi.TypeExpr
