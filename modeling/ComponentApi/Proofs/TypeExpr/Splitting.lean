import ComponentApi.Proofs.Text.Lines
import ComponentApi.TypeExpr.Grammar

/-!
# Splitting types

How the text of a type is taken apart. `parse` is told by three equations: a text in parentheses is
read without them, a text with several alternatives is their union, and any other text is a single
type.

What stands in a larger text is passed over in one step: splitting goes past a text without quotes
and counts its brackets (`splitUnion_append`), past a quoted text at once (`splitUnion_quoted`), and
the count of parentheses goes past a text that closes no more than is open
(`parensBalanced_append`). Blanks around a text do not matter (`splitUnion_trim`).
-/

namespace ComponentApi.TypeExpr

open Text

/-! ### Reading in steps -/

/-- The type that an alternative stands for. -/
def Alternative.read : Alternative → TypeExpr
  | .type text => parse text
  | .verbatim text => .ofName (String.ofList text)

/-- A single type is no union. -/
lemma single_ne_union (text : List Char) (unionText : String) (types : List TypeExpr) :
    single text ≠ .union unionText types := by
  unfold single
  split <;> exact nofun

section Equations

variable {text inner : List Char} {a b : Alternative} {rest : List Alternative}

/-- Reading a type, without the proofs that it ends. -/
lemma parse_eq (text : List Char) :
    parse text =
      match enclosed? (trim text) with
      | some inner => parse inner
      | none =>
        match splitUnion 0 none [] (trim text) with
        | a :: b :: rest =>
          .union (String.ofList (trim text)) ((a :: b :: rest).map Alternative.read)
        | _ => single (trim text) := by
  rw [parse]
  split
  · next henclosed => rw [henclosed]
  · next henclosed =>
    rw [henclosed]
    split
    · next a b rest hsplit =>
      rw [hsplit, List.map_subtype (g := Alternative.read), List.unattach_attach]
      intro x hx
      cases x <;> rfl
    · next hsplit =>
      dsimp only
      split
      · next a b rest heq => exact absurd heq (hsplit a b rest)
      · rfl

/-- A text in parentheses is read as what stands in them. -/
lemma parse_of_enclosed (h : enclosed? (trim text) = some inner) : parse text = parse inner := by
  rw [parse_eq, h]

/-- A text that bars split is read as the union of the parts. -/
lemma parse_of_union (henclosed : enclosed? (trim text) = none)
    (hsplit : splitUnion 0 none [] (trim text) = a :: b :: rest) :
    parse text = .union (String.ofList (trim text)) ((a :: b :: rest).map Alternative.read) := by
  rw [parse_eq, henclosed, hsplit]

/-- A text that no bar splits is read as a single type. -/
lemma parse_of_single (henclosed : enclosed? (trim text) = none)
    (hsplit : ∀ a b rest, splitUnion 0 none [] (trim text) ≠ a :: b :: rest) :
    parse text = single (trim text) := by
  rw [parse_eq, henclosed]
  dsimp only
  split
  · next a b rest h => exact absurd h (hsplit a b rest)
  · rfl

/-- A text that is not in parentheses is a union exactly if it has at least two alternatives. -/
lemma parse_eq_union_iff {unionText : String} {types : List TypeExpr}
    (henclosed : enclosed? (trim text) = none) :
    parse text = .union unionText types ↔
      unionText = String.ofList (trim text) ∧ 2 ≤ types.length ∧
        (splitUnion 0 none [] (trim text)).map Alternative.read = types := by
  cases hsplit : splitUnion 0 none [] (trim text) with
  | nil =>
    rw [parse_of_single henclosed (by simp [hsplit])]
    constructor
    · exact fun h => absurd h (single_ne_union _ _ _)
    · rintro ⟨-, hlength, rfl⟩
      simp at hlength
  | cons a more =>
    cases more with
    | nil =>
      rw [parse_of_single henclosed (by simp [hsplit])]
      constructor
      · exact fun h => absurd h (single_ne_union _ _ _)
      · rintro ⟨-, hlength, rfl⟩
        simp at hlength
    | cons b rest =>
      rw [parse_of_union henclosed hsplit, TypeExpr.union.injEq]
      constructor
      · rintro ⟨rfl, rfl⟩
        exact ⟨rfl, by simp, rfl⟩
      · rintro ⟨rfl, -, rfl⟩
        exact ⟨rfl, rfl⟩

/-- Only the trimmed text counts. -/
lemma parse_congr {other : List Char} (h : trim text = trim other) : parse text = parse other := by
  rw [parse_eq text, parse_eq other, h]

end Equations

/-! ### Passing over a part of a text -/

/-- How much a character changes the number of open brackets. -/
def bracketStep (c : Char) : Int :=
  if c == '(' || c == '<' || c == '[' || c == '\x7b' then 1
  else if c == ')' || c == '>' || c == ']' || c == '\x7d' then -1
  else 0

/-- How much a text changes the number of open brackets. -/
def bracketLevel : List Char → Int
  | [] => 0
  | c :: text => bracketStep c + bracketLevel text

/-- The levels of two texts one after the other add up. -/
lemma bracketLevel_append (before after : List Char) :
    bracketLevel (before ++ after) = bracketLevel before + bracketLevel after := by
  induction before with
  | nil => simp [bracketLevel]
  | cons c before ih => rw [List.cons_append, bracketLevel, bracketLevel, ih, Int.add_assoc]

section Passing

variable {depth : Int} {piece text rest : List Char} {c : Char}

/-- A character that is neither a quote nor a bar between alternatives belongs to the piece. -/
lemma splitUnion_cons (hquote : isQuote c = false) (hbar : c = '|' → depth ≠ 0) :
    splitUnion depth none piece (c :: rest) =
      splitUnion (depth + bracketStep c) none (c :: piece) rest := by
  have hbar' : (c == '|' && depth == 0) = false := by
    simpa using hbar
  rw [splitUnion]
  simp only [hquote, hbar', Bool.false_eq_true, if_false, bracketStep]
  split_ifs <;> simp [Int.sub_eq_add_neg]

/-- Splitting goes past a text without quotes in which no bar stands between alternatives. -/
lemma splitUnion_append (hquote : ∀ c ∈ text, isQuote c = false)
    (hbar : ∀ before, before ++ ['|'] <+: text → depth + bracketLevel before ≠ 0) :
    splitUnion depth none piece (text ++ rest) =
      splitUnion (depth + bracketLevel text) none (text.reverse ++ piece) rest := by
  -- Behind the first character the depth is another one, and so is the level that a bar must avoid.
  induction text generalizing depth piece with
  | nil => simp [bracketLevel]
  | cons c text ih =>
    rw [List.cons_append, splitUnion_cons (hquote c List.mem_cons_self), ih]
    · simp [bracketLevel, Int.add_assoc]
    · exact fun c hc => hquote c (List.mem_cons_of_mem _ hc)
    · intro before hbefore
      have h := hbar (c :: before) (List.prefix_cons_inj c |>.2 hbefore)
      simpa [bracketLevel, Int.add_assoc] using h
    · rintro rfl
      simpa [bracketLevel] using hbar [] (by simp)

/-- Splitting goes past a text without quotes, or it splits at a bar of the text. -/
lemma splitUnion_append_cases (hquote : ∀ c ∈ text, isQuote c = false) (depth : Int)
    (piece rest : List Char) :
    (splitUnion depth none piece (text ++ rest) =
        splitUnion (depth + bracketLevel text) none (text.reverse ++ piece) rest ∧
      ∀ before, before ++ ['|'] <+: text → depth + bracketLevel before ≠ 0) ∨
    ∃ before after, text = before ++ '|' :: after ∧ depth + bracketLevel before = 0 ∧
      splitUnion depth none piece (text ++ rest) =
        .type (trim (piece.reverse ++ before)) :: splitUnion 0 none [] (after ++ rest) := by
  by_cases hbar : ∀ before, before ++ ['|'] <+: text → depth + bracketLevel before ≠ 0
  · exact .inl ⟨splitUnion_append hquote hbar, hbar⟩
  right
  -- The first bar that splits is the first character, or one of what follows that.
  induction text generalizing depth piece with
  | nil => simp at hbar
  | cons c text ih =>
    by_cases hc : c = '|' ∧ depth = 0
    · obtain ⟨rfl, rfl⟩ := hc
      exact ⟨[], text, rfl, rfl, by simp [splitUnion, isQuote]⟩
    have hpass : c = '|' → depth ≠ 0 := fun hbar hdepth => hc ⟨hbar, hdepth⟩
    have hlater : ¬ ∀ before, before ++ ['|'] <+: text →
        depth + bracketStep c + bracketLevel before ≠ 0 := by
      intro hnone
      apply hbar
      intro before hbefore
      cases before with
      | nil =>
        obtain ⟨rfl, -⟩ := List.cons_prefix_cons.1 hbefore
        simpa [bracketLevel] using hpass rfl
      | cons d before =>
        obtain ⟨rfl, hbefore⟩ := List.cons_prefix_cons.1 hbefore
        rw [bracketLevel, ← Int.add_assoc]
        exact hnone before ((List.prefix_cons_inj d).1 hbefore)
    obtain ⟨before, after, rfl, hlevel, hsplit⟩ :=
      ih (fun c hc => hquote c (List.mem_cons_of_mem _ hc)) _ (c :: piece) hlater
    refine ⟨c :: before, after, rfl, ?_, ?_⟩
    · rw [bracketLevel, ← Int.add_assoc]
      exact hlevel
    · rw [List.cons_append, splitUnion_cons (hquote c List.mem_cons_self) hpass, hsplit]
      simp

/-- Splitting a text gives at least one part. -/
lemma splitUnion_ne_nil (depth : Int) (quote : Option Char) (piece text : List Char) :
    splitUnion depth quote piece text ≠ [] := by
  fun_induction splitUnion depth quote piece text with
  | case1 | case4 | case5 => exact List.cons_ne_nil _ _
  | case2 | case3 | case6 | case7 | case8 => assumption

/-- Inside a quote the mark is all that counts. -/
lemma splitUnion_quoted (hquote : isQuote c = true) (hmem : c ∉ text) :
    splitUnion depth none piece (c :: text ++ c :: rest) =
      splitUnion depth none ((c :: text ++ [c]).reverse ++ piece) rest := by
  have hinside : ∀ piece : List Char, splitUnion depth (some c) piece (text ++ c :: rest) =
      splitUnion depth none (c :: text.reverse ++ piece) rest := by
    induction text with
    | nil =>
      intro piece
      simp [splitUnion]
    | cons d text ih =>
      intro piece
      rw [List.mem_cons, not_or] at hmem
      obtain ⟨hd, hmem⟩ := hmem
      have hd' : (d == c) = false := beq_false_of_ne (Ne.symm hd)
      rw [List.cons_append, splitUnion, hd', if_neg Bool.false_ne_true, ih hmem]
      simp
  rw [List.cons_append, splitUnion]
  simp [hquote, hinside]

end Passing

section Parentheses

variable {text inner rest : List Char} {c : Char}

/-- A character that is no parenthesis changes nothing in the balance. -/
lemma parensBalanced_cons_of_ne (hopen : c ≠ '(') (hclose : c ≠ ')') (depth : Nat) :
    parensBalanced depth (c :: rest) = parensBalanced depth rest := by
  rw [parensBalanced]
  · exact hopen
  · exact fun _ => hclose
  · exact fun _ _ => hclose

/-- The count of parentheses goes past a text that closes no more than is open. -/
lemma parensBalanced_append {depth : Nat}
    (h : ∀ before, before <+: text → before.count ')' ≤ depth + before.count '(') :
    parensBalanced depth (text ++ rest) =
      parensBalanced (depth + text.count '(' - text.count ')') rest := by
  induction text generalizing depth with
  | nil => simp
  | cons c text ih =>
    have hstep : ∀ before, before <+: text →
        (c :: before).count ')' ≤ depth + (c :: before).count '(' :=
      fun before hbefore => h (c :: before) ((List.prefix_cons_inj c).2 hbefore)
    rw [List.cons_append]
    by_cases hopen : c = '('
    · subst hopen
      simp only [List.count_cons_self, List.count_cons_of_ne (by decide : '(' ≠ ')')] at hstep ⊢
      rw [parensBalanced, ih fun before hbefore => by have := hstep before hbefore; omega]
      congr 1
      omega
    by_cases hclose : c = ')'
    · subst hclose
      simp only [List.count_cons_self, List.count_cons_of_ne (by decide : ')' ≠ '(')] at hstep ⊢
      obtain ⟨outer, rfl⟩ : ∃ outer, depth = outer + 1 := by
        have := hstep [] List.nil_prefix
        exact ⟨depth - 1, by simp at this; omega⟩
      rw [parensBalanced, ih fun before hbefore => by have := hstep before hbefore; omega]
      congr 1
      omega
    · simp only [List.count_cons_of_ne hopen, List.count_cons_of_ne hclose] at hstep ⊢
      rw [parensBalanced_cons_of_ne hopen hclose, ih hstep]

/-- The parentheses of the text are balanced, so that they do not matter to what follows. -/
def ParensPass (text : List Char) : Prop :=
  ∀ depth rest, parensBalanced depth (text ++ rest) = parensBalanced depth rest

/-- Balanced texts one after the other are balanced. -/
lemma ParensPass.append {other : List Char} (htext : ParensPass text) (hother : ParensPass other) :
    ParensPass (text ++ other) := by
  intro depth rest
  rw [List.append_assoc, htext, hother]

/-- A text without parentheses is balanced. -/
lemma ParensPass.of_notMem (hopen : '(' ∉ text) (hclose : ')' ∉ text) : ParensPass text := by
  intro depth rest
  rw [parensBalanced_append, List.count_eq_zero.2 hopen, List.count_eq_zero.2 hclose]
  · rfl
  · intro before hbefore
    rw [List.count_eq_zero.2 fun hmem => hclose (hbefore.subset hmem)]
    exact Nat.zero_le _

/-- A balanced text in parentheses is balanced. -/
lemma ParensPass.group (h : ParensPass inner) : ParensPass ('(' :: inner ++ [')']) := by
  intro depth rest
  rw [List.append_assoc, List.cons_append, parensBalanced, h]
  rfl

/-- The inside of a text in parentheses. -/
lemma enclosed?_group (h : ParensPass inner) : enclosed? ('(' :: inner ++ [')']) = some inner := by
  have hbalanced : parensBalanced 0 inner = true := by
    have hinner := h 0 []
    rwa [List.append_nil] at hinner
  have hdrop : (dropStart? ['('] ('(' :: inner ++ [')'])).bind (dropEnd? [')']) = some inner :=
    dropEnd?_append inner [')']
  rw [enclosed?, hdrop]
  exact if_pos hbalanced

/-- What is enclosed stands between the parentheses. -/
lemma eq_of_enclosed? (h : enclosed? text = some inner) : text = '(' :: inner ++ [')'] := by
  unfold enclosed? at h
  split at h
  · next middle hmiddle =>
    obtain ⟨behind, hstart, hend⟩ := Option.bind_eq_some_iff.1 hmiddle
    obtain ⟨-, ⟨⟩⟩ := Option.ite_none_right_eq_some.1 h
    rw [dropStart?_eq_some_iff.1 hstart, dropEnd?_eq_some_iff.1 hend]
    rfl
  · cases h

/-- Parentheses that close before the text ends do not enclose it. -/
lemma enclosed?_group_append (h : ParensPass inner) (hrest : rest ≠ []) :
    enclosed? ('(' :: inner ++ ')' :: rest) = none := by
  have hstart : dropStart? ['('] ('(' :: inner ++ ')' :: rest) = some (inner ++ ')' :: rest) := rfl
  rw [enclosed?, hstart, Option.bind_some]
  cases hdrop : dropEnd? [')'] (inner ++ ')' :: rest) with
  | none => rfl
  | some outer =>
    have htext : inner ++ ')' :: rest = outer ++ [')'] := dropEnd?_eq_some_iff.1 hdrop
    obtain ⟨init, last, rfl⟩ := (List.eq_nil_or_concat' rest).resolve_left hrest
    have hinner : outer = inner ++ ')' :: init := by
      have hparts : (inner ++ ')' :: init) ++ [last] = outer ++ [')'] := by
        rw [← htext, List.append_assoc, List.cons_append]
      exact (List.append_inj_left' hparts rfl).symm
    -- The first closing parenthesis finds nothing open.
    have hbalanced : parensBalanced 0 outer = false := by
      rw [hinner, h, parensBalanced]
    exact if_neg (by simp [hbalanced])

/-- A text that starts with anything else is not in parentheses. -/
lemma enclosed?_of_head? (h : text.head? ≠ some '(') : enclosed? text = none := by
  have hstart : dropStart? ['('] text = none := by
    rw [Option.eq_none_iff_forall_ne_some]
    intro rest hrest
    rw [dropStart?_eq_some_iff.1 hrest] at h
    exact h rfl
  rw [enclosed?, hstart]
  rfl

end Parentheses

/-! ### Blanks around a text -/

section Blanks

variable {blanks : List Char}

/-- Blanks in front of an alternative do not matter. -/
lemma splitUnion_append_blanks (h : ∀ c ∈ blanks, isBlank c = true)
    (depth : Int) (quote : Option Char) (piece text : List Char) :
    splitUnion depth quote (piece ++ blanks) text = splitUnion depth quote piece text := by
  have htrim : ∀ piece after : List Char,
      trim ((piece ++ blanks).reverse ++ after) = trim (piece.reverse ++ after) := by
    intro piece after
    have hreverse : ∀ c ∈ blanks.reverse, isBlank c = true :=
      fun c hc => h c (List.mem_reverse.1 hc)
    rw [List.reverse_append, List.append_assoc, trim_blanks_append hreverse]
  induction text generalizing depth quote piece with
  | nil => simpa [splitUnion] using htrim piece []
  | cons c text ih =>
    have hcons : ∀ depth quote, splitUnion depth quote (c :: (piece ++ blanks)) text =
        splitUnion depth quote (c :: piece) text := fun depth quote => ih depth quote (c :: piece)
    have hend := htrim piece []
    rw [List.append_nil, List.append_nil] at hend
    cases quote with
    | some q => simp only [splitUnion, hcons]
    | none => simp only [splitUnion, hcons, htrim, hend]

/-- A blank is nothing to splitting. -/
lemma plain_of_isBlank {c : Char} (h : isBlank c = true) :
    isQuote c = false ∧ c ≠ '|' ∧ bracketStep c = 0 := by
  have hne : ∀ d : Char, isBlank d = false → c ≠ d := by
    rintro d hd rfl
    rw [h] at hd
    cases hd
  refine ⟨?_, hne '|' (by decide), ?_⟩
  · simp [isQuote, hne '\'' (by decide), hne '"' (by decide)]
  · simp [bracketStep, hne '(' (by decide), hne '<' (by decide), hne '[' (by decide),
      hne '\x7b' (by decide), hne ')' (by decide), hne '>' (by decide), hne ']' (by decide),
      hne '\x7d' (by decide)]

/-- Splitting goes past blanks. -/
lemma splitUnion_blanks_append (h : ∀ c ∈ blanks, isBlank c = true) (depth : Int)
    (piece rest : List Char) :
    splitUnion depth none piece (blanks ++ rest) =
      splitUnion depth none (blanks.reverse ++ piece) rest := by
  induction blanks generalizing piece with
  | nil => rfl
  | cons c blanks ih =>
    obtain ⟨hquote, hbar, hstep⟩ := plain_of_isBlank (h c List.mem_cons_self)
    rw [List.cons_append, splitUnion_cons hquote (fun hc => absurd hc hbar), hstep, Int.add_zero,
      ih fun c hc => h c (List.mem_cons_of_mem _ hc)]
    simp

/-- Blanks at the end of the last alternative do not matter. -/
lemma splitUnion_of_blank (h : ∀ c ∈ blanks, isBlank c = true) (depth : Int) (quote : Option Char)
    (piece : List Char) : splitUnion depth quote piece blanks = [.type (trim piece.reverse)] := by
  induction blanks generalizing depth quote piece with
  | nil => rfl
  | cons c blanks ih =>
    have hblanks : ∀ c ∈ blanks, isBlank c = true := fun c hc => h c (List.mem_cons_of_mem _ hc)
    have hpiece : trim (c :: piece).reverse = trim piece.reverse := by
      rw [List.reverse_cons, trim_append_blanks (by simpa using h c List.mem_cons_self)]
    cases quote with
    | some q => rw [splitUnion, ih hblanks, hpiece]
    | none =>
      obtain ⟨hquote, hbar, -⟩ := plain_of_isBlank (h c List.mem_cons_self)
      rw [splitUnion_cons hquote (fun hc => absurd hc hbar), ih hblanks, hpiece]

/-- Blanks behind a text do not matter. -/
lemma splitUnion_append_of_blank (h : ∀ c ∈ blanks, isBlank c = true)
    (depth : Int) (quote : Option Char) (piece text : List Char) :
    splitUnion depth quote piece (text ++ blanks) = splitUnion depth quote piece text := by
  induction text generalizing depth quote piece with
  | nil => rw [List.nil_append, splitUnion_of_blank h, splitUnion]
  | cons c text ih =>
    cases quote with
    | some q => rw [List.cons_append, splitUnion, splitUnion, ih]
    | none =>
      have hverbatim : trim (piece.reverse ++ c :: (text ++ blanks)) =
          trim (piece.reverse ++ c :: text) := by
        rw [← List.cons_append, ← List.append_assoc, trim_append_blanks h]
      have hcontains : isQuote c = true → (text ++ blanks).contains c = text.contains c := by
        intro hquote
        have hmem : c ∉ blanks := by
          intro hc
          rw [(plain_of_isBlank (h c hc)).1] at hquote
          cases hquote
        simp [hmem]
      rw [List.cons_append, splitUnion, splitUnion]
      split
      · next hquote => rw [hcontains hquote, hverbatim, ih]
      · simp only [ih]

/-- Blanks around a text do not change its alternatives. -/
lemma splitUnion_trim (text : List Char) :
    splitUnion 0 none [] (trim text) = splitUnion 0 none [] text := by
  obtain ⟨before, after, htext, hbefore, hafter⟩ := exists_blanks_trim text
  have hreverse : ∀ c ∈ before.reverse, isBlank c = true :=
    fun c hc => hbefore c (List.mem_reverse.1 hc)
  calc splitUnion 0 none [] (trim text)
      = splitUnion 0 none ([] ++ before.reverse) (trim text) :=
        (splitUnion_append_blanks hreverse ..).symm
    _ = splitUnion 0 none [] (before ++ trim text) := by
        rw [splitUnion_blanks_append hbefore, List.append_nil, List.nil_append]
    _ = splitUnion 0 none [] (before ++ trim text ++ after) :=
        (splitUnion_append_of_blank hafter ..).symm
    _ = splitUnion 0 none [] text := by rw [← htext]

end Blanks

/-! ### Every text -/

mutual

/-- Whether every union in the type has at least two alternatives. -/
def isProper : TypeExpr → Bool
  | .named _ _ => true
  | .constant _ _ _ => true
  | .union _ alternatives => decide (2 ≤ alternatives.length) && areProper alternatives

/-- Whether every union in the types has at least two alternatives. -/
def areProper : List TypeExpr → Bool
  | [] => true
  | type :: rest => type.isProper && areProper rest

end

/-- Types are proper if each of them is. -/
lemma areProper_eq_all (types : List TypeExpr) : areProper types = types.all isProper := by
  induction types with
  | nil => rfl
  | cons type rest ih => rw [areProper, ih, List.all_cons]

/-- A single type is proper. -/
lemma isProper_single (text : List Char) : (single text).isProper = true := by
  unfold single
  split <;> rfl

/-- A single type has its text. -/
lemma text_single (text : List Char) : (single text).text = String.ofList text := by
  unfold single
  split <;> rfl

/-- Every union that is read has at least two alternatives. -/
lemma isProper_parse (text : List Char) : (parse text).isProper = true := by
  induction text using parse.induct with
  | case1 text inner henclosed ih => rwa [parse_of_enclosed henclosed]
  | case2 text henclosed a b rest hsplit ih =>
    have hread : ∀ x ∈ a :: b :: rest, x.read.isProper = true := by
      intro x hx
      cases x with
      | type piece => exact ih piece hx
      | verbatim piece => rfl
    have hall : ((a :: b :: rest).map Alternative.read).all isProper = true := by
      rw [List.all_map]
      exact List.all_eq_true.2 hread
    rw [parse_of_union henclosed hsplit, isProper, areProper_eq_all, hall]
    simp
  | case3 text henclosed hsplit =>
    rw [parse_of_single henclosed hsplit, isProper_single]

/-- Reading the text of a type again gives the same type. -/
lemma parse_text_parse (text : List Char) : parse (parse text).text.toList = parse text := by
  induction text using parse.induct with
  | case1 text inner henclosed ih => rwa [parse_of_enclosed henclosed]
  | case2 text henclosed a b rest hsplit _ =>
    have htext : (parse text).text = String.ofList (trim text) := by
      rw [parse_of_union henclosed hsplit]
      rfl
    rw [htext, String.toList_ofList, parse_congr (trim_trim text)]
  | case3 text henclosed hsplit =>
    have htext : (parse text).text = String.ofList (trim text) := by
      rw [parse_of_single henclosed hsplit, text_single]
    rw [htext, String.toList_ofList, parse_congr (trim_trim text)]

/-- The text is `core` between blanks and in parentheses. -/
inductive Wraps (core : List Char) : List Char → Prop where
  | self : Wraps core core
  | blanks {before text after : List Char} :
    (∀ c ∈ before, isBlank c = true) →
    (∀ c ∈ after, isBlank c = true) →
    Wraps core text →
    Wraps core (before ++ text ++ after)
  | parens {text : List Char} :
    Wraps core text →
    Wraps core ('(' :: text ++ [')'])

/-- What wraps a text in a trimmed one wraps it in the text with its blanks. -/
lemma Wraps.of_trim {core text : List Char} (h : Wraps core (trim text)) : Wraps core text := by
  obtain ⟨before, after, htext, hbefore, hafter⟩ := exists_blanks_trim text
  rw [htext]
  exact .blanks hbefore hafter h

/-- Wrapping a text adds only blanks and parentheses. -/
lemma Wraps.count_eq {core text : List Char} (h : Wraps core text) {c : Char}
    (hc : isBlank c = false) (hopen : c ≠ '(') (hclose : c ≠ ')') :
    text.count c = core.count c := by
  induction h with
  | self => rfl
  | blanks hbefore hafter _ ih =>
    simp [count_eq_zero_of_blank hc hbefore, count_eq_zero_of_blank hc hafter, ih]
  | parens _ ih => simp [List.count_cons_of_ne hopen.symm, List.count_cons_of_ne hclose.symm, ih]

/-- Wrapping a text keeps the balance of its parentheses. -/
lemma Wraps.parens_eq {core text : List Char} (h : Wraps core text) :
    text.count '(' + core.count ')' = core.count '(' + text.count ')' := by
  induction h with
  | self => rfl
  | blanks hbefore hafter _ ih =>
    have hopen : isBlank '(' = false := by decide
    have hclose : isBlank ')' = false := by decide
    simp only [List.count_append, count_eq_zero_of_blank hopen hbefore,
      count_eq_zero_of_blank hopen hafter, count_eq_zero_of_blank hclose hbefore,
      count_eq_zero_of_blank hclose hafter]
    omega
  | parens _ ih =>
    simp only [List.count_append, List.count_cons_self,
      List.count_cons_of_ne (by decide : '(' ≠ ')'),
      List.count_cons_of_ne (by decide : ')' ≠ '('), List.count_nil]
    omega

/-- Reading takes blanks and parentheses off the text of a type, and nothing else. -/
lemma wraps_text_parse (text : List Char) : Wraps (parse text).text.toList text := by
  have htrimmed : ∀ {text : List Char}, (parse text).text = String.ofList (trim text) →
      Wraps (parse text).text.toList text := by
    intro text htext
    apply Wraps.of_trim
    rw [htext, String.toList_ofList]
    exact .self
  induction text using parse.induct with
  | case1 text inner henclosed ih =>
    apply Wraps.of_trim
    rw [parse_of_enclosed henclosed, eq_of_enclosed? henclosed]
    exact .parens ih
  | case2 text henclosed a b rest hsplit _ =>
    apply htrimmed
    rw [parse_of_union henclosed hsplit]
    rfl
  | case3 text henclosed hsplit =>
    apply htrimmed
    rw [parse_of_single henclosed hsplit, text_single]

/-- The text of a type has all characters of what was read, but for blanks and parentheses. -/
lemma count_text_parse {c : Char} (hc : isBlank c = false) (hopen : c ≠ '(') (hclose : c ≠ ')')
    (text : List Char) : (parse text).text.toList.count c = text.count c :=
  ((wraps_text_parse text).count_eq hc hopen hclose).symm

end ComponentApi.TypeExpr
