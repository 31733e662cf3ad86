import ComponentApi.Proofs.Text.Lines
import ComponentApi.TypeExpr.Grammar

/-!
# Types in braces

How the end of a type in braces is found. Splitting goes past a text that may stand in braces in one
step (`Braceable.closeAnnotation?_append`): its quotes are matched and its braces are balanced
outside of them.

Whether a quotation mark opens a quote depends on all the text that follows, so that a loose one,
which has no partner in the braces, may find one behind them. `splitAnnotation?_append_cases` says
that nothing else makes a difference: what follows the braces moves their end exactly if it holds
the partner of a loose mark.
-/

namespace ComponentApi.TypeExpr

open Text

/-! ### Passing over a part of a text -/

/-- A split of a text, with more text in front. -/
def putFirst (start : List Char) (split : List Char × List Char) : List Char × List Char :=
  (start ++ split.1, split.2)

section Passing

variable {depth : Nat} {text rest : List Char} {c q : Char}

/-- Putting nothing first changes nothing. -/
lemma map_putFirst_nil (split : Option (List Char × List Char)) :
    split.map (putFirst []) = split :=
  Option.map_id_apply

/-- What is put first last stands in front. -/
lemma map_putFirst (start more : List Char) (split : Option (List Char × List Char)) :
    (split.map (putFirst more)).map (putFirst start) = split.map (putFirst (start ++ more)) := by
  cases split with
  | none => rfl
  | some split => simp [putFirst]

/-- A character that is no mark belongs to the type. -/
lemma closeAnnotation?_cons_of_plain (hquote : isQuote c = false) (hopen : c ≠ '\x7b')
    (hclose : c ≠ '\x7d') :
    closeAnnotation? depth none (c :: rest) =
      (closeAnnotation? depth none rest).map (putFirst [c]) := by
  rw [closeAnnotation?]
  simp only [hquote, beq_eq_false_iff_ne.2 hopen, beq_eq_false_iff_ne.2 hclose, Bool.false_eq_true,
    if_false]
  rfl

/-- A quote opens what is quoted, if its partner comes behind it. -/
lemma closeAnnotation?_cons_of_quote (hquote : isQuote c = true) :
    closeAnnotation? depth none (c :: rest) =
      (closeAnnotation? depth (if c ∈ rest then some c else none) rest).map (putFirst [c]) := by
  rw [closeAnnotation?]
  simp only [hquote, if_true, List.contains_iff_mem]
  rfl

/-- An opening brace leads one level further in. -/
lemma closeAnnotation?_open : closeAnnotation? depth none ('\x7b' :: rest) =
    (closeAnnotation? (depth + 1) none rest).map (putFirst ['\x7b']) := by
  rw [closeAnnotation?]
  rfl

/-- A closing brace leads one level back out. -/
lemma closeAnnotation?_close (h : 1 < depth) : closeAnnotation? depth none ('\x7d' :: rest) =
    (closeAnnotation? (depth - 1) none rest).map (putFirst ['\x7d']) := by
  rw [closeAnnotation?]
  simp only [isQuote, Char.reduceBEq, Bool.or_self, Bool.false_eq_true, if_false, if_true,
    if_neg (Nat.not_le.2 h)]
  rfl

/-- The closing brace of the outermost level ends the type. -/
lemma closeAnnotation?_last (h : depth ≤ 1) :
    closeAnnotation? depth none ('\x7d' :: rest) = some ([], rest) := by
  rw [closeAnnotation?]
  exact if_pos h

/-- Inside a quote the mark is all that counts. -/
lemma closeAnnotation?_inside (hmark : q ∉ text) :
    closeAnnotation? depth (some q) (text ++ rest) =
      (closeAnnotation? depth (some q) rest).map (putFirst text) := by
  induction text with
  | nil => rw [map_putFirst_nil, List.nil_append]
  | cons c text ih =>
    rw [List.mem_cons, not_or] at hmark
    have hc : (c == q) = false := beq_false_of_ne (Ne.symm hmark.1)
    rw [List.cons_append, closeAnnotation?]
    simp only [hc, Bool.false_eq_true, if_false]
    rw [ih hmark.2]
    exact map_putFirst [c] text _

/-- The partner of a quote ends what is quoted. -/
lemma closeAnnotation?_unquote : closeAnnotation? depth (some q) (q :: rest) =
    (closeAnnotation? depth none rest).map (putFirst [q]) := by
  rw [closeAnnotation?]
  simp only [beq_self_eq_true, if_true]
  rfl

/-- The end of the braces is not looked for in a quote. -/
lemma closeAnnotation?_quoted (hquote : isQuote q = true) (hmark : q ∉ text) :
    closeAnnotation? depth none (q :: text ++ q :: rest) =
      (closeAnnotation? depth none rest).map (putFirst (q :: text ++ [q])) := by
  have hmem : q ∈ text ++ q :: rest := by simp
  rw [List.cons_append, closeAnnotation?_cons_of_quote hquote, if_pos hmem,
    closeAnnotation?_inside hmark, closeAnnotation?_unquote, map_putFirst, map_putFirst]
  rfl

end Passing

/-- The text may stand in braces: its quotes are matched, and its braces are balanced outside of
them. -/
inductive Braceable : List Char → Prop where
  | nil : Braceable []
  | plain {c : Char} {text : List Char} :
    isQuote c = false →
    c ≠ '\x7b' →
    c ≠ '\x7d' →
    Braceable text →
    Braceable (c :: text)
  | quoted {q : Char} {inner text : List Char} :
    isQuote q = true →
    q ∉ inner →
    Braceable text →
    Braceable (q :: inner ++ q :: text)
  | braces {inner text : List Char} :
    Braceable inner →
    Braceable text →
    Braceable ('\x7b' :: inner ++ '\x7d' :: text)

/-- The end of the braces is not looked for in a text that may stand in them. -/
lemma Braceable.closeAnnotation?_append {text : List Char} (h : Braceable text) {depth : Nat}
    (hdepth : 1 ≤ depth) (rest : List Char) :
    closeAnnotation? depth none (text ++ rest) =
      (closeAnnotation? depth none rest).map (putFirst text) := by
  induction h generalizing depth rest with
  | nil => rw [map_putFirst_nil, List.nil_append]
  | plain hquote hopen hclose _ ih =>
    rw [List.cons_append, closeAnnotation?_cons_of_plain hquote hopen hclose, ih hdepth,
      map_putFirst]
    rfl
  | @quoted q inner text hquote hmark _ ih =>
    have hassoc : q :: inner ++ q :: text ++ rest = q :: inner ++ q :: (text ++ rest) := by simp
    rw [hassoc, closeAnnotation?_quoted hquote hmark, ih hdepth, map_putFirst]
    simp
  | braces _ _ ihinner ih =>
    rw [List.append_assoc, List.cons_append, List.cons_append, closeAnnotation?_open,
      ihinner (by omega), List.cons_append, closeAnnotation?_close (by omega), Nat.add_sub_cancel,
      ih hdepth, map_putFirst, map_putFirst, map_putFirst]
    simp

/-- A text that may stand in braces is found in them, whatever follows. -/
lemma Braceable.splitAnnotation?_eq {text : List Char} (h : Braceable text) (rest : List Char) :
    splitAnnotation? ('\x7b' :: text ++ '\x7d' :: rest) = some (trim text, rest) := by
  rw [List.cons_append, splitAnnotation?, h.closeAnnotation?_append (Nat.le_refl 1),
    closeAnnotation?_last (Nat.le_refl 1)]
  simp [putFirst]

/-- A type in braces is followed by the closing brace and what stands behind it. -/
lemma closeAnnotation?_eq_some {depth : Nat} {quote : Option Char} {text inner after : List Char}
    (h : closeAnnotation? depth quote text = some (inner, after)) :
    text = inner ++ '\x7d' :: after := by
  induction text generalizing depth quote inner with
  | nil => cases h
  | cons c text ih =>
    have hmore : ∀ {depth' quote'},
        (closeAnnotation? depth' quote' text).map (putFirst [c]) = some (inner, after) →
        c :: text = inner ++ '\x7d' :: after := by
      intro depth' quote' hsplit
      obtain ⟨⟨inner', after'⟩, hinner, hparts⟩ := Option.map_eq_some_iff.1 hsplit
      cases hparts
      rw [ih hinner]
      rfl
    cases quote with
    | some q => exact hmore h
    | none =>
      rw [closeAnnotation?] at h
      split_ifs at h with hquote hmem hopen hclose hlast
      · exact hmore h
      · exact hmore h
      · exact hmore h
      · cases h
        rw [eq_of_beq hclose]
        rfl
      · exact hmore h
      · exact hmore h

/-- A text in braces is split at the brace that closes the first one. -/
lemma splitAnnotation?_eq_some {braced inner after : List Char}
    (h : splitAnnotation? braced = some (inner, after)) :
    ∃ raw, braced = '\x7b' :: raw ++ '\x7d' :: after ∧
      closeAnnotation? 1 none (raw ++ '\x7d' :: after) = some (raw, after) ∧ inner = trim raw := by
  unfold splitAnnotation? at h
  split at h
  · next text =>
    obtain ⟨⟨raw, after⟩, hraw, hinner⟩ := Option.map_eq_some_iff.1 h
    cases hinner
    obtain rfl := closeAnnotation?_eq_some hraw
    exact ⟨raw, rfl, hraw, rfl⟩
  · cases h

/-! ### What follows the braces -/

/-- The quotation marks of the text that open no quote, as their partners do not follow; `quote` is
the mark of an open quote. -/
def looseQuotes (quote : Option Char) : List Char → List Char
  | [] => []
  | c :: rest =>
    match quote with
    | some q => looseQuotes (if c == q then none else quote) rest
    | none =>
      if isQuote c then
        if rest.contains c then looseQuotes (some c) rest else c :: looseQuotes none rest
      else looseQuotes none rest

/-- A character that is no quote leaves no quote open. -/
lemma looseQuotes_cons_of_plain {c : Char} {text : List Char} (hquote : isQuote c = false) :
    looseQuotes none (c :: text) = looseQuotes none text := by
  simp [looseQuotes, hquote]

/-- The quotes that are left open are quotes. -/
lemma isQuote_of_mem_looseQuotes {q : Char} {quote : Option Char} {text : List Char}
    (h : q ∈ looseQuotes quote text) : isQuote q = true := by
  fun_induction looseQuotes quote text with
  | case1 => cases h
  | case4 c rest hquote _ ih =>
    rcases List.mem_cons.1 h with rfl | h
    · exact hquote
    · exact ih h
  | case2 _ _ _ ih | case3 _ _ _ _ ih | case5 _ _ _ ih => exact ih h

/-- The quotes that are left open stand in the text. -/
lemma looseQuotes_subset (quote : Option Char) (text : List Char) :
    looseQuotes quote text ⊆ text := by
  fun_induction looseQuotes quote text with
  | case1 => exact List.nil_subset []
  | case4 c rest _ _ ih => exact List.cons_subset_cons c ih
  | case2 _ _ _ ih | case3 _ _ _ _ ih | case5 _ _ _ ih => exact List.subset_cons_of_subset _ ih

/-- How a text in braces and `rest` behind it are split, where the text alone is split at its end:
either no loose mark finds a partner in `rest`, which is left over then, or the whole text is taken
for the inside of the braces, if they end at all. -/
def Continues (depth : Nat) (quote : Option Char) (text inner rest : List Char) : Prop :=
  (∀ q ∈ looseQuotes quote text, q ∉ rest) ∧
      closeAnnotation? depth quote (text ++ rest) = some (inner, rest) ∨
    (∃ q ∈ looseQuotes quote text, q ∈ rest) ∧
      ∀ split, closeAnnotation? depth quote (text ++ rest) = some split → text <+: split.1

/-- A character that is passed over changes nothing, unless it is a loose mark with a partner. -/
lemma Continues.cons {depth depth' : Nat} {quote quote' : Option Char} {text inner rest : List Char}
    {c : Char} (h : Continues depth' quote' text inner rest)
    (hloose : ∀ q ∈ rest, q ∈ looseQuotes quote (c :: text) ↔ q ∈ looseQuotes quote' text)
    (hstep : closeAnnotation? depth quote (c :: (text ++ rest)) =
      (closeAnnotation? depth' quote' (text ++ rest)).map (putFirst [c])) :
    Continues depth quote (c :: text) (c :: inner) rest := by
  rcases h with ⟨hapart, hsplit⟩ | ⟨⟨q, hq, hpartner⟩, hpart⟩
  · left
    constructor
    · intro q hq hrest
      exact hapart q ((hloose q hrest).1 hq) hrest
    · rw [List.cons_append, hstep, hsplit]
      rfl
  · right
    constructor
    · exact ⟨q, (hloose q hpartner).2 hq, hpartner⟩
    · intro split hsplit
      rw [List.cons_append, hstep] at hsplit
      obtain ⟨split', hsplit', rfl⟩ := Option.map_eq_some_iff.1 hsplit
      exact (List.prefix_cons_inj c).2 (hpart split' hsplit')

/-- A loose mark with a partner opens a quote that takes in all of the text. -/
lemma Continues.of_loose {depth : Nat} {text rest : List Char} {c : Char}
    (hquote : isQuote c = true) (hmem : c ∉ text) (hrest : c ∈ rest) (inner : List Char) :
    Continues depth none (c :: text) inner rest := by
  have hpartner : c ∈ text ++ rest := List.mem_append_right text hrest
  right
  constructor
  · exact ⟨c, by simp [looseQuotes, hquote, hmem], hrest⟩
  · intro split hsplit
    rw [List.cons_append, closeAnnotation?_cons_of_quote hquote, if_pos hpartner,
      closeAnnotation?_inside hmem, map_putFirst] at hsplit
    obtain ⟨split', -, rfl⟩ := Option.map_eq_some_iff.1 hsplit
    exact List.prefix_append (c :: text) split'.1

/-- Behind a text that is split at its end, the end stays or the whole text is passed over. -/
lemma closeAnnotation?_continues {text : List Char} {depth : Nat} {quote : Option Char}
    {inner : List Char}
    (h : closeAnnotation? depth quote text = some (inner, [])) (rest : List Char) :
    Continues depth quote text inner rest := by
  induction text generalizing depth quote inner with
  | nil => cases h
  | cons c text ih =>
    -- a character that both runs pass over in the same way is left to the induction
    have hpass : ∀ {depth' quote'},
        closeAnnotation? depth quote (c :: text) =
          (closeAnnotation? depth' quote' text).map (putFirst [c]) →
        closeAnnotation? depth quote (c :: (text ++ rest)) =
          (closeAnnotation? depth' quote' (text ++ rest)).map (putFirst [c]) →
        (∀ q ∈ rest, q ∈ looseQuotes quote (c :: text) ↔ q ∈ looseQuotes quote' text) →
        Continues depth quote (c :: text) inner rest := by
      intro depth' quote' hsplit hstep hloose
      rw [hsplit] at h
      obtain ⟨⟨inner', after⟩, hinner, hparts⟩ := Option.map_eq_some_iff.1 h
      cases hparts
      exact (ih hinner).cons hloose hstep
    cases quote with
    | some q =>
      apply hpass rfl rfl
      intro _ _
      rw [looseQuotes]
    | none =>
      by_cases hquote : isQuote c = true
      · by_cases hmem : c ∈ text
        · have hmem' : c ∈ text ++ rest := List.mem_append_left rest hmem
          apply hpass
          · rw [closeAnnotation?_cons_of_quote hquote, if_pos hmem]
          · rw [closeAnnotation?_cons_of_quote hquote, if_pos hmem']
          · intro _ _
            simp [looseQuotes, hquote, hmem]
        -- the runs differ here only: `c` is loose in the text, and opens a quote if `rest` has its
        -- partner
        · by_cases hrest : c ∈ rest
          · exact .of_loose hquote hmem hrest inner
          · have hmem' : c ∉ text ++ rest := by simp [hmem, hrest]
            apply hpass
            · rw [closeAnnotation?_cons_of_quote hquote, if_neg hmem]
            · rw [closeAnnotation?_cons_of_quote hquote, if_neg hmem']
            · intro q hq
              have hne : q ≠ c := by
                rintro rfl
                exact hrest hq
              simp [looseQuotes, hquote, hmem, hne]
      · rw [Bool.not_eq_true] at hquote
        have hloose : looseQuotes none (c :: text) = looseQuotes none text :=
          looseQuotes_cons_of_plain hquote
        by_cases hopen : c = '\x7b'
        · subst hopen
          apply hpass closeAnnotation?_open closeAnnotation?_open
          intro _ _
          rw [hloose]
        by_cases hclose : c = '\x7d'
        · subst hclose
          by_cases hlast : depth ≤ 1
          · rw [closeAnnotation?_last hlast] at h
            cases h
            left
            exact ⟨nofun, closeAnnotation?_last hlast⟩
          · have hdepth : 1 < depth := Nat.not_le.1 hlast
            apply hpass (closeAnnotation?_close hdepth) (closeAnnotation?_close hdepth)
            intro _ _
            rw [hloose]
        · apply hpass (closeAnnotation?_cons_of_plain hquote hopen hclose)
            (closeAnnotation?_cons_of_plain hquote hopen hclose)
          intro _ _
          rw [hloose]

/-- No loose mark of the type finds its partner in the description. -/
def Apart (braced description : List Char) : Prop :=
  ∀ q ∈ looseQuotes none braced, q ∉ description

instance (braced description : List Char) : Decidable (Apart braced description) :=
  List.decidableBAll (· ∉ description) (looseQuotes none braced)

/-- A description is left over behind the braces, or it moves their end. -/
lemma splitAnnotation?_append_cases {braced inner : List Char}
    (h : splitAnnotation? braced = some (inner, [])) (description : List Char) :
    Apart braced description ∧
        splitAnnotation? (braced ++ description) = some (inner, description) ∨
      ¬ Apart braced description ∧
        ∀ split, splitAnnotation? (braced ++ description) = some split →
          inner.count '\x7d' < split.1.count '\x7d' := by
  obtain ⟨raw, rfl, hraw, rfl⟩ := splitAnnotation?_eq_some h
  rcases closeAnnotation?_continues hraw description with
    ⟨hapart, hsplit⟩ | ⟨⟨q, hq, hpartner⟩, hpart⟩
  · left
    refine ⟨hapart, ?_⟩
    rw [List.cons_append, List.cons_append, splitAnnotation?, hsplit]
    rfl
  · right
    refine ⟨fun hapart => hapart q hq hpartner, ?_⟩
    intro split hsplit
    rw [List.cons_append, List.cons_append, splitAnnotation?] at hsplit
    obtain ⟨split', hsplit', rfl⟩ := Option.map_eq_some_iff.1 hsplit
    have hcount := (hpart split' hsplit').sublist.count_le '\x7d'
    have hblank : isBlank '\x7d' = false := by decide
    rw [List.count_append, List.count_singleton_self] at hcount
    rw [count_trim hblank, count_trim hblank]
    exact hcount

end ComponentApi.TypeExpr
