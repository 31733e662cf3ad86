import ComponentApi.Text.Length
import ComponentApi.TypeExpr.Basic

/-!
# The grammar of type expressions

`TypeExpr.parse` reads the text of a type: it takes off parentheses around the whole text, splits
at the bars that stand outside quotes and brackets, and reads what is left as a constant or a
name. `splitAnnotation?` finds the type in front of a longer text, between braces.

Reading ends because every piece is shorter than the text it was cut from (`length_pieces_lt`).
-/

namespace ComponentApi.TypeExpr

open Text

/-- Whether the character is a quotation mark of a type. -/
def isQuote (c : Char) : Bool :=
  c == '\'' || c == '"'

/-- Whether the parentheses in the text close only what the text opens, and all of it; `depth`
are open before it. -/
def parensBalanced : (depth : Nat) → List Char → Bool
  | depth, [] => depth == 0
  | depth, '(' :: rest => parensBalanced (depth + 1) rest
  | 0, ')' :: _ => false
  | depth + 1, ')' :: rest => parensBalanced depth rest
  | depth, _ :: rest => parensBalanced depth rest

/-- The inside of a text that one pair of parentheses encloses as a whole. -/
def enclosed? (text : List Char) : Option (List Char) :=
  match (dropStart? ['('] text).bind (dropEnd? [')']) with
  | some inner => if parensBalanced 0 inner then some inner else none
  | none => none

/-- An alternative of a union before it is read. -/
inductive Alternative where
  /-- A text that is itself a type. -/
  | type (text : List Char)
  /-- The rest of a text with an unmatched quote, kept as it is. -/
  | verbatim (text : List Char)

/-- The text of an alternative. -/
def Alternative.chars : Alternative → List Char
  | .type text => text
  | .verbatim text => text

/-- The alternatives of a text. `depth` brackets are open, `quote` is the mark of an open quote,
and `piece` holds, in reverse, what has been read of the current alternative. A quote without its
partner ends the splitting: the rest of the text is one alternative. -/
def splitUnion (depth : Int) (quote : Option Char) (piece : List Char) :
    List Char → List Alternative
  | [] => [.type (trim piece.reverse)]
  | c :: rest =>
    match quote with
    | some q => splitUnion depth (if c == q then none else quote) (c :: piece) rest
    | none =>
      if isQuote c then
        if rest.contains c then splitUnion depth (some c) (c :: piece) rest
        else [.verbatim (trim (piece.reverse ++ c :: rest))]
      else if c == '|' && depth == 0 then
        .type (trim piece.reverse) :: splitUnion 0 none [] rest
      else if c == '(' || c == '<' || c == '[' || c == '\x7b' then
        splitUnion (depth + 1) none (c :: piece) rest
      else if c == ')' || c == '>' || c == ']' || c == '\x7d' then
        splitUnion (depth - 1) none (c :: piece) rest
      else splitUnion depth none (c :: piece) rest

/-- The type of a text that is no union: a single-quoted constant, or a name. -/
def single (text : List Char) : TypeExpr :=
  match (dropStart? ['\''] text).bind (dropEnd? ['\'']) with
  | some value => .constant (String.ofList text) (String.ofList value)
  | none =>
    let name := String.ofList text
    .named name (if name == "*" || name == "" then "any" else name)

/-! ### Every piece is shorter than the text -/

/-- What stands in the brackets is shorter than the text with them. -/
theorem length_enclosed?_lt {text inner : List Char} (h : enclosed? text = some inner) :
    inner.length < text.length := by
  unfold enclosed? at h
  split at h
  · next i hi =>
    obtain ⟨r, hr, he⟩ := Option.bind_eq_some_iff.1 hi
    have h1 := length_dropStart? hr
    have h2 := length_dropEnd? he
    split at h
    · simp_all; omega
    · simp at h
  · simp at h

/-- A character moved from the text to the piece leaves the bound as it is. -/
theorem bound_cons {chars count piece text : Nat} (h : chars + count ≤ piece + 1 + text + 1) :
    chars + count ≤ piece + (text + 1) + 1 := by
  omega

/-- With every further alternative, each alternative leaves one more character of the text out. -/
theorem length_splitUnion (depth : Int) (quote : Option Char) (piece text : List Char) :
    ∀ a ∈ splitUnion depth quote piece text,
      a.chars.length + (splitUnion depth quote piece text).length ≤
        piece.length + text.length + 1 := by
  fun_induction splitUnion depth quote piece text with
  | case1 depth quote piece =>
    intro a ha
    obtain rfl := List.mem_singleton.1 ha
    have := length_trim_le piece.reverse
    simp only [Alternative.chars, List.length_reverse, List.length_cons, List.length_nil] at *
    omega
  | case4 depth piece c rest _ _ =>
    intro a ha
    obtain rfl := List.mem_singleton.1 ha
    have := length_trim_le (piece.reverse ++ c :: rest)
    simp only [Alternative.chars, List.length_append, List.length_reverse, List.length_cons,
      List.length_nil] at *
    omega
  | case5 depth piece c rest _ _ ih =>
    intro a ha
    have hp := length_trim_le piece.reverse
    simp only [List.length_reverse] at hp
    rcases List.mem_cons.1 ha with rfl | ha
    · cases hs : splitUnion 0 none [] rest with
      | nil => simp only [Alternative.chars, List.length_cons, List.length_nil]; omega
      | cons b bs =>
        have := ih b (by simp [hs])
        rw [hs] at this
        simp only [Alternative.chars, List.length_cons, List.length_nil] at *
        omega
    · have := ih a ha
      simp only [List.length_cons, List.length_nil] at *
      omega
  | case2 _ _ _ _ _ ih => exact fun a ha => bound_cons (ih a ha)
  | case3 _ _ _ _ _ _ ih => exact fun a ha => bound_cons (ih a ha)
  | case6 _ _ _ _ _ _ _ ih => exact fun a ha => bound_cons (ih a ha)
  | case7 _ _ _ _ _ _ _ _ ih => exact fun a ha => bound_cons (ih a ha)
  | case8 _ _ _ _ _ _ _ _ ih => exact fun a ha => bound_cons (ih a ha)

/-- The alternatives of a text that has at least two are shorter than the text. -/
theorem length_pieces_lt {text : List Char} {a b : Alternative} {rest : List Alternative}
    (h : splitUnion 0 none [] text = a :: b :: rest) :
    ∀ x ∈ a :: b :: rest, x.chars.length < text.length := by
  intro x hx
  have := length_splitUnion 0 none [] text x (h ▸ hx)
  rw [h] at this
  simp at this
  omega

set_option linter.unusedVariables false in
/-- Reads a type. -/
def parse (text : List Char) : TypeExpr :=
  match he : enclosed? (trim text) with
  | some inner => parse inner
  | none =>
    match hs : splitUnion 0 none [] (trim text) with
    | a :: b :: rest =>
      .union (String.ofList (trim text)) <| (a :: b :: rest).attach.map fun ⟨x, hx⟩ =>
        match x with
        | .type piece => parse piece
        | .verbatim piece => .ofName (String.ofList piece)
    | _ => single (trim text)
termination_by text.length
decreasing_by
  · have := length_enclosed?_lt he
    have := length_trim_le text
    omega
  · have h : piece.length < (trim text).length := length_pieces_lt hs _ hx
    have := length_trim_le text
    omega

/-- The inside and the rest of a text after its opening brace: `depth` braces are open and
`quote` is the mark of an open quote. A quote opens only where its partner follows. -/
def closeAnnotation? (depth : Nat) (quote : Option Char) :
    List Char → Option (List Char × List Char)
  | [] => none
  | c :: rest =>
    let more (depth : Nat) (quote : Option Char) :=
      (closeAnnotation? depth quote rest).map fun (inner, after) => (c :: inner, after)
    match quote with
    | some q => more depth (if c == q then none else quote)
    | none =>
      if isQuote c then more depth (if rest.contains c then some c else none)
      else if c == '\x7b' then more (depth + 1) none
      else if c == '\x7d' then
        if depth ≤ 1 then some ([], rest) else more (depth - 1) none
      else more depth none

/-- Splits a text that starts with a type in braces into the inside of the braces, trimmed, and
what follows them. -/
def splitAnnotation? : List Char → Option (List Char × List Char)
  | '\x7b' :: rest => (closeAnnotation? 1 none rest).map fun (inner, after) => (trim inner, after)
  | _ => none

/-- The type in braces at the start of a text. -/
def parseAnnotation? (text : List Char) : Option TypeExpr :=
  (splitAnnotation? (trim text)).map fun (inner, _) => parse inner

end ComponentApi.TypeExpr
