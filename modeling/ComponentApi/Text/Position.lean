/-!
# Positions in a text

Positions count the bytes of the UTF-8 encoding. A span is a pair of positions, and the text it
covers exists when both of its ends fall between characters.
-/

namespace ComponentApi.Text

/-- The number of bytes of the encoded text. -/
def byteLength : List Char → Nat
  | [] => 0
  | c :: text => c.utf8Size + byteLength text

/-- The text from byte `position` on, if the position falls between characters. -/
def dropBytes? : (position : Nat) → (text : List Char) → Option (List Char)
  | 0, text => some text
  | _ + 1, [] => none
  | position + 1, c :: text =>
    if c.utf8Size ≤ position + 1 then dropBytes? (position + 1 - c.utf8Size) text else none
termination_by structural _ text => text

/-- The text before byte `position`, if the position falls between characters. -/
def takeBytes? : (position : Nat) → (text : List Char) → Option (List Char)
  | 0, _ => some []
  | _ + 1, [] => none
  | position + 1, c :: text =>
    if c.utf8Size ≤ position + 1 then
      (takeBytes? (position + 1 - c.utf8Size) text).map (c :: ·)
    else none
termination_by structural _ text => text

/-- The empty text has no bytes. -/
@[simp] theorem byteLength_nil : byteLength [] = 0 := rfl

/-- The first character adds the bytes of its encoding. -/
@[simp] theorem byteLength_cons (c : Char) (text : List Char) :
    byteLength (c :: text) = c.utf8Size + byteLength text := rfl

/-- The bytes of two texts one after the other add up. -/
@[simp] theorem byteLength_append (text more : List Char) :
    byteLength (text ++ more) = byteLength text + byteLength more := by
  induction text with
  | nil => simp
  | cons c text ih => simp [ih, Nat.add_assoc]

/-- Dropping as many bytes as a text has drops the text. -/
theorem dropBytes?_append (text more : List Char) :
    dropBytes? (byteLength text) (text ++ more) = some more := by
  induction text with
  | nil => cases more <;> rfl
  | cons c text ih =>
    obtain ⟨n, hn⟩ : ∃ n, c.utf8Size + byteLength text = n + 1 :=
      ⟨_, (Nat.succ_pred_eq_of_pos (Nat.add_pos_left c.utf8Size_pos _)).symm⟩
    have hle : c.utf8Size ≤ n + 1 := by omega
    have hrest : n + 1 - c.utf8Size = byteLength text := by omega
    rw [byteLength_cons, hn, List.cons_append, dropBytes?, if_pos hle, hrest, ih]

/-- Taking as many bytes as a text has takes the text. -/
theorem takeBytes?_append (text more : List Char) :
    takeBytes? (byteLength text) (text ++ more) = some text := by
  induction text with
  | nil => cases more <;> rfl
  | cons c text ih =>
    obtain ⟨n, hn⟩ : ∃ n, c.utf8Size + byteLength text = n + 1 :=
      ⟨_, (Nat.succ_pred_eq_of_pos (Nat.add_pos_left c.utf8Size_pos _)).symm⟩
    have hle : c.utf8Size ≤ n + 1 := by omega
    have hrest : n + 1 - c.utf8Size = byteLength text := by omega
    rw [byteLength_cons, hn, List.cons_append, takeBytes?, if_pos hle, hrest, ih, Option.map_some]

end ComponentApi.Text

namespace ComponentApi

/-- A half-open range of byte positions. -/
structure Span where
  start : Nat
  stop : Nat
  deriving DecidableEq, Repr, Inhabited

namespace Span

/-- The part of the text that the span covers, if it starts and stops between characters. -/
def slice? (span : Span) (text : List Char) : Option (List Char) :=
  if span.start ≤ span.stop then do
    let rest ← Text.dropBytes? span.start text
    Text.takeBytes? (span.stop - span.start) rest
  else none

/-- The span of a part of a text covers that part. -/
theorem slice?_append (before text after : List Char) :
    slice? ⟨Text.byteLength before, Text.byteLength before + Text.byteLength text⟩
      (before ++ (text ++ after)) = some text := by
  simp [slice?, Text.dropBytes?_append, Text.takeBytes?_append]

/-- The part of the text that the span covers; nothing if it cuts a character. -/
def slice (span : Span) (text : List Char) : List Char :=
  (span.slice? text).getD []

/-- The span moved right by `offset` bytes. -/
def shift (span : Span) (offset : Nat) : Span :=
  ⟨span.start + offset, span.stop + offset⟩

end Span

end ComponentApi
