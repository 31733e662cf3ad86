import ComponentApi.Text.Blank
import ComponentApi.Text.Position

/-!
# Comments in front of code

The comment that belongs to a place in a script: the block comment that ends right before it, or
the run of line comments on the lines right above it. Blanks in between do not matter.
-/

namespace ComponentApi.Script

open Text

/-- The part of a reversed text, which starts with the reversed end mark of a block comment, up to
and with the first start mark met on the way back; nothing if there is none. -/
def backToBlockStart? : (reversed : List Char) → Option (List Char)
  | '*' :: '/' :: _ => some ['*', '/']
  | c :: rest => (backToBlockStart? rest).map (c :: ·)
  | [] => none

/-- The lines of line comments at the start of a list of lines. -/
def lineComments (lines : List (List Char)) : List (List Char) :=
  lines.takeWhile fun line => (dropStart? ['/', '/'] (trimStart line)).isSome

/-- The comment in front of a text that ends right before code. -/
def lastComment? (before : List Char) : Option (List Char) :=
  let before := trimEnd before
  if (dropEnd? ['*', '/'] before).isSome then
    (backToBlockStart? before.reverse).map List.reverse
  else
    match lineComments (pieces '\n' before).reverse with
    | [] => none
    | lines => some (trim (['\n'].intercalate lines.reverse))

/-- The comment in front of a position, if the position falls between characters. -/
def leadingComment? (source : List Char) (position : Nat) : Option (List Char) :=
  (takeBytes? position source).bind lastComment?

end ComponentApi.Script
