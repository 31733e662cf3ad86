import ComponentApi.Script.Parser.Cursor

/-!
# Modifiers

The words in front of a member of a class, a parameter or a property of a type that say more about
it. Each of them is also a name, so that only what follows a word shows whether it is a modifier.
Some must stand before others, and each stands once.
-/

namespace ComponentApi.Script

/-- A word that says more about what it stands in front of. -/
inductive Modifier where
  | «abstract»
  | accessor
  | async
  | const
  | declare
  | default
  | «export»
  | «in»
  | out
  | override
  | «private»
  | «protected»
  | «public»
  | readonly
  | static
  deriving DecidableEq, Repr

namespace Modifier

/-- The modifier that a word is. -/
def ofWord? (word : String) : Option Modifier :=
  [("abstract", .abstract), ("accessor", .accessor), ("async", .async), ("const", .const),
    ("declare", .declare), ("default", .default), ("export", .export), ("in", .in), ("out", .out),
    ("override", .override), ("private", .private), ("protected", .protected),
    ("public", .public), ("readonly", .readonly), ("static", .static)].lookup word

/-- The modifiers that tell from where a member may be used. -/
def accessibility : List Modifier :=
  [.public, .private, .protected]

/-- The modifiers that must not stand before the given one; one of them is itself. -/
def barredBefore : Modifier → List Modifier
  | .public | .private | .protected =>
    accessibility ++ [.override, .static, .accessor, .readonly, .async, .abstract]
  | .static => [.static, .readonly, .async, .accessor, .override]
  | .override => [.override, .readonly, .accessor, .async]
  | .abstract => [.abstract, .override, .accessor]
  | modifier => [modifier]

end Modifier

namespace Parser

/-- Whether a token can start the name of a property. -/
def startsPropertyName : Token → Bool
  | .word _ _ | .string _ _ | .number _ | .bigInt _ | .privateName _ => true
  | .mark mark => mark == "["
  | _ => false

/-- Whether a token can follow a modifier. -/
def followsModifier (token : Token) : Bool :=
  startsPropertyName token || [.mark "\x7b", .mark "*", .mark "..."].contains token

/-- Whether a modifier in front of the cursor is one indeed, given those before it. Only `static`
may stand at the end of a line; in front of a brace, and where it was seen before, it is none. -/
def isModifying (seen : List Modifier) (modifier : Modifier) (next : Cursor) : Bool :=
  followsModifier next.token &&
    if modifier == .static then !seen.contains .static && next.token != .mark "\x7b"
    else !next.newline

/-- Moves over a modifier, if the cursor is at one. -/
def modifier? (seen : List Modifier) : Parser (Option Modifier) := do
  let word := match ← token with
    | .word word _ => word
    | _ => ""
  match Modifier.ofWord? word with
  | none => return none
  | some modifier =>
    if ← nextIs (isModifying seen modifier) then
      advanceKeyword
      return some modifier
    else return none

/-- Moves over modifiers after those seen before; `bound` is larger than their number. -/
def modifiersAfter : (bound : Nat) → (seen : List Modifier) → Parser (List Modifier)
  | 0, _ => stop
  | bound + 1, seen => do
    match ← modifier? seen with
    | none => return seen
    | some modifier =>
      require (!seen.any modifier.barredBefore.contains)
      modifiersAfter bound (seen ++ [modifier])

/-- Moves over the modifiers at the cursor, each in a place that it may have. -/
def modifiers : Parser (List Modifier) := do
  modifiersAfter ((← read).size + 1) []

/-- Notes a flaw if a modifier is not one of those allowed. -/
def allowModifiers (allowed found : List Modifier) : Parser Unit :=
  require (found.all allowed.contains)

end Parser

end ComponentApi.Script
