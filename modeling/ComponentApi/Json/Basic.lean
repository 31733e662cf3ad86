/-!
# JSON values

A value keeps what reading must not lose: numbers stay as they are written, and the fields of an
object stay in their order, repeated ones included.
-/

namespace ComponentApi

/-- A JSON value. -/
inductive Json where
  | null
  | bool (value : Bool)
  /-- A number, by its digits, sign, fraction and exponent as written. -/
  | number (lexeme : String)
  | string (text : String)
  /-- A string literal with half of a surrogate pair in it, which stands for no text. -/
  | unpaired
  | array (items : List Json)
  | object (fields : List (String × Json))
  deriving Repr, Inhabited

namespace Json

/-- The number of a natural number. -/
def ofNat (n : Nat) : Json :=
  .number (toString n)

/-- The text, or null. -/
def ofText? : Option String → Json
  | some text => .string text
  | none => .null

/-- The array of the values that `f` makes of the items. -/
def ofList {α : Type} (f : α → Json) (items : List α) : Json :=
  .array (items.map f)

/-- A field that is there only if there is a value for it. -/
def field? {α : Type} (name : String) (f : α → Json) : Option α → List (String × Json)
  | some value => [(name, f value)]
  | none => []

/-- The fields of an object; no other value has any. -/
def fields : Json → List (String × Json)
  | .object fields => fields
  | _ => []

/-- The first field of a name. -/
def get? (value : Json) (name : String) : Option Json :=
  value.fields.lookup name

/-- The text of a string. -/
def text? : Json → Option String
  | .string text => some text
  | _ => none

/-- The items of an array. -/
def items? : Json → Option (List Json)
  | .array items => some items
  | _ => none

/-- The value of a truth value. -/
def bool? : Json → Option Bool
  | .bool value => some value
  | _ => none

/-- The value of a number that is written with digits only. -/
def nat? : Json → Option Nat
  | .number lexeme => if lexeme.all Char.isDigit then lexeme.toNat? else none
  | _ => none

end Json

end ComponentApi
