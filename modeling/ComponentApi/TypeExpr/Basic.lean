/-!
# Type expressions

The types that documentation comments give to symbols: names, quoted constants, and unions of
those. Every node keeps the text that it was read from.
-/

namespace ComponentApi

/-- A type as a comment writes it. -/
inductive TypeExpr where
  /-- A name, such as `string` or `Array<number>`. -/
  | named (text name : String)
  /-- A quoted constant, such as `'primary'`, with the name of its type. Only constants of strings
  can be written. -/
  | constant (text value : String) (name : String := "string")
  /-- Alternatives between bars. -/
  | union (text : String) (alternatives : List TypeExpr)
  deriving Repr, Inhabited

namespace TypeExpr

/-- The type of a bare name. -/
def ofName (name : String) : TypeExpr :=
  .named name name

/-- The type that says nothing. -/
def any : TypeExpr :=
  .ofName "any"

/-- The text that the type was read from. -/
def text : TypeExpr → String
  | .named text _ => text
  | .constant text _ _ => text
  | .union text _ => text

/-- Whether the type says nothing. -/
def isAny : TypeExpr → Bool
  | .named _ name => name == "any"
  | _ => false

end TypeExpr

end ComponentApi
