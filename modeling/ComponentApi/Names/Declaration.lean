import ComponentApi.Assoc

/-!
# Declarations

What a name in a script stands for, as far as the name of an event may depend on it, and how the
string behind a path of names such as `events.CHANGE` is found.
-/

namespace ComponentApi

/-- What a name was declared as. -/
inductive Declaration where
  /-- A string, written as a literal. -/
  | string (value : String)
  /-- An object with known properties. -/
  | object (properties : List (String × Declaration))
  /-- Another name, or a property of one. -/
  | alias (path : List String)
  /-- A name of the module at the path. -/
  | imported (path name : String)
  | function
  /-- Anything that cannot be seen through. -/
  | unknown
  deriving Repr, Inhabited

namespace Declaration

/-- The most aliases and properties that are followed to find a string. -/
def maxHops : Nat := 16

/-- The string that a declaration leads to along a path of properties: an object is entered by the
first property, an alias is looked up anew. One less than `steps` hops may be taken. -/
def resolve? (lookup : String → Option Declaration) :
    (steps : Nat) → Declaration → (path : List String) → Option String
  | 0, _, _ => none
  | _ + 1, .string value, [] => some value
  | steps + 1, .object properties, key :: path =>
    (Assoc.get? properties key).bind fun declaration => resolve? lookup steps declaration path
  | steps + 1, .alias (root :: target), path =>
    (lookup root).bind fun declaration => resolve? lookup steps declaration (target ++ path)
  | _ + 1, _, _ => none

/-- The string that a path leads to, if its first name is declared. -/
def resolvePath? (lookup : String → Option Declaration) : (path : List String) → Option String
  | [] => none
  | root :: path => (lookup root).bind fun declaration =>
    resolve? lookup (maxHops + 1) declaration path

end Declaration

end ComponentApi
