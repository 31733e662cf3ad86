import ComponentApi.Json.Basic

/-!
# Records in JSON

A record with named fields is written as an object, or as an array that gives the fields in their
order. Fields of other names are passed over; a field given twice is an error.
-/

namespace ComponentApi.Json

/-- The value of a field that may be given once; nothing if it is given twice. -/
def once? (fields : List (String × Json)) (name : String) : Option (Option Json) :=
  match fields.filter (·.1 == name) with
  | [] => some none
  | [(_, value)] => some (some value)
  | _ => none

/-- The values of the fields of a record, in the order of their names. -/
def record? (names : List String) : Json → Option (List (Option Json))
  | .object fields => names.mapM (once? fields)
  | .array items =>
    if items.length ≤ names.length then
      some (items.map some ++ List.replicate (names.length - items.length) none)
    else none
  | _ => none

/-- The value of a field that has a default. -/
def withDefault? {α : Type} (default : α) (read? : Json → Option α) : Option Json → Option α
  | none => some default
  | some value => read? value

/-- A list of values of one type. -/
def list? {α : Type} (read? : Json → Option α) : Json → Option (List α)
  | .array items => items.mapM read?
  | _ => none

/-- A value that may be null. -/
def orNull? {α : Type} (read? : Json → Option α) : Json → Option (Option α)
  | .null => some none
  | value => (read? value).map some

/-- A number of at most 32 bits. -/
def word? (value : Json) : Option Nat :=
  value.nat?.filter (· < 4294967296)

end ComponentApi.Json
