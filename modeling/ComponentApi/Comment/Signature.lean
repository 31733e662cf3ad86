import ComponentApi.Comment.Basic
import ComponentApi.TypeExpr.Grammar

/-!
# Keywords about parameters and results

The texts of the keywords `@param` and `@returns`: a type in braces, the name of a parameter, in
brackets if it may be left out, and a description after a hyphen. Every part may be missing.
-/

namespace ComponentApi.Comment

open Text

/-- What a keyword `@param` says. -/
structure ParamNote where
  /-- Empty if the keyword names no parameter. -/
  name : String
  type? : Option TypeExpr
  optional : Bool
  default? : Option String
  description : String
  repeated : Bool
  deriving Repr, Inhabited

/-- What a keyword `@returns` says. -/
structure ReturnNote where
  type : TypeExpr
  description : String
  deriving Repr, Inhabited

/-- The dots that mark a repeated parameter. -/
def dots : List Char :=
  ['.', '.', '.']

/-- A description without the hyphen in front of it. -/
def stripHyphen (text : List Char) : List Char :=
  trim (dropStart ['-'] (trim text))

/-- The type part of a keyword `@param`: the type, whether it carries dots, and the rest. -/
def paramType (text : List Char) : Option TypeExpr × Bool × List Char :=
  match TypeExpr.splitAnnotation? text with
  | some (inner, after) =>
    match dropStart? dots inner with
    | some inner => (some (TypeExpr.parse inner), true, trimStart after)
    | none => (some (TypeExpr.parse inner), false, trimStart after)
  | none => (none, false, text)

/-- The name part of a keyword `@param`. -/
structure ParamName where
  name : List Char := []
  optional : Bool := false
  default? : Option (List Char) := none
  rest : List Char

/-- Reads the name part: a name, or a name and a default in brackets. Brackets that do not close
and a hyphen leave the name empty. -/
def paramName : List Char → ParamName
  | '[' :: bracketed =>
    match splitOnce? ']' bracketed with
    | some (inner, after) =>
      match splitOnce? '=' inner with
      | some (name, default) => ⟨trim name, true, some (trim default), trimStart after⟩
      | none => ⟨trim inner, true, none, trimStart after⟩
    | none => { rest := '[' :: bracketed }
  | '-' :: text => { rest := '-' :: text }
  | text =>
    let (name, after) := cutAt isBlank text
    ⟨name, false, none, trimStart after⟩

/-- Reads the text of a keyword `@param`. Dots on the type or on the name mark a parameter that
may be repeated. -/
def parseParam (text : List Char) : ParamNote :=
  let (type?, typeDots, rest) := paramType (trim text)
  let part := paramName rest
  let bare := dropStart? dots part.name
  { name := String.ofList (bare.getD part.name)
    type? := type?
    optional := part.optional
    default? := part.default?.map String.ofList
    description := String.ofList (stripHyphen part.rest)
    repeated := typeDots || bare.isSome }

/-- Reads the text of a keyword `@returns`. -/
def parseReturn (text : List Char) : ReturnNote :=
  let text := trim text
  match TypeExpr.splitAnnotation? text with
  | some (inner, after) => ⟨TypeExpr.parse inner, String.ofList (stripHyphen after)⟩
  | none => ⟨TypeExpr.any, String.ofList (stripHyphen text)⟩

end ComponentApi.Comment
