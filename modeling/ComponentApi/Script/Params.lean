import ComponentApi.Script.Excerpt
import ComponentApi.Script.Scope

/-!
# Parameters of methods

The parameters that a function declares, completed by what its comment says of them.
-/

namespace ComponentApi

/-- A parameter with what a comment says of it. A declared default is kept. -/
def MethodParam.annotate (param : MethodParam) (note : Comment.ParamNote) : MethodParam :=
  { param with
    type := note.type?.getD param.type
    optional := param.optional || note.optional
    repeated := param.repeated || note.repeated
    default? := param.default? <|> note.default?
    description := note.description }

/-- A parameter that only a comment knows. -/
def MethodParam.ofNote (note : Comment.ParamNote) : MethodParam :=
  { name := note.name, type := note.type?.getD .any, optional := note.optional
    default? := note.default?, description := note.description, repeated := note.repeated }

/-- The parameters with what one note says: it completes the first parameter of its name, or
stands at the end if there is none. A note without a name says nothing. -/
def annotateParams (params : List MethodParam) (note : Comment.ParamNote) : List MethodParam :=
  if note.name.isEmpty then params
  else
    match params.findIdx? (·.name == note.name) with
    | some i => params.modify i (·.annotate note)
    | none => params ++ [.ofNote note]

namespace Script

/-- What the pattern of a parameter declares. The name is the one that it binds, or the text of the
pattern. A default makes the parameter optional. -/
def Pattern.declared (text : List Char) : Pattern → MethodParam
  | .ident id => { name := id.name }
  | .withDefault _ target default =>
    { target.declared text with
      optional := true
      default? := some (String.ofList (default.span.slice text)) }
  | .object span _ | .array span _ => { name := String.ofList (span.slice text) }
  | .property _ _ | .hole | .rest _ => { name := "" }

/-- A declared parameter. A default beside the pattern is not looked at. -/
def Param.declared (text : List Char) : Param → MethodParam
  | .plain _ pattern _ => pattern.declared text
  | .rest _ pattern => { pattern.declared text with repeated := true }

/-- The parameters of a method: the declared ones, then those that only its comment knows. -/
def Function.methodParams (excerpt : Excerpt) (doc : DocComment) : Function → List MethodParam
  | .mk _ params _ =>
    ((doc.keywordsNamed "param").map fun keyword =>
      Comment.parseParam keyword.description.toList).foldl annotateParams
      (params.map (·.declared excerpt.text))

end Script

end ComponentApi
