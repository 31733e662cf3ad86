import ComponentApi.Script.Parser.Types

/-!
# Patterns and function bodies

What declarations and parameters bind, and functions from their parameters on.
-/

namespace ComponentApi.Script.Parser

variable (g : Grammar)

/-- The name of a property or of a member of a class. -/
def propertyKey : Parser Key := do
  match ← token with
  | .word name _ | .string name _ | .number name | .bigInt name =>
    advance
    return .name name
  | .privateName _ =>
    advance
    return .privateName
  | .mark "[" =>
    advance
    let expression ← delimited g.assignment
    expectMark "]"
    return .computed expression
  | _ => stop

/-- A pattern with the default that follows it, if there is one. -/
def patternWithDefault : Parser Pattern := do
  let start ← position
  let pattern ← g.pattern
  if ← eatMark "=" then
    let default ← delimited g.assignment
    return .withDefault (← spanFrom start) pattern default
  else return pattern

/-- The rest of a pattern after its dots; only the closing mark may follow it. -/
def restPattern (close : String) : Parser Pattern := do
  expectMark "..."
  let argument ← g.pattern
  unless ← atMark close do stop
  return .rest argument

/-- An array pattern. -/
def arrayPattern : Parser Pattern := do
  let start ← position
  expectMark "["
  let elements ← many do
    if ← atMark "]" then return none
    if ← eatMark "," then return some .hole
    if ← atMark "..." then return some (← restPattern g "]")
    let element ← patternWithDefault g
    unless ← atMark "]" do expectMark ","
    return some element
  expectMark "]"
  return .array (← spanFrom start) elements

/-- A property of an object pattern that is a variable of the same name. -/
def shorthandPattern : Parser Pattern := do
  let start ← position
  let id ← bindingName
  if ← eatMark "=" then
    let default ← delimited g.assignment
    return .property (.name id.name) (.withDefault (← spanFrom start) (.ident id) default)
  else return .property (.name id.name) (.ident id)

/-- A property of an object pattern. -/
def propertyPattern : Parser Pattern := do
  if ← atMark "..." then
    let rest ← restPattern g "\x7d"
    match rest with
    | .rest (.ident _) => pure ()
    | _ => flaw
    return rest
  else if isNameToken (← token) && !(← nextIs fun c => c.token == .mark ":") then
    shorthandPattern g
  else
    let key ← propertyKey g
    require (!key.isPrivate)
    expectMark ":"
    return .property key (← patternWithDefault g)

/-- An object pattern. -/
def objectPattern : Parser Pattern := do
  let start ← position
  expectMark "\x7b"
  let properties ← commaList "\x7d" (propertyPattern g)
  expectMark "\x7d"
  return .object (← spanFrom start) properties

/-- A pattern, without a default. -/
def patternAt : Parser Pattern := do
  match ← token with
  | .mark "[" => arrayPattern g
  | .mark "\x7b" => objectPattern g
  | _ => return .ident (← bindingName)

/-- Whether a statement is a directive, which is not run. -/
def isDirective : Stmt → Bool
  | .expr _ (.string _ _) => true
  | _ => false

/-- Statements between braces. -/
def block : Parser (List Stmt) := do
  expectMark "\x7b"
  untilMark "\x7d" (g.statement false)

/-- What holds in the body of a function. -/
def functionMode (isAsync isGenerator : Bool) (mode : Mode) : Mode :=
  { mode with
    beforeColon := false, plainType := false
    allowAwait := isAsync, allowYield := isGenerator }

/-- The body of a function, without its directives. -/
def functionBody : Parser (List Stmt) := do
  let body ← under (fun mode => { mode with allowReturn := true }) (block g)
  return body.dropWhile isDirective

/-- Whether a function has a body. Only where types may be written it can lack one. -/
inductive BodyRule where
  | required
  | optional
  | barred
  deriving DecidableEq, Repr

/-- A function from its parameters on. -/
def functionRest (isAsync isGenerator : Bool) (rule : BodyRule) (id : Option Ident) :
    Parser Function :=
  under (fun mode => { functionMode isAsync isGenerator mode with allowIn := true }) do
    typeParameters g
    let params ← params g
    let _ ← returnAnnotation g
    if ← atMark "\x7b" then
      require (rule != .barred)
      return .mk id params (← functionBody g)
    if !(← isTyped) || rule == .required then stop
    endStatement
    return .mk id params []

end ComponentApi.Script.Parser
