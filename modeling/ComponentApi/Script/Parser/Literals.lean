import ComponentApi.Script.Parser.Classes

/-!
# Literals

Expressions with brackets of their own around them, functions, classes, templates and regular
expressions.
-/

namespace ComponentApi.Script.Parser

variable (g : Grammar)

/-- An expression, perhaps several with commas between them. -/
def expression : Parser Expr := do
  let start ← position
  let first ← g.assignment
  if ← atMark "," then
    let others ← many do
      if ← eatMark "," then return some (← g.assignment) else return none
    return .sequence (← spanFrom start) (first :: others)
  else return first

/-- An expression in parentheses. -/
def parenthesized : Parser Expr := do
  let start ← position
  expectMark "("
  let e ← enclosed (expression g)
  expectMark ")"
  return .paren (← spanFrom start) e

/-- Notes that an array or an object that starts at `start` ends with a comma after the spread
that was just read. -/
def noteDangling (start : Nat) (close : String) : Parser Unit := do
  if (← atMark ",") && (← nextIs fun c => c.token == .mark close) then
    modify fun cursor => { cursor with dangling := start :: cursor.dangling }

/-- An element of an array or an argument of a call that spreads a value. -/
def spread : Parser Expr := do
  let start ← position
  expectMark "..."
  let e ← g.assignment
  return .spread (← spanFrom start) e

/-- An array. -/
def arrayLiteral : Parser Expr := do
  let start ← position
  expectMark "["
  let elements ← delimited <| many do
    if ← atMark "]" then return none
    let place ← position
    if ← eatMark "," then return some (.hole ⟨place, place⟩)
    let element ← if ← atMark "..." then
        let element ← spread g
        noteDangling start "]"
        pure element
      else g.assignment
    unless ← atMark "]" do expectMark ","
    return some element
  expectMark "]"
  return .array (← spanFrom start) elements

/-- A property that is an accessor, from the word in front of its name on. -/
def accessorProperty (access : Access) : Parser Property := do
  advanceKeyword
  let key ← propertyKey g
  require (!key.isPrivate)
  let start ← position
  let definition ← functionRest g false false .required none
  checkAccess access definition
  return .method key (.functionExpr (← spanFrom start) definition)

/-- A property that is a method, from its parameters on. -/
def methodProperty (key : Key) (isAsync isGenerator : Bool) : Parser Property := do
  let start ← position
  let definition ← functionRest g isAsync isGenerator .required none
  return .method key (.functionExpr (← spanFrom start) definition)

/-- The value of a shorthand property: the variable, or the assignment of a default to it. -/
def shorthandValue (id : Ident) : Parser Expr := do
  if ← eatMark "=" then
    let default ← g.assignment
    modify fun cursor => { cursor with defaults := id.span.start :: cursor.defaults }
    return .assign (← spanFrom id.span.start) "=" (.ident id) default
  else return .ident id

/-- A property that is neither a spread nor an accessor. -/
def plainProperty : Parser Property := do
  let isAsync := (← atWord "async") &&
    (← nextIs fun c => !c.newline && (startsPropertyName c.token || c.token == .mark "*"))
  if isAsync then advanceKeyword
  let isGenerator ← eatMark "*"
  let cursor ← get
  let isReference := isReferenceToken (← read) cursor.token
  let key ← propertyKey g
  require (!key.isPrivate)
  if isAsync || isGenerator || (← atMark "(") || ((← isTyped) && (← atMark "<")) then
    methodProperty g key isAsync isGenerator
  else if isReference && !(← atMark ":") then
    let name := match key with
      | .name name => name
      | _ => ""
    return .field key true (← shorthandValue g ⟨name, ⟨cursor.start, cursor.stop⟩⟩)
  else
    expectMark ":"
    return .field key false (← g.assignment)

/-- A property of an object that starts at `start`. -/
def objectProperty (start : Nat) : Parser Property := do
  if ← eatMark "..." then
    let e ← g.assignment
    noteDangling start "\x7d"
    return .spread e
  else
    match ← access? with
    | some access => accessorProperty g access
    | none => plainProperty g

/-- An object. -/
def objectLiteral : Parser Expr := do
  let start ← position
  expectMark "\x7b"
  let properties ← delimited (commaList "\x7d" (objectProperty g start))
  expectMark "\x7d"
  return .object (← spanFrom start) properties

/-- A template. The escapes in its texts must be valid. -/
def templateLiteral : Parser Expr := do
  let start ← position
  let (texts, expressions) ← template (delimited (expression g))
  require (texts.all Option.isSome)
  return .template (← spanFrom start) (texts.map fun text => text.getD "") expressions

/-- A regular expression, whose slash the cursor is at. -/
def regExpLiteral : Parser Expr := do
  let cursor ← get
  let body : Input := match cursor.token with
    | .mark "/=" => ⟨'=' :: cursor.rest.chars, cursor.rest.position - 1⟩
    | _ => cursor.rest
  match regExp? body with
  | some (rest, valid) =>
    require valid
    replace (.mark "/") rest
    advance
    return .regExp (← spanFrom cursor.start)
  | none => stop

/-- A function expression that starts at `start`, from the word `function` on. -/
def functionExpression (start : Nat) (isAsync : Bool) : Parser Expr := do
  expectWord "function"
  let isGenerator ← eatMark "*"
  let id ← if isBindingToken (← token) then
      some <$> under (functionMode isAsync isGenerator) bindingName
    else pure none
  let definition ← functionRest g isAsync isGenerator .required id
  return .functionExpr (← spanFrom start) definition

/-- A class expression, with its decorators. -/
def classExpression : Parser Expr := do
  let start ← position
  let decorators ← decorators g
  let definition ← classRest g decorators
  return .classExpr (← spanFrom start) definition

/-- The arguments of a call. -/
def callArguments : Parser (List Expr) := do
  expectMark "("
  let arguments ← enclosed <| commaList ")" do
    if ← atMark "..." then spread g else g.assignment
  expectMark ")"
  return arguments

end ComponentApi.Script.Parser
