import ComponentApi.Script.Parser.Modifiers

/-!
# Parameters

The parameters of functions and of the types of functions: patterns with decorators, modifiers,
types and defaults. The first may be `this`, which has only a type.
-/

namespace ComponentApi.Script.Parser

variable (g : Grammar)

/-! ### What surrounds a part -/

/-- Types are read without regard to what surrounds them. -/
def inner {α : Type} (parser : Parser α) : Parser α :=
  under (fun mode => { mode with plainType := false, allowIn := true }) parser

/-- Here `in` is an operator, whatever surrounds the place. -/
def withIn {α : Type} (parser : Parser α) : Parser α :=
  under (fun mode => { mode with allowIn := true }) parser

/-- What stands in a place with an end of its own is read without regard to what surrounds the
place, except that a decorator stays one. -/
def delimited {α : Type} (parser : Parser α) : Parser α :=
  under (fun mode => { mode with allowIn := true, beforeColon := false, plainType := false }) parser

/-- What stands between parentheses is read without regard to what surrounds them. -/
def enclosed {α : Type} (parser : Parser α) : Parser α :=
  under (fun mode => { mode with decorator := false }) (delimited parser)

/-! ### Parts of parameters -/

/-- A type after a colon, if there is one. -/
def typeAnnotation : Parser Unit := do
  if (← isTyped) && (← atMark ":") then
    advance
    inner g.type

/-- Decorators: operands after `@`. -/
def decorators : Parser (List Expr) :=
  many do
    if ← eatMark "@" then
      return some (← under (fun mode => { mode with decorator := true }) g.operand)
    return none

/-- The modifiers of a parameter that turn it into a property, where types may be written. -/
def paramModifiers : Parser Unit := do
  let allowed := if ← isTyped then Modifier.accessibility ++ [.readonly, .override] else []
  allowModifiers allowed (← modifiers)

/-! ### Lists of parameters -/

/-- A parameter that takes all further arguments, from its dots on; it is the last. -/
def restParam (decorators : List Expr) : Parser Param := do
  expectMark "..."
  let pattern ← g.pattern
  if ← isTyped <&&> eatMark "?" then flaw
  typeAnnotation g
  unless ← atMark ")" do stop
  return .rest decorators pattern

/-- A parameter of a function. -/
def param : Parser Param := do
  let decorators ← decorators g
  if ← atMark "..." then restParam g decorators
  else
    paramModifiers
    let pattern ← g.pattern
    if ← isTyped then let _ ← eatMark "?"
    typeAnnotation g
    let default ← if ← eatMark "=" then some <$> delimited g.assignment else pure none
    return .plain decorators pattern default

/-- Moves over the parameter `this`, if the cursor is at it. -/
def thisParam : Parser Unit := do
  if ← isTyped <&&> eatWord "this" then
    typeAnnotation g
    unless ← atMark ")" do expectMark ","

/-- Whether the parameters at the cursor start with `this`. -/
def takesThis : Parser Bool :=
  nextIs fun c => c.token == .word "this" false

/-- The parameters of a function, in parentheses. -/
def params : Parser (List Param) := do
  expectMark "("
  thisParam g
  let params ← commaList ")" (param g)
  expectMark ")"
  return params

end ComponentApi.Script.Parser
