import ComponentApi.Script.Parser.Literals

/-!
# Arrow functions

Whether parentheses hold the parameters of an arrow function often shows only at the arrow after
them. The first tokens settle many cases; in the others the head of a function is tried first, and
where it is none the cursor goes back.
-/

namespace ComponentApi.Script.Parser

variable (g : Grammar)

/-! ### Heads -/

/-- The head of an arrow function, up to its arrow. -/
structure ArrowHead where
  isAsync : Bool
  params : List Param
  /-- Whether the type of the result is given. -/
  annotated : Bool

/-- Moves over an arrow, which must stand on the line of what is before it. -/
def arrowMark : Parser Unit := do
  unless ← atMark "=>" do stop
  require (!(← afterNewline))
  advance

/-- The head of an arrow function with parentheses. -/
def arrowHead : Parser ArrowHead := do
  let isAsync ← eatWord "async"
  under (fun mode => { mode with allowAwait := mode.allowAwait || isAsync }) do
    typeParameters g
    require (!(← takesThis))
    let params ← params g
    let annotated ← returnAnnotation g
    arrowMark
    return { isAsync, params, annotated }

/-- The head of an arrow function with one parameter without parentheses. -/
def simpleArrowHead : Parser ArrowHead := do
  let isAsync := (← atWord "async") &&
    (← nextIs fun c => !c.newline && isBindingToken c.token)
  if isAsync then advanceKeyword
  let id ← under (fun mode => { mode with allowAwait := mode.allowAwait || isAsync }) bindingName
  arrowMark
  return { isAsync, params := [.plain [] (.ident id) none], annotated := false }

/-! ### Bodies -/

/-- The body of an arrow function: statements in braces, or an expression. -/
def arrowBody (isAsync : Bool) : Parser (List Stmt) := do
  if ← atMark "\x7b" then under (functionMode isAsync false) (functionBody g)
  else
    let e ← under (fun mode => { mode with allowAwait := isAsync, allowYield := false })
      g.assignment
    return [.expr e.span e]

/-- An arrow function from its body on. -/
def arrowRest (start : Nat) (head : ArrowHead) : Parser Expr := do
  let body ← arrowBody g head.isAsync
  return .arrow (← spanFrom start) (.mk none head.params body)

/-! ### Telling them from other expressions -/

/-- Whether parentheses hold the parameters of an arrow function, as far as their first tokens
tell. -/
inductive ArrowGuess where
  | no
  | maybe
  | yes
  deriving DecidableEq, Repr

/-- What follows the first name in parentheses tells whether it is a parameter. -/
def guessAfterName : Parser ArrowGuess := do
  match ← token with
  | .mark ":" => return .yes
  | .mark "?" =>
    advance
    return if ← atMarks [":", ",", "=", ")"] then .yes else .no
  | .mark mark => return if [",", "=", ")"].contains mark then .maybe else .no
  | _ => return .no

/-- Whether the word at the cursor is a modifier of the name that follows it, and not a value whose
type `as` gives. -/
def modifiesName (word : String) : Parser Bool := do
  let isModifier := (Modifier.ofWord? word).isSome && word != "async"
  return isModifier && (← nextIs fun c => isBindingToken c.token && c.token != .word "as" false)

/-- What the parentheses at the cursor hold, as far as their first tokens tell. -/
def guessParams : Parser ArrowGuess := do
  expectMark "("
  match ← token with
  | .mark ")" =>
    advance
    return if ← atMarks [":", "=>", "\x7b"] then .yes else .no
  | .mark mark => return if ["[", "\x7b", "..."].contains mark then .maybe else .no
  | .word word _ =>
    if ← modifiesName word then return .yes
    advance
    if isName word || word == "this" then guessAfterName else return .no
  | _ => return .no

/-- Whether the head of an arrow function with parentheses is at the cursor. -/
def guessArrow : Parser ArrowGuess := do
  let guess ← peek? do
    if ← eatWord "async" then
      if ← afterNewline then return .no
    if ← isTyped <&&> eatMark "<" then
      return if isBindingToken (← token) || (← atWord "const") then .maybe else .no
    guessParams
  return guess.getD .no

/-- Whether an arrow function without parentheses may start at the cursor. -/
def mayStartSimpleArrow : Parser Bool := do
  if !isReferenceToken (← read) (← token) then return false
  if ← nextIs fun c => c.token == .mark "=>" then return true
  if !(← atWord "async") then return false
  nextIs fun c => !c.newline && isBindingToken c.token

/-- An arrow function without parentheses, if there is one at the cursor. -/
def simpleArrow? : Parser (Option Expr) := do
  if !(← mayStartSimpleArrow) then return none
  let start ← position
  match ← attempt simpleArrowHead with
  | some head => some <$> arrowRest g start head
  | none => return none

/-- An arrow function with parentheses, if there is one at the cursor. In the middle of a
conditional, a head with the type of its result counts only if a colon follows the function. -/
def possibleArrow? : Parser (Option Expr) := do
  let cursor ← get
  match ← attempt (arrowHead g) with
  | none => return none
  | some head =>
    if (← read).beforeColon && head.annotated then
      let e ← attempt do
        let e ← arrowRest g cursor.start head
        unless ← atMark ":" do stop
        return e
      if e.isNone then set cursor
      return e
    else some <$> arrowRest g cursor.start head

/-- An arrow function, if there is one at the cursor. -/
def arrowFunction? : Parser (Option Expr) := do
  match ← guessArrow with
  | .no => simpleArrow? g
  | .maybe => possibleArrow? g
  | .yes =>
    let start ← position
    let head ← arrowHead g
    some <$> under (fun mode => { mode with beforeColon := false }) (arrowRest g start head)

end ComponentApi.Script.Parser
