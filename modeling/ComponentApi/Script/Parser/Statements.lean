import ComponentApi.Script.Parser.Expressions
import ComponentApi.Script.Parser.Modules

/-!
# Statements

The word at the start of a statement tells its kind; a statement that starts otherwise is an
expression, perhaps the label of another statement. A statement that stands alone in the place of a
body must not declare what only a block can hold.
-/

namespace ComponentApi.Script.Parser

variable (g : Grammar)

/-! ### Parts of statements -/

/-- An expression in parentheses that belong to the statement. -/
def condition : Parser Expr := do
  expectMark "("
  let e ← expression g
  expectMark ")"
  return e

/-- A statement in the place of a body. -/
def body : Parser Stmt :=
  g.statement true

/-- The end of a statement that may have an argument: true if there is none. -/
def endsHere : Parser Bool := do
  if ← eatMark ";" then return true
  return (← atMark "\x7d") || (← atEnd) || (← afterNewline)

/-- An expression or a statement with a label. -/
def expressionStatement (start : Nat) : Parser Stmt := do
  let e ← expression g
  let label? := match e with
    | .ident id => some id
    | _ => none
  match label? with
  | some label =>
    if ← eatMark ":" then
      let labeled ← body g
      return .labeled (← spanFrom start) label labeled
  | none => pure ()
  endStatement
  return .expr (← spanFrom start) e

/-! ### Variables -/

/-- Whether the word `let` at the cursor is a name, judging by what follows. -/
def letIsName (alone : Bool) (next : Cursor) : Bool :=
  match next.token with
  | .mark mark =>
    assignmentMarks.contains mark || binaryMarks.contains mark || mark == "." || mark == "(" ||
      mark == "?." || mark == ";" || (alone && mark != "[")
  | .word word _ => alone || word == "in" || word == "instanceof"
  | _ => alone

/-- A statement that starts with `let`. -/
def letStatement (start : Nat) (alone : Bool) : Parser Stmt := do
  if ← nextIs (letIsName alone) then expressionStatement g start
  else
    expectWord "let"
    require (!alone)
    variablesRest g start .let

/-! ### Choices -/

/-- A choice between two statements. -/
def ifStatement (start : Nat) : Parser Stmt := do
  expectWord "if"
  let test ← condition g
  let consequent ← body g
  let place := (← get).lastStop
  let alternate ← if ← eatWord "else" then body g else pure (.inert ⟨place, place⟩)
  return .ifElse (← spanFrom start) test consequent alternate

/-- A case of a `switch`. -/
def switchCase : Parser Case := do
  let test ← if ← eatWord "default" then pure none
    else
      expectWord "case"
      some <$> expression g
  expectMark ":"
  let statements ← many do
    if (← atMark "\x7d") || (← atWords ["case", "default"]) then return none
    return some (← g.statement false)
  return .mk test statements

/-- A choice between cases. -/
def switchStatement (start : Nat) : Parser Stmt := do
  expectWord "switch"
  let discriminant ← condition g
  expectMark "\x7b"
  let cases ← untilMark "\x7d" (switchCase g)
  return .switch (← spanFrom start) discriminant cases

/-- What is done where a block fails: the pattern for the error and the statements. -/
def catchClause : Parser (Pattern × List Stmt) := do
  let param ← if ← eatMark "(" then
      let param ← g.pattern
      typeAnnotation g
      expectMark ")"
      pure param
    else pure .hole
  return (param, ← block g)

/-- A block with what is done where it fails and what is done at its end, at least one of them. -/
def tryStatement (start : Nat) : Parser Stmt := do
  expectWord "try"
  let tried ← block g
  let caught ← if ← eatWord "catch" then some <$> catchClause g else pure none
  let finalizer ← if ← eatWord "finally" then some <$> block g else pure none
  if caught.isNone && finalizer.isNone then stop
  let (param, handler) := caught.getD (.hole, [])
  return .tryCatch (← spanFrom start) tried param handler (finalizer.getD [])

/-! ### Loops -/

/-- A loop from the mark after its start on. -/
def forRest (start : Nat) (init : Stmt) : Parser Stmt := do
  expectMark ";"
  let test ← if ← atMark ";" then pure none else some <$> withIn (expression g)
  expectMark ";"
  let update ← if ← atMark ")" then pure none else some <$> withIn (expression g)
  expectMark ")"
  let repeated ← body g
  return .forLoop (← spanFrom start) init test update repeated

/-- A loop over an object, from the word `in` or `of` on. -/
def forEachRest (start : Nat) (isAwait : Bool) (left : Stmt) : Parser Stmt := do
  let right ← if ← eatWord "in" then
      require (!isAwait)
      expression g
    else
      expectWord "of"
      g.assignment
  expectMark ")"
  let repeated ← body g
  return .forEach (← spanFrom start) left right repeated

/-- Whether the cursor is between the two sides of a loop over an object. -/
def atForEach : Parser Bool :=
  atWords ["in", "of"]

/-- A loop that starts with the declaration of variables, from its bindings on. -/
def forVariables (start place : Nat) (isAwait : Bool) (word : BindingWord) : Parser Stmt := do
  let bindings ← under (fun mode => { mode with allowIn := false }) (declarators g)
  let left : Stmt := .variable (← spanFrom place) word.kind bindings
  if ← atForEach then
    require (!(word == .using && (← atWord "in")))
    forEachRest g start isAwait left
  else
    require (!isAwait)
    checkInits word bindings
    forRest g start left

/-- A loop that starts with an expression. In front of `of` it must not start with `let`, and it
must not be the name `async`, unless `await` is in front of the loop. -/
def forExpression (start place : Nat) (isAwait : Bool) : Parser Stmt := do
  let isAsyncName := (← token) == .word "async" false &&
    (← nextIs fun c => c.token == .word "of" false)
  let startsLet ← atWord "let"
  let init ← under (fun mode => { mode with allowIn := false }) (expression g)
  let left : Stmt := .expr (← spanFrom place) init
  if ← atForEach then
    if ← atWord "of" then require (!(startsLet || (isAsyncName && !isAwait)))
    asTarget init
    forEachRest g start isAwait left
  else
    require (!isAwait)
    forRest g start left

/-- Whether the word `let` starts a declaration at the start of a loop. -/
def letDeclares (next : Cursor) : Bool :=
  match next.token with
  | .word word _ => word != "in"
  | .mark mark => mark == "[" || mark == "\x7b"
  | _ => false

/-- A loop that starts with `for`. -/
def forStatement (start : Nat) : Parser Stmt := do
  expectWord "for"
  let isAwait ← atWord "await"
  if isAwait then
    require (← read).allowAwait
    advanceKeyword
  expectMark "("
  let place ← position
  if ← atMark ";" then
    require (!isAwait)
    forRest g start (.inert ⟨place, place⟩)
  else if (← atWord "let") && (← nextIs letDeclares) then
    advanceKeyword
    forVariables g start place isAwait .let
  else
    let usingOf ← peek do
      expectWord "using"
      atWord "of"
    match ← if usingOf then pure none else bindingWord? with
    | some word => forVariables g start place isAwait word
    | none => forExpression g start place isAwait

/-- A loop that tests before each round. -/
def whileStatement (start : Nat) : Parser Stmt := do
  expectWord "while"
  let test ← condition g
  let repeated ← body g
  return .whileLoop (← spanFrom start) test repeated

/-- A loop that tests after each round. -/
def doStatement (start : Nat) : Parser Stmt := do
  expectWord "do"
  let repeated ← body g
  expectWord "while"
  let test ← condition g
  let _ ← eatMark ";"
  return .doWhile (← spanFrom start) repeated test

/-! ### Jumps -/

/-- The end of a function, which must be in one. -/
def returnStatement (start : Nat) : Parser Stmt := do
  expectWord "return"
  require (← read).allowReturn
  if ← endsHere then return .returns (← spanFrom start) none
  let argument ← withIn (expression g)
  endStatement
  return .returns (← spanFrom start) (some argument)

/-- A failure, whose value must start on the same line. -/
def throwStatement (start : Nat) : Parser Stmt := do
  expectWord "throw"
  require (!(← afterNewline))
  let argument ← expression g
  endStatement
  return .throws (← spanFrom start) argument

/-- The end of a loop or of a round of it, perhaps with a label. -/
def jumpStatement (start : Nat) : Parser Stmt := do
  advanceKeyword
  unless ← endsHere do
    let _ ← referenceName
    endStatement
  return .inert (← spanFrom start)

/-! ### All of them -/

/-- A statement that starts with decorators: a class, perhaps exported. -/
def decoratedStatement (start : Nat) (alone : Bool) : Parser Stmt := do
  let decorators ← decorators g
  if ← atWord "export" then exportStatement g decorators
  else
    require (!alone)
    decoratedClass g start decorators

/-- A statement that starts with a word that stands for its kind. -/
def keywordStatement? (start : Nat) (alone : Bool) (word : String) : Parser (Option Stmt) := do
  match word with
  | "if" => some <$> ifStatement g start
  | "for" => some <$> forStatement g start
  | "while" => some <$> whileStatement g start
  | "do" => some <$> doStatement g start
  | "switch" => some <$> switchStatement g start
  | "try" => some <$> tryStatement g start
  | "return" => some <$> returnStatement g start
  | "throw" => some <$> throwStatement g start
  | "break" | "continue" => some <$> jumpStatement start
  | "debugger" =>
    advanceKeyword
    endStatement
    return some (.inert (← spanFrom start))
  | "with" =>
    advanceKeyword
    let object ← condition g
    let inside ← body g
    return some (.withObject (← spanFrom start) object inside)
  | "class" =>
    require (!alone)
    some <$> classDeclaration g start []
  | "import" =>
    if ← nextIs fun c => c.token == .mark "(" || c.token == .mark "." then return none
    else some <$> importStatement
  | "export" => some <$> exportStatement g []
  | _ => return none

/-- A declaration, or a statement that starts with an expression. -/
def declarationOrExpression (start : Nat) (alone : Bool) : Parser Stmt := do
  if ← startsTypeDeclaration then typeDeclaration g start
  else if ← startsAbstractClass then plainDeclaration g start
  else if ← startsAmbient then ambientDeclaration g start
  else if ← startsFunction then functionDeclaration g start alone .optional
  else
    match ← bindingWord? with
    | some word =>
      require (!(alone && word != .var))
      variablesRest g start word
    | none => expressionStatement g start

/-- A statement; `alone` if it is the whole body of another one. -/
def statementAt (alone : Bool) : Parser Stmt := do
  let start ← position
  match ← token with
  | .mark "\x7b" =>
    let statements ← block g
    return .block (← spanFrom start) statements
  | .mark ";" =>
    advance
    return .inert (← spanFrom start)
  | .mark "@" => decoratedStatement g start alone
  | .word "let" false => letStatement g start alone
  | .word word _ =>
    match ← keywordStatement? g start alone word with
    | some statement => return statement
    | none => declarationOrExpression g start alone
  | _ => expressionStatement g start

end ComponentApi.Script.Parser
