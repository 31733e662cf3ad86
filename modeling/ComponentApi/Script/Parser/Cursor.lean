import ComponentApi.Script.Lexer
import ComponentApi.Script.Tree

/-!
# The cursor of the parser

The parser walks over a script one token at a time. A fault in the script either stops it, so that
there is no result, or is noted as a flaw and reading goes on; a script with a flaw is rejected in
the end. Both are needed: where the grammar tries one reading and then another, only a stop makes
it turn back.
-/

namespace ComponentApi.Script

/-- Where the parser stands. -/
structure Cursor where
  token : Token
  /-- The place of the token. -/
  start : Nat
  stop : Nat
  /-- Whether a line ends before the token. -/
  newline : Bool
  /-- What follows the token. -/
  rest : Input
  /-- Where the token before ends. -/
  lastStop : Nat
  /-- Whether a fault was seen that did not stop the parser. -/
  flawed : Bool
  /-- Where objects give a shorthand property a default, which is an error unless the object turns
  out to be a target of an assignment. -/
  defaults : List Nat
  /-- Where arrays and objects start that end in a spread with a comma after it, which must not be
  targets of an assignment. -/
  dangling : List Nat
  deriving Inhabited

/-- What holds at the place that is being read. -/
structure Mode where
  /-- Whether types may be written. -/
  typed : Bool
  /-- A bound for the loops of the parser. -/
  size : Nat
  /-- Whether `in` is an operator. -/
  allowIn : Bool := true
  /-- Whether `await` is an operator. -/
  allowAwait : Bool := true
  /-- Whether `yield` is an operator. -/
  allowYield : Bool := false
  /-- Whether `return` may be written. -/
  allowReturn : Bool := false
  /-- Whether declarations describe what is defined elsewhere. -/
  ambient : Bool := false
  /-- Whether the expression of a decorator is being read. -/
  decorator : Bool := false
  /-- Whether the branch of a conditional is being read that a colon ends. -/
  beforeColon : Bool := false
  /-- Whether a type is being read that must not be conditional. -/
  plainType : Bool := false
  deriving Inhabited

/-- A parser: a function of what holds and of the cursor, with a result and a new cursor unless it
stops. -/
abbrev Parser := ReaderT Mode (StateT Cursor Option)

namespace Parser

variable {α : Type}

/-- Tries a parser; where it stops, the cursor stays. -/
def attempt (parser : Parser α) : Parser (Option α) := fun mode cursor =>
  match parser mode cursor with
  | some (a, cursor) => some (some a, cursor)
  | none => some (none, cursor)

/-- Runs a parser and goes back; nothing if it stops. -/
def peek? (parser : Parser α) : Parser (Option α) := fun mode cursor =>
  some ((parser mode cursor).map (·.1), cursor)

/-- Runs a test and goes back; false if it stops. -/
def peek (parser : Parser Bool) : Parser Bool := do
  return (← peek? parser).getD false

/-- Runs a parser under changed conditions. -/
def under (change : Mode → Mode) (parser : Parser α) : Parser α := fun mode =>
  parser (change mode)

/-- Stops. -/
def stop : Parser α := fun _ _ => none

/-- Notes a flaw. -/
def flaw : Parser Unit :=
  modify fun cursor => { cursor with flawed := true }

/-- Notes a flaw unless the condition holds. -/
def require (condition : Bool) : Parser Unit :=
  if condition then pure () else flaw

/-- Whether types may be written. -/
def isTyped : Parser Bool := do
  return (← read).typed

/-- The token at the cursor. -/
def token : Parser Token := do
  return (← get).token

/-- Where the token at the cursor starts. -/
def position : Parser Nat := do
  return (← get).start

/-- Whether a line ends before the token at the cursor. -/
def afterNewline : Parser Bool := do
  return (← get).newline

/-- The span from a position to the end of the last token read. -/
def spanFrom (start : Nat) : Parser Span := do
  return ⟨start, (← get).lastStop⟩

/-- Puts a token in place of the one at the cursor. -/
def replace (token : Token) (rest : Input) : Parser Unit :=
  modify fun cursor => { cursor with token, rest, stop := rest.position }

/-- Moves to the next token. -/
def advance : Parser Unit := fun _ cursor =>
  (next? cursor.rest).map fun lexeme =>
    ((), { cursor with
      token := lexeme.token, start := lexeme.start, stop := lexeme.rest.position
      newline := lexeme.newline, rest := lexeme.rest, lastStop := cursor.stop })

/-- Whether the cursor is at a mark. -/
def atMark (mark : String) : Parser Bool := do
  match (← get).token with
  | .mark text => return text == mark
  | _ => return false

/-- Whether the cursor is at one of the marks. -/
def atMarks (marks : List String) : Parser Bool := do
  match (← get).token with
  | .mark text => return marks.contains text
  | _ => return false

/-- Whether the cursor is at a word. -/
def atWord (word : String) : Parser Bool := do
  match (← get).token with
  | .word text _ => return text == word
  | _ => return false

/-- Whether the cursor is at one of the words. -/
def atWords (words : List String) : Parser Bool := do
  match (← get).token with
  | .word text _ => return words.contains text
  | _ => return false

/-- Whether the cursor is at the end of the script. -/
def atEnd : Parser Bool := do
  return (← get).token == .eof

/-- Whether the next token after the one at the cursor satisfies a test. -/
def nextIs (test : Cursor → Bool) : Parser Bool :=
  peek do
    advance
    return test (← get)

/-- Moves over a word that is used as a keyword, which must not be written with escapes. -/
def advanceKeyword : Parser Unit := do
  match (← get).token with
  | .word _ true => flaw
  | _ => pure ()
  advance

/-- Moves over a mark if the cursor is at it. -/
def eatMark (mark : String) : Parser Bool := do
  if ← atMark mark then
    advance
    return true
  else return false

/-- Moves over a keyword if the cursor is at it. -/
def eatWord (word : String) : Parser Bool := do
  if ← atWord word then
    advanceKeyword
    return true
  else return false

/-- Moves over a mark, or stops. -/
def expectMark (mark : String) : Parser Unit := do
  unless ← eatMark mark do stop

/-- Moves over a keyword, or stops. -/
def expectWord (word : String) : Parser Unit := do
  unless ← eatWord word do stop

/-- The end of a statement: a semicolon, which may be left out before a closing brace, at the end
of the script and at the end of a line. -/
def endStatement : Parser Unit := do
  unless ← eatMark ";" do
    unless (← atMark "\x7d") || (← atEnd) || (← afterNewline) do stop

/-- Whether a token can be the name of a property. -/
def isNameToken : Token → Bool
  | .word _ _ => true
  | _ => false

/-- Whether a token can be the name of a variable. -/
def isBindingToken : Token → Bool
  | .word text _ => isName text
  | _ => false

/-- Whether a token, given what holds, can refer to a variable. -/
def isReferenceToken (mode : Mode) : Token → Bool
  | .word "await" _ => !mode.allowAwait
  | .word "yield" _ => !mode.allowYield
  | token => isBindingToken token

/-- Reads any word as a name. -/
def anyName : Parser Ident := do
  let cursor ← get
  match cursor.token with
  | .word text _ =>
    advance
    return ⟨text, ⟨cursor.start, cursor.stop⟩⟩
  | _ => stop

/-- Reads the name of a variable that is declared. -/
def bindingName : Parser Ident := do
  let mode ← read
  match (← get).token with
  | .word text _ =>
    if !isName text then stop
    if (text == "await" && mode.allowAwait) || (text == "yield" && mode.allowYield) then flaw
    anyName
  | _ => stop

/-- Reads the name of a variable that is used. -/
def referenceName : Parser Ident := do
  if isReferenceToken (← read) (← get).token then anyName else stop

/-- Repeats a step until it gives nothing; `bound` is larger than the number of steps. -/
def repeatFrom (step : Parser (Option α)) : (bound : Nat) → (done : List α) → Parser (List α)
  | 0, _ => stop
  | bound + 1, done => do
    match ← step with
    | some a => repeatFrom step bound (a :: done)
    | none => return done.reverse

/-- Repeats a step until it gives nothing. -/
def many (step : Parser (Option α)) : Parser (List α) := do
  repeatFrom step ((← read).size + 1) []

/-- Reads items up to a closing mark, which stays, with commas between them and perhaps one after
the last. -/
def commaList (close : String) (item : Parser α) : Parser (List α) :=
  many do
    if ← atMark close then return none
    let a ← item
    unless ← atMark close do expectMark ","
    return some a

/-- Reads items with commas between them, at least one. -/
def commaSeparated (item : Parser α) : Parser (List α) := do
  let first ← item
  let others ← many do
    if ← eatMark "," then return some (← item) else return none
  return first :: others

/-- Reads items up to a closing mark, which is read too. -/
def untilMark (close : String) (item : Parser α) : Parser (List α) := do
  let items ← many do
    if ← atMark close then return none
    return some (← item)
  expectMark close
  return items

/-- Reads on in a template after the closing brace of an expression in it. -/
def continueTemplate : Parser Unit := do
  unless ← atMark "\x7d" do stop
  match template? (← get).rest with
  | some (token, rest) => replace token rest
  | none => stop

/-- Reads the texts and the parts of a template whose first text the cursor is at. -/
def templateFrom (part : Parser α) : (bound : Nat) → (texts : List (Option String)) →
    (parts : List α) → Parser (List (Option String) × List α)
  | 0, _, _ => stop
  | bound + 1, texts, parts => do
    match (← get).token with
    | .template text true =>
      advance
      return ((text :: texts).reverse, parts.reverse)
    | .template text false =>
      advance
      let a ← part
      continueTemplate
      templateFrom part bound (text :: texts) (a :: parts)
    | _ => stop

/-- Reads the texts and the parts of a template. -/
def template (part : Parser α) : Parser (List (Option String) × List α) := do
  templateFrom part ((← read).size + 1) [] []

end Parser

/-- The parts of the grammar that contain each other. A parser of the grammar gets the grammar of
one nesting level less, so that the recursion of the grammar is on the level. -/
structure Grammar where
  /-- An expression without commas. -/
  assignment : Parser Expr
  /-- An expression of operators that bind closer than the given strength. -/
  binary : Nat → Parser Expr
  /-- An operand with the operators in front of it. -/
  unary : Parser Expr
  /-- What `new` makes an object of. -/
  callee : Parser Expr
  /-- An operand without operators: what a class extends, and what decorates it. -/
  operand : Parser Expr
  /-- A pattern, without a default. -/
  pattern : Parser Pattern
  /-- A statement; `alone` if it is the whole body of another one. -/
  statement : (alone : Bool) → Parser Stmt
  /-- A type. -/
  type : Parser Unit

end ComponentApi.Script
