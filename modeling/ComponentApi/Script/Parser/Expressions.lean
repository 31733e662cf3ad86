import ComponentApi.Script.Parser.Arrows
import ComponentApi.Script.Parser.Operands
import ComponentApi.Script.Parser.Targets

/-!
# Expressions

Operators in front of, after and between operands, conditionals and assignments.
-/

namespace ComponentApi.Script.Parser

variable (g : Grammar)

/-- An operand with `++` or `--` before or after it. -/
def updated : Parser Expr := do
  let start ← position
  if ← atMarks ["++", "--"] then
    advance
    let e ← g.unary
    asSimpleTarget e
    return .update (← spanFrom start) e
  else
    let e ← operandAt g
    if (← atMarks ["++", "--"]) && !(← afterNewline) then
      asSimpleTarget e
      advance
      return .update (← spanFrom start) e
    else return e

/-- An assertion of a type in front of an expression. -/
def typeAssertion : Parser Expr := do
  let start ← position
  openAngle
  inner g.type
  expectMark ">"
  let e ← g.unary
  return .typeAssertion (← spanFrom start) e

/-- The operator in front of an operand, if the token is one. -/
def unaryOperator? : Token → Option String
  | .mark mark => if ["+", "-", "~", "!"].contains mark then some mark else none
  | .word word _ => if ["delete", "typeof", "void"].contains word then some word else none
  | _ => none

/-- An operand with the operators in front of it. -/
def unaryAt : Parser Expr := do
  let start ← position
  let current ← token
  if let some operator := unaryOperator? current then
    advanceKeyword
    let e ← g.unary
    return .unary (← spanFrom start) operator e
  else if (← isTyped) && (← atAngle) then typeAssertion g
  else if (← atWord "await") && (← read).allowAwait then
    advanceKeyword
    let e ← g.unary
    return .awaiting (← spanFrom start) e
  else updated g

/-- Joins a `>` with what follows it to the operator it starts. -/
def widenAngle : Parser Unit := do
  if ← atMark ">" then
    let (mark, rest) := wideAngle (← get).rest
    replace (.mark mark) rest

/-- How strongly a mark binds what stands on both sides of it. -/
def markStrength? (mark : String) : Option Nat :=
  ([("??", 1), ("||", 2), ("&&", 3), ("|", 4), ("^", 5), ("&", 6), ("==", 7), ("!=", 7), ("===", 7),
    ("!==", 7), ("<", 8), (">", 8), ("<=", 8), (">=", 8), ("<<", 9), (">>", 9), (">>>", 9),
    ("+", 10), ("-", 10), ("*", 11), ("/", 11), ("%", 11), ("**", 12)] : List (String × Nat)).lookup
    mark

/-- How strongly `in` and the other words between operands bind. -/
def wordStrength : Nat := 8

/-- The operator at the cursor and its strength, if there is one between operands. -/
def binaryOperator? (mode : Mode) (cursor : Cursor) : Option (String × Nat) :=
  match cursor.token with
  | .mark mark => (markStrength? mark).map (mark, ·)
  | .word "instanceof" _ => some ("instanceof", wordStrength)
  | .word "in" _ => if mode.allowIn then some ("in", wordStrength) else none
  | .word "as" _ =>
    if mode.typed && !cursor.newline then some ("as", wordStrength) else none
  | .word "satisfies" _ =>
    if mode.typed && !cursor.newline then some ("satisfies", wordStrength) else none
  | _ => none

/-- Whether an expression joins its operands by the operator `??`; nothing if by none of the
logical operators. -/
def coalesces? : Expr → Option Bool
  | .logical _ operator _ _ => some (operator == "??")
  | _ => none

/-- Whether `??` meets `||` or `&&` without parentheses. -/
def mixesLogical (operator : String) (left right : Expr) : Bool :=
  [left, right].any fun e => (coalesces? e).any fun c => c != (operator == "??")

/-- Whether an expression has an operator in front of it. -/
def isUnary : Expr → Bool
  | .unary _ _ _ | .awaiting _ _ | .typeAssertion _ _ => true
  | _ => false

/-- Two operands joined by an operator. -/
def joined (span : Span) (operator : String) (left right : Expr) : Parser Expr := do
  if ["??", "||", "&&"].contains operator then
    require (!mixesLogical operator left right)
    return .logical span operator left right
  else
    if operator == "**" then require (!isUnary left)
    return .binary span operator left right

/-- What follows a left operand that starts at `start`: operators stronger than `least` with
their right operands. The operator `**` binds to the right. -/
def operatorsFrom (least start : Nat) : (bound : Nat) → Expr → Parser Expr
  | 0, _ => stop
  | bound + 1, left => do
    widenAngle
    match binaryOperator? (← read) (← get) with
    | none => return left
    | some (operator, strength) =>
      if strength ≤ least then return left
      advanceKeyword
      if operator == "as" then
        inner g.type
        operatorsFrom least start bound (.asType (← spanFrom start) left)
      else if operator == "satisfies" then
        inner g.type
        operatorsFrom least start bound (.satisfies (← spanFrom start) left)
      else
        let right ← g.binary (if operator == "**" then strength - 1 else strength)
        operatorsFrom least start bound (← joined (← spanFrom start) operator left right)

/-- The test whether an object has a private member: `#name in object`. -/
def privateTest (least : Nat) : Parser Expr := do
  let start ← position
  advance
  expectWord "in"
  if wordStrength ≤ least then stop
  let object ← g.binary wordStrength
  return .privateIn (← spanFrom start) object

/-- An expression of operators that bind closer than the given strength. -/
def binaryAt (least : Nat) : Parser Expr := do
  let start ← position
  let first ← match ← token with
    | .privateName _ => if (← read).allowIn then privateTest g least else stop
    | _ => unaryAt g
  operatorsFrom g least start ((← read).size + 1) first

/-- The branches of a conditional, if there is one. -/
def conditionalRest (start : Nat) (test : Expr) : Parser Expr := do
  if ← eatMark "?" then
    let consequent ← under (fun mode => { mode with allowIn := true, beforeColon := true })
      g.assignment
    expectMark ":"
    let alternate ← g.assignment
    return .conditional (← spanFrom start) test consequent alternate
  else return test

/-- The marks that assign. -/
def assignmentMarks : List String :=
  ["=", "+=", "-=", "*=", "/=", "%=", "**=", "<<=", ">>=", ">>>=", "&=", "|=", "^=", "&&=", "||=",
   "??="]

/-- An assignment whose target has been read. -/
def assignmentRest (start : Nat) (operator : String) (target : Expr) : Parser Expr := do
  asTarget target
  advance
  let value ← g.assignment
  return .assign (← spanFrom start) operator target value

/-- Whether nothing follows `yield` that it could yield. -/
def endsYield : Token → Bool
  | .eof => true
  | .mark mark => [";", "\x7d", ")", "]", ":", ","].contains mark
  | .word word _ => word == "in"
  | _ => false

/-- What a generator yields. -/
def yielding : Parser Expr := do
  let start ← position
  advanceKeyword
  if ← afterNewline then return .yielding (← spanFrom start) none
  let delegates ← eatMark "*"
  if endsYield (← token) && !delegates then return .yielding (← spanFrom start) none
  let argument ← under (fun mode => { mode with beforeColon := false }) g.assignment
  return .yielding (← spanFrom start) (some argument)

/-- An expression without commas. -/
def assignmentAt : Parser Expr := do
  if (← read).allowYield && (← atWord "yield") then yielding g
  else
    match ← arrowFunction? g with
    | some e => return e
    | none =>
      let start ← position
      let left ← binaryAt g 0
      match ← token with
      | .mark mark =>
        if assignmentMarks.contains mark then assignmentRest g start mark left
        else conditionalRest g start left
      | _ => return left

end ComponentApi.Script.Parser
