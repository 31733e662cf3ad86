import ComponentApi.Script.Parser.Literals

/-!
# Operands

What operators stand between: literals and names, with the members, calls and templates that
follow them.
-/

namespace ComponentApi.Script.Parser

variable (g : Grammar)

/-- Moves over a keyword that is an expression of its own. -/
def keyword (make : Span → Expr) : Parser Expr := do
  let start ← position
  advanceKeyword
  return make (← spanFrom start)

/-- `super`, which must be followed by a member or a call. -/
def superReference : Parser Expr := do
  let e ← keyword .superRef
  require (← atMarks [".", "[", "("])
  return e

/-- An import in an expression: `import.meta`, `import(m)`, `import.source(m)`. -/
def importExpression : Parser Expr := do
  let start ← position
  expectWord "import"
  let isMeta ← if ← eatMark "." then
      if ← atWord "meta" then pure true
      else if ← atWords ["source", "defer"] then
        advance
        pure false
      else stop
    else pure false
  if isMeta then
    advanceKeyword
    return .metaProperty (← spanFrom start)
  else
    expectMark "("
    let arguments ← delimited (commaList ")" g.assignment)
    expectMark ")"
    if arguments.isEmpty || arguments.length > 2 then stop
    return .importCall (← spanFrom start) arguments

/-- An expression without the types it is applied to. -/
def withoutTypeArguments : Expr → Expr
  | .instantiation _ e => e
  | e => e

/-- What `new` makes, or `new.target`. -/
def newExpression : Parser Expr := do
  let start ← position
  expectWord "new"
  if ← eatMark "." then
    expectWord "target"
    return .metaProperty (← spanFrom start)
  else
    let callee ← g.callee
    match callee with
    | .importCall _ _ => flaw
    | _ => pure ()
    let arguments ← if ← atMark "(" then callArguments g else pure []
    return .newCall (← spanFrom start) (withoutTypeArguments callee) arguments

/-- An operand that starts with a word. -/
def wordOperand (word : String) : Parser Expr := do
  let start ← position
  match word with
  | "this" => keyword .thisRef
  | "null" => keyword .null
  | "true" | "false" => keyword .boolean
  | "function" => functionExpression g start false
  | "class" => classExpression g
  | "new" => newExpression g
  | "super" => superReference
  | "import" => importExpression g
  | "async" =>
    if ← nextIs fun c => !c.newline && c.token == .word "function" false then
      advanceKeyword
      functionExpression g start true
    else return .ident (← referenceName)
  | _ => return .ident (← referenceName)

/-- An operand without what follows it. -/
def primary : Parser Expr := do
  let start ← position
  match ← token with
  | .string value _ =>
    advance
    return .string (← spanFrom start) value
  | .number name =>
    advance
    return .number (← spanFrom start) name
  | .bigInt name =>
    advance
    return .bigInt (← spanFrom start) name
  | .template _ _ => templateLiteral g
  | .mark "(" => parenthesized g
  | .mark "[" => arrayLiteral g
  | .mark "\x7b" => objectLiteral g
  | .mark "/" | .mark "/=" => regExpLiteral
  | .mark "@" => classExpression g
  | .word word _ => wordOperand g word
  | _ => stop

/-- The member of an object whose name the cursor is at. -/
def namedMember (start : Nat) (object : Expr) : Parser Expr := do
  match ← token with
  | .privateName _ =>
    advance
    return .privateMember (← spanFrom start) object
  | _ =>
    let property ← anyName
    return .member (← spanFrom start) object property

/-- The member of an object whose name is computed, from its bracket on. -/
def computedMember (start : Nat) (object : Expr) : Parser Expr := do
  expectMark "["
  let key ← delimited (expression g)
  expectMark "]"
  return .index (← spanFrom start) object key

/-- A call, from its arguments on. -/
def call (start : Nat) (callee : Expr) : Parser Expr := do
  let arguments ← callArguments g
  return .call (← spanFrom start) callee arguments

/-- A template with a tag in front of it. -/
def taggedTemplate (start : Nat) (tag : Expr) : Parser Expr := do
  let (_, expressions) ← template (delimited (expression g))
  return .tagged (← spanFrom start) (withoutTypeArguments tag) expressions

/-- What follows the mark `?.` in an optional chain. -/
def optionalLink (start : Nat) (object : Expr) : Parser Expr := do
  expectMark "?."
  match ← token with
  | .mark "(" => call g start object
  | .mark "[" => computedMember g start object
  | .template _ _ =>
    flaw
    taggedTemplate g start object
  | .mark "<" | .mark "<<" =>
    unless ← isTyped do stop
    expressionTypeArguments g
    call g start object
  | _ => namedMember start object

/-- One link after an operand that starts at `start`; `inChain` tells whether the operand is an
optional chain. Without `calls`, neither calls nor optional links are read. -/
def link (calls : Bool) (start : Nat) (e : Expr) (inChain : Bool) :
    Parser (Option (Expr × Bool)) := do
  match ← token with
  | .mark "." =>
    advance
    return some (← namedMember start e, inChain)
  | .mark "[" =>
    if (← read).decorator then return none
    return some (← computedMember g start e, inChain)
  | .mark "?." =>
    if !calls then return none
    return some (← optionalLink g start e, true)
  | .mark "(" =>
    if !calls then return none
    return some (← call g start (withoutTypeArguments e), inChain)
  | .mark "!" =>
    if !(← isTyped) || (← afterNewline) then return none
    advance
    return some (.nonNull (← spanFrom start) e, inChain)
  | .template _ _ =>
    require (!inChain)
    return some (← taggedTemplate g start e, inChain)
  | .mark "<" | .mark "<<" =>
    if !(← isTyped) then return none
    match ← attempt (expressionTypeArguments g) with
    | some () => return some (.instantiation (← spanFrom start) e, inChain)
    | none => return none
  | _ => return none

/-- All links after an operand; `bound` is larger than their number. -/
def linksFrom (calls : Bool) (start : Nat) :
    (bound : Nat) → Expr → (inChain : Bool) → Parser (Expr × Bool)
  | 0, _, _ => stop
  | bound + 1, e, inChain => do
    match ← link g calls start e inChain with
    | some (e, inChain) => linksFrom calls start bound e inChain
    | none => return (e, inChain)

/-- An operand with its links. A chain with an optional link is wrapped as a whole. -/
def operandAt : Parser Expr := do
  let start ← position
  let first ← primary g
  let (e, inChain) ← linksFrom g true start ((← read).size + 1) first false
  if !inChain then return e
  match e with
  | .instantiation span e => return .instantiation span (.chain e.span e)
  | .tagged _ _ _ => return e
  | _ => return .chain (← spanFrom start) e

/-- What `new` makes an object of. It must not be an optional chain. -/
def calleeAt : Parser Expr := do
  let start ← position
  let first ← primary g
  let (e, _) ← linksFrom g false start ((← read).size + 1) first false
  if ← atMark "?." then stop
  return e

end ComponentApi.Script.Parser
