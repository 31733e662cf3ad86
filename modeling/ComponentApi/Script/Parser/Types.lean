import ComponentApi.Script.Parser.Params

/-!
# Types in scripts

Types are read to know where they end; nothing of them is kept.
-/

namespace ComponentApi.Script.Parser

variable (g : Grammar)

/-- Whether the cursor is at an opening angle bracket. -/
def atAngle : Parser Bool :=
  atMarks ["<", "<<"]

/-- Moves over one opening angle bracket, also where two stand together. -/
def openAngle : Parser Unit := do
  let cursor ← get
  match cursor.token with
  | .mark "<" => advance
  | .mark "<<" =>
    replace (.mark "<") ⟨'<' :: cursor.rest.chars, cursor.rest.position - 1⟩
    advance
  | _ => stop

/-- Types between angle brackets, at least one, up to the closing bracket, which stays. -/
def typeList : Parser Unit := do
  openAngle
  if ← atMark ">" then stop
  let _ ← inner (commaList ">" g.type)

/-- Arguments of a type. -/
def typeArguments : Parser Unit := do
  typeList g
  expectMark ">"

/-- One parameter of a type: modifiers, a name, a bound and a default. -/
def typeParameter : Parser Unit := do
  allowModifiers [.in, .out, .const] (← modifiers)
  let _ ← bindingName
  if ← eatWord "extends" then g.type
  if ← eatMark "=" then g.type

/-- Parameters of a type, if there are any. -/
def typeParameters : Parser Unit := do
  if (← isTyped) && (← atAngle) then
    openAngle
    if ← atMark ">" then stop
    let _ ← inner (commaList ">" (typeParameter g))
    expectMark ">"

/-- A type, or a statement about a parameter: `x is T`. -/
def typeOrPredicate : Parser Unit := do
  let isPredicate ← peek do
    let _ ← anyName
    return (← atWord "is") && !(← afterNewline)
  if isPredicate then
    advance
    advance
  g.type

/-- The type of a result after a colon, if there is one. -/
def returnAnnotation : Parser Bool := do
  if (← isTyped) && (← atMark ":") then
    advance
    inner (typeOrPredicate g)
    return true
  else return false

/-- The type of a function. -/
def functionType : Parser Unit := do
  typeParameters g
  let _ ← params g
  expectMark "=>"
  typeOrPredicate g

/-- A call, a construction or a method of an object type, from its parameters on. -/
def signature : Parser Unit := do
  typeParameters g
  let _ ← params g
  let _ ← returnAnnotation g

/-- The name of a property of an object type. -/
def typePropertyName : Parser Unit := do
  match ← token with
  | .word _ _ | .string _ _ | .number _ | .bigInt _ => advance
  | .mark "[" =>
    advance
    let _ ← inner g.assignment
    expectMark "]"
  | _ => stop

/-- An index signature: `[key: T]: U`. -/
def indexSignature : Parser Unit := do
  expectMark "["
  let _ ← anyName
  expectMark ":"
  inner g.type
  expectMark "]"
  expectMark ":"
  inner g.type

/-- The end of a member of an object type. -/
def endTypeMember : Parser Unit := do
  unless ← eatMark ";" <||> eatMark "," do
    unless (← atMark "\x7d") || (← afterNewline) do stop

/-- A member of an object type that has a name, from the name on. -/
def namedTypeMember : Parser Unit := do
  typePropertyName g
  let _ ← eatMark "?"
  if ← atMarks ["(", "<"] then signature g else typeAnnotation g

/-- An accessor of an object type, from the word in front of its name on. -/
def typeAccessor : Parser Unit := do
  advanceKeyword
  typePropertyName g
  let _ ← params g
  let _ ← returnAnnotation g

/-- A member of an object type. -/
def typeMember : Parser Unit := do
  if ← atMarks ["(", "<"] then signature g
  else if (← atWord "new") && (← nextIs fun c => [.mark "(", .mark "<"].contains c.token) then
    advance
    signature g
  else
    allowModifiers [.readonly] (← modifiers)
    if (← atWords ["get", "set"]) && (← nextIs fun c => startsPropertyName c.token) then
      typeAccessor g
    else
      match ← attempt (if ← atMark "[" then indexSignature g else stop) with
      | some () => pure ()
      | none => namedTypeMember g
  endTypeMember

/-- The members of an object type, in braces. -/
def objectType : Parser Unit := do
  expectMark "\x7b"
  let _ ← inner (untilMark "\x7d" (typeMember g))

/-- Whether a mapped type starts at the brace at the cursor. -/
def startsMappedType : Parser Bool :=
  peek do
    advance
    if ← atMarks ["+", "-"] then
      advance
      return ← atWord "readonly"
    let _ ← eatWord "readonly"
    expectMark "["
    let _ ← anyName
    atWord "in"

/-- A mapped type: `{ [K in T]: U }`. -/
def mappedType : Parser Unit := do
  expectMark "\x7b"
  if ← atMarks ["+", "-"] then advance
  let _ ← eatWord "readonly"
  expectMark "["
  let _ ← anyName
  expectWord "in"
  inner g.type
  if ← eatWord "as" then inner g.type
  expectMark "]"
  if ← atMarks ["+", "-"] then
    advance
    expectMark "?"
  else let _ ← eatMark "?"
  typeAnnotation g
  let _ ← eatMark ";" <||> eatMark ","
  expectMark "\x7d"

/-- An element of a tuple, perhaps with a name. -/
def tupleElement : Parser Unit := do
  let _ ← eatMark "..."
  let named ← peek do
    let _ ← anyName
    let _ ← eatMark "?"
    atMark ":"
  if named then
    advance
    let _ ← eatMark "?"
    expectMark ":"
  g.type

/-- Names after points. -/
def qualifiers : Parser Unit := do
  let _ ← many do
    if ← eatMark "." then some <$> anyName else return none

/-- Arguments of a type on the same line, if there are any. -/
def typeArgumentsHere : Parser Unit := do
  if (← atAngle) && !(← afterNewline) then typeArguments g

/-- The type of a module: `import('m').T`, perhaps with attributes of the module. -/
def importType : Parser Unit := do
  expectWord "import"
  expectMark "("
  match ← token with
  | .string _ _ => advance
  | _ => stop
  if (← eatMark ",") && (← atMark "\x7b") then
    let _ ← inner g.assignment
    let _ ← eatMark ","
  expectMark ")"
  qualifiers
  typeArgumentsHere g

/-- A name of a type, with the names after points and the arguments that follow it. -/
def typeReference : Parser Unit := do
  let _ ← anyName
  qualifiers
  typeArgumentsHere g

/-- The type of a value: `typeof x`. -/
def typeQuery : Parser Unit := do
  expectWord "typeof"
  if ← atWord "import" then importType g else typeReference g

/-- A statement that a parameter holds or has a type: `asserts x is T`. -/
def assertsPredicate : Parser Unit := do
  expectWord "asserts"
  let _ ← anyName
  if ← eatWord "is" then g.type

/-- The type `this`, or a statement about its type: `this is T`. -/
def thisType : Parser Unit := do
  expectWord "this"
  if (← atWord "is") && !(← afterNewline) then
    advance
    g.type

/-- The names of types that have no arguments, unless names follow after points. -/
def basicTypes : List String :=
  ["any", "unknown", "string", "number", "bigint", "symbol", "boolean", "undefined", "never",
   "object"]

/-- A type that starts with a word. -/
def wordType (word : String) : Parser Unit := do
  match word with
  | "typeof" => typeQuery g
  | "import" => importType g
  | "this" => thisType g
  | "void" | "null" | "true" | "false" => advance
  | "asserts" =>
    let stated ← nextIs fun c =>
      !c.newline && (isBindingToken c.token || c.token == .word "this" false)
    if stated then assertsPredicate g else typeReference g
  | _ =>
    if basicTypes.contains word && !(← nextIs fun c => c.token == .mark ".") then advance
    else typeReference g

/-- A type after a question mark, or the unknown type if none follows. -/
def nullableType : Parser Unit := do
  expectMark "?"
  unless ← atMarks [",", "\x7d", ")", ">", "=", "|"] do g.type

/-- A type without operators. Exclamation marks in front of it exclude `null`. -/
def primaryType : Parser Unit := do
  let _ ← many do
    if ← eatMark "!" then return some () else return none
  match ← token with
  | .string _ _ | .number _ | .bigInt _ => advance
  | .template _ _ =>
    let _ ← template (inner g.type)
  | .mark "-" =>
    advance
    match ← token with
    | .number _ | .bigInt _ => advance
    | _ => stop
  | .mark "(" =>
    advance
    inner g.type
    expectMark ")"
  | .mark "[" =>
    advance
    let _ ← inner (commaList "]" (tupleElement g))
    expectMark "]"
  | .mark "\x7b" => if ← startsMappedType then mappedType g else objectType g
  | .mark "?" => nullableType g
  | .word word _ => wordType g word
  | _ => stop

/-- Whether a type that is not in parentheses starts at the cursor. -/
def startsOpenType : Parser Bool := do
  match ← token with
  | .word word _ =>
    return isName word || ["void", "null", "this", "typeof", "new", "true", "false", "import",
      "function"].contains word
  | .mark "-" => nextIs fun c =>
    match c.token with
    | .number _ | .bigInt _ => true
    | _ => false
  | .mark mark => return ["\x7b", "[", "<", "|", "&", "*", "?", "!", "..."].contains mark
  | .string _ _ | .number _ | .bigInt _ | .template _ _ => return true
  | _ => return false

/-- Whether a type starts at the cursor; in parentheses it may also be a parameter. -/
def startsType : Parser Bool :=
  peek do
    let parentheses ← many do
      if ← eatMark "(" then return some () else return none
    if ← startsOpenType then return true
    match ← token with
    | .mark mark => return !parentheses.isEmpty && (mark == ")" || mark == "@")
    | .privateName _ => return !parentheses.isEmpty
    | _ => return false

/-- A type with what may follow it on its line: arrays and indices, and marks that include or
exclude `null`. A question mark in front of a type belongs to a conditional. -/
def postfixType : Parser Unit := do
  primaryType g
  let _ ← many do
    if ← afterNewline then return none
    match ← token with
    | .mark "[" =>
      advance
      unless ← eatMark "]" do
        inner g.type
        expectMark "]"
      return some ()
    | .mark "!" =>
      advance
      return some ()
    | .mark "?" =>
      let conditional ← peek do
        advance
        startsType
      if conditional then return none
      advance
      return some ()
    | _ => return none

/-- The bound of an inferred type, if there is one; in front of a question mark the word `extends`
belongs to a conditional type. -/
def inferBound : Parser Unit := do
  if ← atWord "extends" then
    let _ ← attempt do
      advance
      under (fun mode => { mode with plainType := true }) g.type
      if (← atMark "?") && !(← read).plainType then stop

/-- A type with the operators in front of it. -/
def operatorType : Parser Unit := do
  let _ ← many do
    if ← atWords ["keyof", "unique", "readonly"] then
      advance
      return some ()
    return none
  if ← eatWord "infer" then
    let _ ← bindingName
    inferBound g
  else postfixType g

/-- Types with a mark between them, which may also stand before the first. -/
def joinedType (mark : String) (part : Parser Unit) : Parser Unit := do
  let _ ← eatMark mark
  part
  let _ ← many do
    if ← eatMark mark then
      part
      return some ()
    return none

/-- Alternatives. -/
def unionType : Parser Unit :=
  joinedType "|" (joinedType "&" (operatorType g))

/-- Moves over the start of a parameter: its modifiers, and a name or a pattern without flaws. -/
def skipParamStart : Parser Bool := do
  let _ ← modifiers
  let flawed := (← get).flawed
  match ← token with
  | .mark "[" | .mark "\x7b" =>
    let _ ← g.pattern
    return (← get).flawed == flawed
  | .word word _ =>
    advance
    return isName word || word == "this"
  | _ => return false

/-- Whether the parenthesis at the cursor opens the parameters of the type of a function. -/
def opensFunctionType : Parser Bool :=
  peek do
    expectMark "("
    if ← atMarks [")", "..."] then return true
    if !(← skipParamStart g) then return false
    if ← atMarks [":", ",", "?", "="] then return true
    expectMark ")"
    atMark "=>"

/-- Whether the type of a function or a constructor starts at the cursor. -/
def startsFunctionType : Parser Bool := do
  if ← atAngle then return true
  if ← atWord "new" then return true
  if ← atWord "abstract" then return ← nextIs fun c => c.token == .word "new" false
  opensFunctionType g

/-- A type that is not conditional. -/
def plainType : Parser Unit := do
  if ← startsFunctionType g then
    let _ ← eatWord "abstract"
    let _ ← eatWord "new"
    functionType g
  else unionType g

/-- A type. -/
def typeAt : Parser Unit := do
  plainType g
  if !(← read).plainType && !(← afterNewline) && (← atWord "extends") then
    advance
    under (fun mode => { mode with plainType := true }) g.type
    expectMark "?"
    inner g.type
    expectMark ":"
    inner g.type

/-- The marks that stand between operands. -/
def binaryMarks : List String :=
  ["??", "||", "&&", "|", "^", "&", "==", "!=", "===", "!==", "<", ">", "<=", ">=", "<<", ">>",
   ">>>", "+", "-", "*", "/", "%", "**"]

/-- The words that stand between operands. -/
def binaryWords : List String :=
  ["instanceof", "in", "as", "satisfies"]

/-- Whether a token can start an expression. -/
def startsExpression : Token → Bool
  | .eof => false
  | .mark mark =>
    ["(", "[", "\x7b", "/", "/=", "+", "-", "~", "!", "++", "--", "<", "<<", "@"].contains mark
  | .word word _ =>
    isName word || ["this", "super", "null", "true", "false", "function", "class", "new", "delete",
      "typeof", "void", "import"].contains word
  | _ => true

/-- Whether what follows arguments of a type shows that they are arguments indeed, and not two
comparisons. -/
def followsTypeArguments : Parser Bool := do
  let cursor ← get
  match cursor.token with
  | .template _ _ => return true
  | .mark mark =>
    if mark == "(" then return true
    if ["<", ">", "+", "-"].contains mark then return false
    return cursor.newline || binaryMarks.contains mark || !startsExpression cursor.token
  | .word word _ =>
    return cursor.newline || binaryWords.contains word || !startsExpression cursor.token
  | token => return cursor.newline || !startsExpression token

/-- Arguments of a type after an expression. -/
def expressionTypeArguments : Parser Unit := do
  typeList g
  unless ← atMark ">" do stop
  unless (wideAngle (← get).rest).1 == ">" do stop
  advance
  unless ← followsTypeArguments do stop

end ComponentApi.Script.Parser
