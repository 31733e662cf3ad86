import ComponentApi.Script.Parser.Literals

/-!
# Declarations

Variables, functions and classes, and the declarations of types.
-/

namespace ComponentApi.Script.Parser

variable (g : Grammar)

/-! ### Variables -/

/-- The word that declares variables. -/
inductive BindingWord where
  | «var»
  | «let»
  | const
  /-- `using`, and `await using`. -/
  | «using»
  deriving DecidableEq, Repr

/-- The kind of the variables that a word declares. -/
def BindingWord.kind : BindingWord → VariableKind
  | .var => .var
  | .let => .let
  | .const | .using => .const

/-- Whether a variable must have a value from the start: a constant, or a pattern. -/
def requiresInit (word : BindingWord) : Pattern → Bool
  | .ident _ => word == .const || word == .using
  | _ => true

/-- Whether a binding lacks the value that it must have. -/
def lacksInit (word : BindingWord) : Declarator → Bool
  | .mk _ pattern none => requiresInit word pattern
  | .mk _ _ (some _) => false

/-- One binding of a declaration. -/
def declarator : Parser Declarator := do
  let start ← position
  let pattern ← g.pattern
  let mayBeDefinite := match pattern with
    | .ident _ => true
    | _ => false
  if mayBeDefinite && (← isTyped) && (← atMark "!") && !(← afterNewline) then advance
  typeAnnotation g
  let init ← if ← eatMark "=" then some <$> g.assignment else pure none
  return .mk (← spanFrom start) pattern init

/-- The bindings of a declaration. -/
def declarators : Parser (List Declarator) :=
  commaSeparated (declarator g)

/-- Notes a flaw if a binding lacks the value that it must have. -/
def checkInits (word : BindingWord) (bindings : List Declarator) : Parser Unit := do
  require ((← read).ambient || !bindings.any (lacksInit word))

/-- The declaration of variables, from its bindings on. -/
def variablesRest (start : Nat) (word : BindingWord) : Parser Stmt := do
  let bindings ← declarators g
  checkInits word bindings
  endStatement
  return .variable (← spanFrom start) word.kind bindings

/-- Whether the next token is a name on the same line. -/
def nextIsNameHere : Parser Bool :=
  nextIs fun c => !c.newline && isBindingToken c.token

/-- Moves over the words that declare variables, if the cursor is at some. The word `let` is also
a name, so that it is left to the caller. -/
def bindingWord? : Parser (Option BindingWord) := do
  if ← eatWord "var" then return some .var
  if ← eatWord "const" then return some .const
  if (← atWord "using") && (← nextIsNameHere) then
    advanceKeyword
    return some .using
  let awaited ← peek do
    expectWord "await"
    return !(← afterNewline) && (← atWord "using") && (← nextIsNameHere)
  if awaited && (← read).allowAwait then
    advanceKeyword
    advanceKeyword
    return some .using
  return none

/-! ### Functions and classes -/

/-- Whether a function is declared at the cursor. -/
def startsFunction : Parser Bool := do
  if ← atWord "function" then return true
  if ← atWord "async" then
    return ← nextIs fun c => !c.newline && c.token == .word "function" false
  return false

/-- The words in front of the name of a function: whether it is asynchronous, and whether it is a
generator. -/
def functionWords : Parser (Bool × Bool) := do
  let isAsync ← eatWord "async"
  expectWord "function"
  let isGenerator ← eatMark "*"
  return (isAsync, isGenerator)

/-- The declaration of a function. Where it is the whole body of another statement, the function
must be a plain one. -/
def functionDeclaration (start : Nat) (alone : Bool) (rule : BodyRule) : Parser Stmt := do
  let (isAsync, isGenerator) ← functionWords
  require (!(alone && (isAsync || isGenerator)))
  let id ← bindingName
  let definition ← functionRest g isAsync isGenerator rule (some id)
  return .function (← spanFrom start) definition

/-- The declaration of a class. -/
def classDeclaration (start : Nat) (decorators : List Expr) : Parser Stmt := do
  let definition ← classRest g decorators
  return .classDef (← spanFrom start) definition

/-- Whether an abstract class is declared at the cursor. -/
def startsAbstractClass : Parser Bool := do
  return (← isTyped) && (← atWord "abstract") &&
    (← nextIs fun c => !c.newline && c.token == .word "class" false)

/-! ### Types -/

/-- The declaration of a name for a type. -/
def typeAlias (start : Nat) : Parser Stmt := do
  expectWord "type"
  let _ ← bindingName
  typeParameters g
  expectMark "="
  if (← atWord "intrinsic") && !(← nextIs fun c => c.token == .mark ".") then advance
  else inner g.type
  endStatement
  return .inert (← spanFrom start)

/-- A type that an interface extends: a name, perhaps with names after points and arguments. -/
def extendedType : Parser Unit := do
  let _ ← referenceName
  qualifiers
  if ← atAngle then typeArguments g

/-- The declaration of an interface. -/
def interfaceDeclaration (start : Nat) : Parser Stmt := do
  expectWord "interface"
  let _ ← bindingName
  typeParameters g
  if ← eatWord "extends" then
    let _ ← commaSeparated (extendedType g)
  objectType g
  return .inert (← spanFrom start)

/-- The name of a member of an enumeration. -/
def enumMemberName : Parser String := do
  match ← token with
  | .word name _ | .string name _ =>
    advance
    return name
  | .mark "[" =>
    advance
    let name ← match ← token with
      | .string name _ | .template (some name) true => pure name
      | .template none true => pure ""
      | _ => stop
    advance
    expectMark "]"
    return name
  | _ => stop

/-- A member of an enumeration and its value, if it has one. -/
def enumMember : Parser (String × Option Expr) := do
  let name ← enumMemberName
  if ← eatMark "=" then return (name, some (← g.assignment)) else return (name, none)

/-- The declaration of an enumeration. -/
def enumDeclaration (start : Nat) : Parser Stmt := do
  let _ ← eatWord "const"
  expectWord "enum"
  let id ← bindingName
  expectMark "\x7b"
  let members ← delimited (commaList "\x7d" (enumMember g))
  expectMark "\x7d"
  return .enumeration (← spanFrom start) id (members.map (·.1)) (members.filterMap (·.2))

/-- The name of a namespace: names with points between them. -/
def namespaceName : Parser (List Ident) := do
  let first ← bindingName
  let rest ← many do
    if ← eatMark "." then some <$> bindingName else return none
  return first :: rest

/-- The declaration of a namespace or of a module. A module may have a string for its name, and
then it may lack a body. -/
def namespaceDeclaration (start : Nat) : Parser Stmt := do
  let isModule ← atWord "module"
  let isGlobal ← atWord "global"
  let _ ← anyName
  let isString := match ← token with
    | .string _ _ => isModule
    | _ => false
  if isString then advance
  let path ← if isString || isGlobal then pure [] else namespaceName
  if isString && !(← atMark "\x7b") then
    endStatement
    return .inert (← spanFrom start)
  let body ← block g
  return .namespaceBody (← spanFrom start) path body

/-- The words that start a declaration of types at the cursor, judging by what follows. -/
def startsTypeDeclaration : Parser Bool := do
  if !(← isTyped) then return false
  let nameHere (c : Cursor) : Bool := !c.newline && isBindingToken c.token
  let stringHere (c : Cursor) : Bool := !c.newline && match c.token with
    | .string _ _ => true
    | _ => false
  match ← token with
  | .word "enum" _ => return true
  | .word "const" _ => nextIs fun c => c.token == .word "enum" false
  | .word "type" _ | .word "interface" _ => nextIs nameHere
  | .word "namespace" _ | .word "module" _ => nextIs fun c => nameHere c || stringHere c
  | .word "global" _ => nextIs fun c => c.token == .mark "\x7b"
  | _ => return false

/-- A declaration of types. -/
def typeDeclaration (start : Nat) : Parser Stmt := do
  match ← token with
  | .word "type" _ => typeAlias g start
  | .word "interface" _ => interfaceDeclaration g start
  | .word "enum" _ | .word "const" _ => enumDeclaration g start
  | _ => namespaceDeclaration g start

/-! ### All of them -/

/-- Whether a declaration other than one that starts with `declare` is at the cursor. -/
def startsPlainDeclaration : Parser Bool := do
  return (← atWords ["var", "let", "const", "class"]) || (← startsFunction) ||
    (← startsAbstractClass) || (← startsTypeDeclaration)

/-- Whether a declaration of what is defined elsewhere is at the cursor. -/
def startsAmbient : Parser Bool := do
  let here ← peek do
    expectWord "declare"
    return !(← afterNewline) && (← startsPlainDeclaration)
  return (← isTyped) && here

/-- A declaration other than one that starts with `declare`. -/
def plainDeclaration (start : Nat) : Parser Stmt := do
  if ← startsTypeDeclaration then typeDeclaration g start
  else if ← startsFunction then functionDeclaration g start false .optional
  else if ← startsAbstractClass then
    advance
    classDeclaration g start []
  else if ← atWord "class" then classDeclaration g start []
  else if ← eatWord "let" then variablesRest g start .let
  else if ← eatWord "var" then variablesRest g start .var
  else
    expectWord "const"
    variablesRest g start .const

/-- A declaration of what is defined elsewhere. A function has no body there. -/
def ambientDeclaration (start : Nat) : Parser Stmt := do
  expectWord "declare"
  under (fun mode => { mode with ambient := true }) do
    if ← startsFunction then functionDeclaration g start false .barred
    else plainDeclaration g start

/-- The declaration of a class after its decorators. -/
def decoratedClass (start : Nat) (decorators : List Expr) : Parser Stmt := do
  allowModifiers [.abstract, .declare] (← modifiers)
  classDeclaration g start decorators

end ComponentApi.Script.Parser
