import ComponentApi.Script.Parser.Patterns

/-!
# Classes

What a class extends and implements, and its members with the modifiers in front of them.
-/

namespace ComponentApi.Script.Parser

variable (g : Grammar)

/-! ### Methods and accessors -/

/-- The word that makes a method an accessor. -/
inductive Access where
  | get
  | set
  deriving DecidableEq, Repr

/-- The accessor that the word at the cursor starts, if the name of a property follows it. -/
def access? : Parser (Option Access) := do
  let access := match ← token with
    | .word "get" _ => some Access.get
    | .word "set" _ => some Access.set
    | _ => none
  if access.isSome && (← nextIs fun c => startsPropertyName c.token) then return access
  else return none

/-- The parameters of a function. -/
def paramsOf : Function → List Param
  | .mk _ params _ => params

/-- The checks on the parameters of an accessor: none to get, one to set. -/
def checkAccess (access : Access) (definition : Function) : Parser Unit :=
  match access, paramsOf definition with
  | .get, params => require params.isEmpty
  | .set, [.plain _ _ _] => pure ()
  | .set, _ => flaw

/-- The checks on the name of a member: `constructor` is for plain and for static methods, and
`prototype` is not for static members. -/
def checkMemberName (found : List Modifier) (mayConstruct : Bool) (key : Key) : Parser Unit :=
  match key with
  | .name "constructor" => require mayConstruct
  | .name "prototype" => require (!found.contains .static)
  | _ => pure ()

/-- The name of a member. It must not be `#constructor`, and where types may be written, no
modifier tells from where a member with a private name may be used. -/
def memberKey (found : List Modifier) : Parser Key := do
  require ((← token) != .privateName "constructor")
  let key ← propertyKey g
  if (← isTyped) && key.isPrivate then require (!found.any Modifier.accessibility.contains)
  return key

/-- The modifiers that a method or an accessor must not have. -/
def barredOnMethods : List Modifier :=
  [.const, .declare, .export, .in, .out, .readonly]

/-- An accessor of a class, from the word in front of its name on. -/
def accessorMember (decorators : List Expr) (found : List Modifier) (access : Access) :
    Parser Member := do
  advanceKeyword
  let key ← memberKey g found
  let definition ← functionRest g false false .optional none
  checkAccess access definition
  checkMemberName found (found.contains .static) key
  require (!found.any fun modifier => modifier == .async || barredOnMethods.contains modifier)
  return .method decorators key definition

/-- The constructor of a class, from its name on. It has neither parameters of types nor the
parameter `this`. -/
def constructorMember (decorators : List Expr) (found : List Modifier) : Parser Member := do
  let key ← propertyKey g
  require ((← atMark "(") && !(← takesThis))
  let definition ← functionRest g false false .optional none
  allowModifiers Modifier.accessibility found
  return .method decorators key definition

/-- Whether the cursor is at the name of a constructor. -/
def atConstructor : Parser Bool := do
  match ← token with
  | .word "constructor" _ => return true
  | .string "constructor" _ => nextIs fun c => c.token == .mark "("
  | _ => return false

/-- A method of a class, from its parameters on. -/
def methodMember (decorators : List Expr) (found : List Modifier) (isGenerator : Bool) (key : Key) :
    Parser Member := do
  let isAsync := found.contains .async
  let definition ← functionRest g isAsync isGenerator .optional none
  checkMemberName found (found.contains .static || !(isAsync || isGenerator)) key
  require (!found.any barredOnMethods.contains)
  return .method decorators key definition

/-! ### Fields -/

/-- The checks on the modifiers of a field. One with accessors of its own has fewer of them, and
must not be optional. -/
def checkField (found : List Modifier) (optional : Bool) : Parser Unit := do
  require (!found.any [.const, .export, .in, .out].contains)
  if found.contains .accessor then
    allowModifiers (Modifier.accessibility ++ [.accessor, .static, .abstract, .override]) found
    require (!optional)

/-- A field of a class, from what follows its name on. -/
def fieldMember (decorators : List Expr) (found : List Modifier) (optional : Bool) (key : Key) :
    Parser Member := do
  if !optional && !(← afterNewline) then let _ ← eatMark "!"
  checkMemberName found false key
  checkField found optional
  typeAnnotation g
  let value ← if ← eatMark "=" then
      some <$> under (fun mode => { functionMode false false mode with allowIn := true })
        g.assignment
    else pure none
  endStatement
  return if found.contains .accessor then .accessor decorators key value
    else .field decorators key value

/-! ### Members -/

/-- A method or a field of a class, from its name on. -/
def plainMember (decorators : List Expr) (found : List Modifier) : Parser Member := do
  let isGenerator ← eatMark "*"
  let key ← memberKey g found
  let optional ← eatMark "?"
  if isGenerator || (← atMarks ["(", "<"]) then methodMember g decorators found isGenerator key
  else fieldMember g decorators found optional key

/-- An index signature in a class; nothing if there is none. -/
def classIndex (found : List Modifier) : Parser (Option Unit) := do
  if !(← isTyped) || !(← atMark "[") then return none
  let index ← attempt (indexSignature g)
  if index.isSome then
    allowModifiers [.static, .readonly] found
    endTypeMember
  return index

/-- Statements that run when the class is made. -/
def staticBlock : Parser Member := do
  expectWord "static"
  let body ← under (fun mode => { functionMode true false mode with allowReturn := false })
    (block g)
  return .staticBlock body

/-- A member of a class from what follows its modifiers on; nothing for what leaves no member. -/
def memberRest (decorators : List Expr) (found : List Modifier) : Parser (Option Member) := do
  if (← atWord "static") && (← nextIs fun c => c.token == .mark "\x7b") then
    require (decorators.isEmpty && found.isEmpty)
    return some (← staticBlock g)
  if let some access ← access? then return some (← accessorMember g decorators found access)
  if !found.contains .static && (← atConstructor) then
    return some (← constructorMember g decorators found)
  if (← classIndex g found).isSome then return none
  return some (← plainMember g decorators found)

/-- A member of a class; nothing for what leaves no member. -/
def member : Parser (Option Member) := do
  if ← eatMark ";" then return none
  let decorators ← decorators g
  memberRest g decorators (← modifiers)

/-! ### Classes -/

/-- The types that a class implements. -/
def implementsClause : Parser Unit := do
  if ← isTyped <&&> eatWord "implements" then
    let _ ← commaSeparated (typeReference g)

/-- A class from the word `class` on. Its name may be missing. -/
def classRest (decorators : List Expr) : Parser Class := do
  expectWord "class"
  let isNamed := isBindingToken (← token) && !(← atWord "implements")
  let id ← if isNamed then some <$> bindingName else pure none
  typeParameters g
  let parent ← if ← eatWord "extends" then some <$> g.operand else pure none
  if parent.isSome && (← atAngle) then typeArguments g
  implementsClause g
  expectMark "\x7b"
  let members ← untilMark "\x7d" (member g)
  return .mk decorators id parent (members.filterMap fun m => m)

end ComponentApi.Script.Parser
