import ComponentApi.Script.Parser.Declarations

/-!
# Imports and exports

Both name entries of a module, in braces or as a whole, and perhaps the module they come from. An
export can also hold a declaration. Where types may be written, single entries or all of them can be
marked as types.
-/

namespace ComponentApi.Script.Parser

variable (g : Grammar)

/-! ### Names -/

/-- A name in an import or an export, which may be any word or a string. -/
structure ModuleName where
  name : String
  span : Span
  isString : Bool

/-- Reads a word or a string as a name. -/
def wordOrString : Parser ModuleName := do
  let cursor ← get
  match cursor.token with
  | .word name _ =>
    advance
    return ⟨name, ⟨cursor.start, cursor.stop⟩, false⟩
  | .string name _ =>
    advance
    return ⟨name, ⟨cursor.start, cursor.stop⟩, true⟩
  | _ => stop

/-- Reads a name of an import or an export. A string must be well-formed. -/
def moduleName : Parser ModuleName := do
  match ← token with
  | .string _ wellFormed => require wellFormed
  | _ => pure ()
  wordOrString

/-- Whether the cursor is at a name of an import or an export. -/
def atModuleName : Parser Bool := do
  match ← token with
  | .word _ _ | .string _ _ => return true
  | _ => return false

/-- One entry of an import or an export: the name on the far side, and the name after `as`, which
is the same if there is none. -/
structure Specifier where
  start : Nat
  typeOnly : Bool
  first : ModuleName
  second : ModuleName

/-- The name after `as`, if there is one. -/
def renamed (start : Nat) (typeOnly : Bool) (first : ModuleName) : Parser Specifier := do
  if ← eatWord "as" then return ⟨start, typeOnly, first, ← moduleName⟩
  else return ⟨start, typeOnly, first, first⟩

/-- What follows `type as` in an entry: both words can be names. -/
def typeAsSpecifier (start : Nat) (type asWord : ModuleName) : Parser Specifier := do
  if ← atWord "as" then
    let again ← moduleName
    if ← atModuleName then return ⟨start, true, asWord, ← moduleName⟩
    else return ⟨start, false, type, again⟩
  else if ← atModuleName then return ⟨start, false, type, ← moduleName⟩
  else return ⟨start, true, asWord, asWord⟩

/-- One entry of an import or an export. Where types may be written, the word `type` in front of a
name marks a type. -/
def specifier : Parser Specifier := do
  let start ← position
  let first ← moduleName
  if (← isTyped) && first.name == "type" && !first.isString then
    if ← atWord "as" then typeAsSpecifier start first (← moduleName)
    else if ← atModuleName then renamed start true (← moduleName)
    else return ⟨start, false, first, first⟩
  else renamed start false first

/-- The entries of an import or an export, in braces, with the ends of their texts. Where all of
them are types, none is marked as one. -/
def specifiers (typeOnly : Bool) : Parser (List (Specifier × Nat)) := do
  expectMark "\x7b"
  let entries ← commaList "\x7d" do
    let entry ← specifier
    require (!(typeOnly && entry.typeOnly))
    return (entry, (← get).lastStop)
  expectMark "\x7d"
  return entries

/-- An attribute of a module, by its name. -/
def moduleAttribute : Parser String := do
  let key ← wordOrString
  expectMark ":"
  match ← token with
  | .string _ _ => advance
  | _ => stop
  return key.name

/-- The attributes of a module, if there are any: `with { type: 'json' }`. Each stands once. -/
def moduleAttributes : Parser Unit := do
  if (← atWord "with") || ((← atWord "assert") && !(← afterNewline)) then
    advance
    expectMark "\x7b"
    let names ← commaList "\x7d" moduleAttribute
    require names.Nodup
    expectMark "\x7d"

/-- The name of a module, with its attributes and the end of the statement. -/
def moduleSource : Parser String := do
  match ← token with
  | .string source _ =>
    advance
    moduleAttributes
    endStatement
    return source
  | _ => stop

/-! ### Imports -/

/-- The import of one name by its entry. The local name must be the name of a variable. -/
def importSpecifier (entry : Specifier) (stop : Nat) : Parser ImportSpecifier := do
  let own := entry.second
  if own.isString || !isName own.name then Parser.stop
  require (!(["await", "yield"].contains own.name))
  return ⟨⟨entry.start, stop⟩, .named entry.first.name entry.typeOnly, ⟨own.name, own.span⟩⟩

/-- The import of all names of a module as one object. -/
def importAll : Parser ImportSpecifier := do
  let start ← position
  expectMark "*"
  expectWord "as"
  let id ← bindingName
  return ⟨← spanFrom start, .wholeNamespace, id⟩

/-- The import of some names. -/
def importNames (typeOnly : Bool) : Parser (List ImportSpecifier) := do
  if ← atMark "*" then return [← importAll]
  else (← specifiers typeOnly).mapM fun (entry, stop) => importSpecifier entry stop

/-- The word between `import` and the names, if there is one: whether only types are imported. -/
def importPhase : Parser Bool := do
  let nextNext (test : Token → Bool) : Parser Bool := peek do
    advance
    advance
    return test (← token)
  let nextIsName ← nextIs fun c => isBindingToken c.token
  if (← isTyped) && (← atWord "type") then
    let fromNext ← nextIs fun c => c.token == .word "from" false
    let named ← if fromNext then nextNext fun t => t == .word "from" false || t == .mark "="
      else pure nextIsName
    if named || (← nextIs fun c => c.token == .mark "\x7b" || c.token == .mark "*") then
      advance
      return true
    return false
  if (← atWord "defer") && (← nextIs fun c => c.token == .mark "*") then advance
  else if (← atWord "source") && nextIsName && (← nextNext fun t => t == .word "from" false) then
    advance
  return false

/-- An import that names a module or a member of a namespace, from its mark on. -/
def importEquals (start : Nat) : Parser Stmt := do
  expectMark "="
  let required ← atWord "require"
  let _ ← anyName
  if required && (← atMark "(") then
    advance
    match ← token with
    | .string _ _ => advance
    | _ => stop
    expectMark ")"
  else qualifiers
  endStatement
  return .inert (← spanFrom start)

/-- An import from its names on. -/
def importRest (start : Nat) (typeOnly : Bool) : Parser Stmt := do
  let byDefault ← if isBindingToken (← token) then some <$> bindingName else pure none
  match byDefault with
  | none =>
    let names ← importNames typeOnly
    expectWord "from"
    let source ← moduleSource
    return .importFrom (← spanFrom start) ⟨typeOnly, names, source⟩
  | some id =>
    if (← isTyped) && (← atMark "=") then importEquals start
    else
      let names ← if ← eatMark "," then importNames typeOnly else pure []
      expectWord "from"
      let source ← moduleSource
      return .importFrom (← spanFrom start)
        ⟨typeOnly, ⟨id.span, .wholeDefault, id⟩ :: names, source⟩

/-- An import. -/
def importStatement : Parser Stmt := do
  let start ← position
  expectWord "import"
  match ← token with
  | .string _ _ =>
    let source ← moduleSource
    return .importFrom (← spanFrom start) ⟨false, [], source⟩
  | _ => importRest start (← importPhase)

/-! ### Exports -/

/-- The words that no variable of a module can have for its name. -/
def strictWords : List String :=
  ["await", "yield", "static", "implements", "interface", "package", "private", "protected",
   "public"]

/-- Whether an entry can refer to a variable of this module. -/
def isLocal (entry : Specifier) : Bool :=
  !entry.first.isString && isName entry.first.name && !strictWords.contains entry.first.name

/-- The export of names, in braces. -/
def exportNames (start : Nat) (typeOnly : Bool) : Parser Stmt := do
  let entries ← specifiers typeOnly
  let source ← if ← eatWord "from" then some <$> moduleSource
    else
      require (entries.all fun (entry, _) => isLocal entry)
      endStatement
      pure none
  let names := entries.map fun (entry, stop) =>
    ⟨⟨entry.start, stop⟩, entry.typeOnly, entry.first.name, entry.second.name, entry.second.span⟩
  return .exportNames (← spanFrom start) typeOnly names source

/-- The export of all names of a module. -/
def exportAll (start : Nat) : Parser Stmt := do
  expectMark "*"
  let exported ← if ← eatWord "as" then
      let name ← moduleName
      pure (some ⟨name.name, name.span⟩)
    else pure none
  expectWord "from"
  let _ ← moduleSource
  return .exportAll (← spanFrom start) exported

/-- The declaration of the default export of a function, whose name may be missing. -/
def defaultFunction : Parser Expr := do
  let start ← position
  let (isAsync, isGenerator) ← functionWords
  let id ← if isBindingToken (← token) then some <$> bindingName else pure none
  let definition ← functionRest g isAsync isGenerator .optional id
  return .functionExpr (← spanFrom start) definition

/-- The default export of a class, from its modifiers on. -/
def defaultClass (decorators : List Expr) : Parser Expr := do
  let start ← position
  let _ ← eatWord "abstract"
  let definition ← classRest g decorators
  return .classExpr (← spanFrom start) definition

/-- Whether the default export is a class. -/
def startsDefaultClass : Parser Bool := do
  if ← atWord "class" then return true
  return (← atWord "abstract") && (← nextIs fun c => !c.newline && c.token == .word "class" false)

/-- The decorators of an export: those in front of it or those in it, not both. -/
def exportDecorators (decorated : List Expr) : Parser (List Expr) := do
  let own ← decorators g
  require (decorated.isEmpty || own.isEmpty)
  return decorated ++ own

/-- The default export, from the word `default` on. -/
def exportDefault (start : Nat) (decorated : List Expr) : Parser Stmt := do
  expectWord "default"
  if (← atWord "interface") && (← nextIs fun c => !c.newline) then
    let place ← position
    interfaceDeclaration g place
  else
    let decorated ← exportDecorators g decorated
    let value ← if !decorated.isEmpty || (← startsDefaultClass) then defaultClass g decorated
      else if ← startsFunction then defaultFunction g
      else
        let value ← g.assignment
        endStatement
        pure value
    return .exportDefault (← spanFrom start) value

/-- The export of a declaration; one that starts with `declare` exports only a type. -/
def exportDeclaration (start : Nat) (decorated : List Expr) : Parser Stmt := do
  let place ← position
  if decorated.isEmpty && (← startsAmbient) then
    let declaration ← ambientDeclaration g place
    return .exportDeclaration (← spanFrom start) true declaration
  else
    let decorated ← exportDecorators g decorated
    let declaration ← if decorated.isEmpty then plainDeclaration g place
      else decoratedClass g place decorated
    return .exportDeclaration (← spanFrom start) false declaration

/-- An export that only where types may be written exists, if there is one: of a namespace, of a
member of one, of a whole module, of types. -/
def typedExport? (start : Nat) : Parser (Option Stmt) := do
  if !(← isTyped) then return none
  if ← eatMark "=" then
    let _ ← g.assignment
    endStatement
    return some (.inert (← spanFrom start))
  if (← atWord "as") && (← nextIs fun c => c.token == .word "namespace" false) then
    advance
    advance
    let _ ← bindingName
    endStatement
    return some (.inert (← spanFrom start))
  if ← eatWord "import" then
    let _ ← importPhase
    let _ ← bindingName
    return some (← importEquals start)
  if (← atWord "type") && (← nextIs fun c => c.token == .mark "\x7b") then
    advance
    return some (← exportNames start true)
  if (← atWord "type") && (← nextIs fun c => c.token == .mark "*") then
    advance
    return some (← exportAll start)
  return none

/-- An export of names, if there is one. -/
def namesExport? (start : Nat) : Parser (Option Stmt) := do
  match ← typedExport? g start with
  | some statement => return some statement
  | none =>
    if ← atMark "*" then some <$> exportAll start
    else if ← atMark "\x7b" then some <$> exportNames start false
    else return none

/-- An export. Decorators in front of it belong to the class that it exports. -/
def exportStatement (decorated : List Expr) : Parser Stmt := do
  let start ← position
  expectWord "export"
  match ← if decorated.isEmpty then namesExport? g start else pure none with
  | some statement => return statement
  | none =>
    if ← atWord "default" then exportDefault g start decorated
    else exportDeclaration g start decorated

end ComponentApi.Script.Parser
