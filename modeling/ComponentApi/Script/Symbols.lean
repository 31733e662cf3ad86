import ComponentApi.Script.Dependencies
import ComponentApi.Script.Dispatch
import ComponentApi.Script.Params
import ComponentApi.Text.Naming

/-!
# Symbols of a script

What a script declares at its top level is documented: variables, functions, exported names,
reactive values and imports. All other statements, and the values and bodies of those, are searched
for events.
-/

namespace ComponentApi.Script

/-- What is found when an expression at the top level is searched too. -/
def Expr.searchTop (excerpt : Excerpt) (statement? : Option Nat) (e : Expr) (found : Extraction) :
    Extraction :=
  (e.search excerpt statement? { found }).found

/-- What is found when a statement at the top level is searched too. -/
def Stmt.searchTop (excerpt : Excerpt) (statement : Stmt) (found : Extraction) : Extraction :=
  (statement.search excerpt (some statement.span.start) { found }).found

/-- A comment on something that is exported, which is public unless the comment says otherwise. -/
def exportedDoc (isExported : Bool) (doc : DocComment) : DocComment :=
  if isExported && !doc.hasVisibilityKeyword then { doc with visibility := .public } else doc

/-- The type that a comment gives. -/
def documentedType? (doc : DocComment) : Option TypeExpr :=
  (doc.keyword? "type").bind fun keyword => TypeExpr.parseAnnotation? keyword.description.toList

/-- The result that a comment describes. -/
def documentedReturn? (doc : DocComment) : Option Comment.ReturnNote :=
  (doc.keyword? "returns" <|> doc.keyword? "return").map fun keyword =>
    Comment.parseReturn keyword.description.toList

/-- Where what is around a declared name starts, from the inside out. The first of these places
with a comment in front of it documents the name, unless the name has a comment itself. -/
abbrev Starts := List Nat

/-- The initial value of a variable, if the pattern is one that takes the value as a whole. -/
def simpleInit? : Pattern → Option Expr → Option Expr
  | .ident _, init => init
  | _, _ => none

/-- The item of a variable. -/
def variableItem (excerpt : Excerpt) (kind : VariableKind) (isExported : Bool) (init? : Option Expr)
    (starts : Starts) (id : Ident) : Item :=
  let doc := exportedDoc isExported (excerpt.comment (id.span.start :: starts) .private)
  .documented id.name
    (.data {
      kind? := some kind
      shared := excerpt.isShared
      readonly := kind == .const
      type? := documentedType? doc <|> init?.map fun e => .ofName e.typeName
      default? := (init?.filter Expr.isLiteral).map fun e => excerpt.slice e.span })
    doc (excerpt.location id.span)

/-- What is found in one binding of a declaration of variables. -/
def extractDeclarator (excerpt : Excerpt) (kind : VariableKind) (statement : Nat)
    (isExported : Bool) (starts : Starts) (found : Extraction) : Declarator → Extraction
  | .mk span pattern init =>
    let value? := simpleInit? pattern init
    let declaration := (value?.map Expr.declaration).getD .unknown
    let found := pattern.boundNames.foldl (fun found id =>
      (found.emit (variableItem excerpt kind isExported value? (span.start :: starts) id)).declare
        id.name declaration) found
    let found := { found with names := bindDispatcher found.names pattern init }
    match init with
    | some e => e.searchTop excerpt (some statement) found
    | none => found

/-- What is found in a declaration of a function. -/
def extractFunction (excerpt : Excerpt) (isExported : Bool) (starts : Starts)
    (definition : Function) (found : Extraction) : Extraction :=
  let found := match definition with
    | .mk (some id) _ _ =>
      let doc := exportedDoc isExported
        (excerpt.comment (id.span.start :: starts) found.settings.methodVisibility)
      let item : Item := .documented id.name
        (.method {
          params := definition.methodParams excerpt doc
          return? := documentedReturn? doc
          shared := excerpt.isShared })
        doc (excerpt.location id.span)
      (found.emit item).declare id.name .function
    | .mk none _ _ => found
  (definition.search excerpt { found }).found

/-- What is found in a declaration. An exported one is part of the statement that starts at
`export?`. -/
def extractDeclaration (excerpt : Excerpt) (export? : Option Nat) (found : Extraction) :
    Stmt → Extraction
  | .variable span kind declarators =>
    declarators.foldl (extractDeclarator excerpt kind (export?.getD span.start) export?.isSome
      (span.start :: export?.toList)) found
  | .function span definition =>
    extractFunction excerpt export?.isSome (span.start :: export?.toList) definition found
  | _ => found

/-- The item of an exported name. -/
def exportItem (excerpt : Excerpt) (start : Nat) (source? : Option String)
    (specifier : ExportSpecifier) : Item :=
  let doc := excerpt.comment [specifier.span.start, start] .public
  let detail : DataDetail := match source? with
    | some path =>
      { shared := excerpt.isShared, importPath? := some path
        remoteName? := some specifier.localName }
    | none => { shared := excerpt.isShared, localName? := some specifier.localName }
  .documented specifier.exported.name (.data detail) doc
    (excerpt.location specifier.exported.span)

/-- The name in its own module of what an import takes. -/
def ImportSpecifier.remoteName (specifier : ImportSpecifier) : String :=
  match specifier.name with
  | .named remote _ => remote
  | .wholeDefault | .wholeNamespace => specifier.localName.name

/-- Whether an import takes only a type. -/
def ImportSpecifier.isTypeOnly (specifier : ImportSpecifier) : Bool :=
  match specifier.name with
  | .named _ typeOnly => typeOnly
  | .wholeDefault | .wholeNamespace => false

/-- The detail of an imported name; the default of a module is a component if its name is that of
one. -/
def importDetail (excerpt : Excerpt) (path : String) (specifier : ImportSpecifier) : Detail :=
  let isComponent := specifier.name == .wholeDefault &&
    Text.isComponentName specifier.localName.name.toList
  if isComponent then .component path
  else
    .data { shared := excerpt.isShared, importPath? := some path
            remoteName? := some specifier.remoteName }

/-- What is found in one name of an import. -/
def extractImport (excerpt : Excerpt) (start : Nat) (path : String) (found : Extraction)
    (specifier : ImportSpecifier) : Extraction :=
  if specifier.isTypeOnly then found
  else
    let id := specifier.localName
    let remote := specifier.remoteName
    let names :=
      if path == dispatcherModule && remote == dispatcherFactory then
        found.names.addFactory id.name
      else found.names
    let doc := excerpt.comment [id.span.start, specifier.span.start, start] .private
    ({ found with names := names.record id.name (.imported path remote) }).emit
      (.documented id.name (importDetail excerpt path specifier) doc (excerpt.location id.span))

/-- The variable and the value of an assignment to a variable. -/
def assignment? : Stmt → Option (Ident × Expr)
  | .expr _ (.assign _ _ target value) =>
    match target.withoutParens with
    | .ident id => some (id, value)
    | _ => none
  | _ => none

/-- What is found in a reactive statement that starts at `start`: an assignment to a variable gives
a computed value. -/
def extractReactive (excerpt : Excerpt) (start : Nat) (body : Stmt) (found : Extraction) :
    Extraction :=
  match assignment? body with
  | some (id, value) =>
    let doc := excerpt.comment [start] .private
    let item : Item := .documented id.name
      (.computed {
        dependencies := value.dependencies
        type? := documentedType? doc
        shared := excerpt.isShared })
      doc (excerpt.location id.span)
    value.searchTop excerpt (some start) (found.emit item)
  | none => body.searchTop excerpt found

/-- What is found in a statement at the top level. -/
def extractStatement (excerpt : Excerpt) (found : Extraction) (statement : Stmt) : Extraction :=
  match statement with
  | .variable _ _ _ | .function _ _ => extractDeclaration excerpt none found statement
  | .exportDeclaration span typeOnly declaration =>
    if typeOnly then found else extractDeclaration excerpt (some span.start) found declaration
  | .exportNames span typeOnly specifiers source? =>
    if typeOnly then found
    else
      (specifiers.filter (!·.typeOnly)).foldl (fun found specifier =>
        found.emit (exportItem excerpt span.start source? specifier)) found
  | .labeled span label body =>
    if label.name == "$" then extractReactive excerpt span.start body found
    else statement.searchTop excerpt found
  | .importFrom span declaration =>
    if declaration.typeOnly then found
    else
      declaration.specifiers.foldl (extractImport excerpt span.start declaration.source) found
  | _ => statement.searchTop excerpt found

/-- What is found in a whole script. -/
def extractStatements (excerpt : Excerpt) (statements : List Stmt) (found : Extraction) :
    Extraction :=
  statements.foldl (extractStatement excerpt) found

end ComponentApi.Script
