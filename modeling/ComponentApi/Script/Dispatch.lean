import ComponentApi.Extraction
import ComponentApi.Script.Excerpt
import ComponentApi.Script.Scope
import ComponentApi.Script.Value

/-!
# Dispatched events

Scripts are searched at all depths for calls that dispatch events. Below the top level nothing else
is documented; what functions declare is kept only while they are searched, to find the names of
the events.
-/

namespace ComponentApi.Script

/-- What a function declares. -/
abbrev Frame := Assoc String Declaration

/-- The state of a search. -/
structure Search where
  found : Extraction
  /-- What the functions around the place declare, the innermost first. -/
  frames : List Frame := []
  deriving Inhabited

/-- The name of an event whose name cannot be found. -/
def unresolvedName : String := "****unhandled-event-name****"

/-- The names in which a variable with an initial value is known to dispatch events or to make
dispatchers, if the value shows it. -/
def bindDispatcher (names : NameTable) : Pattern → (init : Option Expr) → NameTable
  | .ident id, some init =>
    match init.withoutParens with
    | .call _ (.ident callee) _ =>
      if names.isFactory callee.name then names.addDispatcher id.name else names
    | .ident target =>
      let names := if names.isDispatcher target.name then names.addDispatcher id.name else names
      if names.isFactory target.name then names.addFactory id.name else names
    | _ => names
  | _, _ => names

namespace Search

/-- The search after a declaration in the innermost function, if there is one. -/
def declare (search : Search) (name : String) (declaration : Declaration) : Search :=
  match search.frames with
  | [] => search
  | frame :: frames => { search with frames := frame.put name declaration :: frames }

/-- The search after declarations that cannot be seen through. -/
def declareUnknown (search : Search) (names : List String) : Search :=
  names.foldl (fun search name => search.declare name .unknown) search

/-- What a name stands for: the nearest function around the place that declares it decides. -/
def lookup (search : Search) (name : String) : Option Declaration :=
  search.frames.findSome? (·.get? name) <|> search.found.names.declaration? name

/-- The search inside a function with the given parameters. -/
def enter (search : Search) (params : List String) : Search :=
  { search with frames := [] :: search.frames }.declareUnknown params

/-- The search after a function: what the innermost function declares is forgotten. -/
def leave (search : Search) : Search :=
  { search with frames := search.frames.tail }

/-- Whether a call of the expression dispatches an event: a dispatcher, or a member of its name. -/
def isDispatch (search : Search) (callee : Expr) : Bool :=
  match callee.withoutParens with
  | .ident id => search.found.names.isDispatcher id.name
  | .member _ _ property => search.found.names.isDispatcher property.name
  | _ => false

/-- The name of the event that an argument gives. -/
def eventName? (search : Search) (argument : Expr) : Option String :=
  argument.text? <|> argument.path?.bind (Declaration.resolvePath? search.lookup)

end Search

/-- The first argument of a call, unless it is a spread. -/
def firstArgument? : List Expr → Option Expr
  | [] | .spread _ _ :: _ => none
  | e :: _ => some e

/-- The search after a call that dispatches an event. The comment in front of the call or of its
statement documents the event; a keyword `event` in it gives the name. -/
def Search.dispatch (search : Search) (excerpt : Excerpt) (statement? : Option Nat) (span : Span)
    (arguments : List Expr) : Search :=
  let first? := firstArgument? arguments
  let place := (first?.map Expr.span).getD span
  let location := excerpt.location place
  let doc := excerpt.comment (span.start :: statement?.toList) .public
  let documented? := (doc.keyword? "event").map fun keyword =>
    (Text.firstWord? keyword.description.toList).map String.ofList
  let found := match documented? with
    | some none => search.found.report ⟨.emptyEventKeyword, location⟩
    | _ => search.found
  let name? := documented?.join <|> first?.bind search.eventName?
  let found := match name? with
    | some _ => found
    | none =>
      let argument := (first?.map fun (e : Expr) => excerpt.slice e.span).getD ""
      found.report ⟨.unresolvedEventName argument, location⟩
  { search with
    found := found.emit (.documented (name?.getD unresolvedName) (.event {}) doc location) }

/-- The search after a call itself, before its parts are searched. -/
def Search.call (search : Search) (excerpt : Excerpt) (statement? : Option Nat) (span : Span)
    (callee : Expr) (arguments : List Expr) : Search :=
  if search.isDispatch callee then search.dispatch excerpt statement? span arguments else search

/-- The search after the names of a binding inside a statement. -/
def Search.bind (search : Search) (pattern : Pattern) (init : Option Expr) : Search :=
  let search := { search with
    found := { search.found with names := bindDispatcher search.found.names pattern init } }
  match pattern, init with
  | .ident id, some e => search.declare id.name e.declaration
  | pattern, _ => search.declareUnknown (pattern.boundNames.map (·.name))

mutual

/-- Searches an expression in the statement that starts at `statement?`. -/
def Expr.search (excerpt : Excerpt) (statement? : Option Nat) : Expr → Search → Search
  | .call span callee arguments, search =>
    searchExprs excerpt statement? arguments
      (callee.search excerpt statement? (search.call excerpt statement? span callee arguments))
  | .newCall _ e es, search | .tagged _ e es, search =>
    searchExprs excerpt statement? es (e.search excerpt statement? search)
  | .arrow _ definition, search | .functionExpr _ definition, search =>
    definition.search excerpt search
  | .classExpr _ definition, search => definition.search excerpt statement? search
  | .chain _ (.privateMember _ e), search => e.search excerpt statement? search
  | .member _ e _, search | .chain _ e, search | .spread _ e, search | .awaiting _ e, search
  | .yielding _ (some e), search | .unary _ _ e, search | .paren _ e, search
  | .assign _ _ _ e, search | .asType _ e, search | .satisfies _ e, search
  | .nonNull _ e, search => e.search excerpt statement? search
  | .index _ a b, search | .binary _ _ a b, search | .logical _ _ a b, search =>
    b.search excerpt statement? (a.search excerpt statement? search)
  | .conditional _ test a b, search =>
    b.search excerpt statement?
      (a.search excerpt statement? (test.search excerpt statement? search))
  | .array _ es, search | .template _ _ es, search | .sequence _ es, search =>
    searchExprs excerpt statement? es search
  | .object _ properties, search => searchProperties excerpt statement? properties search
  | _, search => search

/-- Searches expressions, one after the other. -/
def searchExprs (excerpt : Excerpt) (statement? : Option Nat) : List Expr → Search → Search
  | [], search => search
  | e :: rest, search =>
    searchExprs excerpt statement? rest (e.search excerpt statement? search)

/-- Searches the values of the properties of an object. -/
def searchProperties (excerpt : Excerpt) (statement? : Option Nat) :
    List Property → Search → Search
  | [], search => search
  | .field _ _ e :: rest, search | .method _ e :: rest, search | .spread e :: rest, search =>
    searchProperties excerpt statement? rest (e.search excerpt statement? search)

/-- Searches the body of a function. -/
def Function.search (excerpt : Excerpt) : Function → Search → Search
  | .mk id params body, search =>
    (searchStmts excerpt body (search.enter (Function.mk id params body).paramNames)).leave

/-- Searches the methods and the values of the fields of a class. -/
def Class.search (excerpt : Excerpt) (statement? : Option Nat) : Class → Search → Search
  | .mk _ _ _ members, search => searchMembers excerpt statement? members search

/-- Searches the members of a class. -/
def searchMembers (excerpt : Excerpt) (statement? : Option Nat) : List Member → Search → Search
  | [], search => search
  | .method _ _ definition :: rest, search =>
    searchMembers excerpt statement? rest (definition.search excerpt search)
  | .field _ _ (some e) :: rest, search =>
    searchMembers excerpt statement? rest (e.search excerpt statement? search)
  | _ :: rest, search => searchMembers excerpt statement? rest search

/-- Searches the bindings of a declaration inside a statement. -/
def searchDeclarators (excerpt : Excerpt) (statement? : Option Nat) :
    List Declarator → Search → Search
  | [], search => search
  | .mk _ pattern init :: rest, search =>
    let search := search.bind pattern init
    let search := match init with
      | some e => e.search excerpt statement? search
      | none => search
    searchDeclarators excerpt statement? rest search

/-- Searches a statement as a part of the one that starts at `statement?`. -/
def Stmt.search (excerpt : Excerpt) (statement? : Option Nat) : Stmt → Search → Search
  | .expr _ e, search | .returns _ (some e), search | .throws _ e, search =>
    e.search excerpt statement? search
  | .variable _ _ declarators, search => searchDeclarators excerpt statement? declarators search
  | .function _ (.mk id params body), search =>
    let search := match id with
      | some id => search.declare id.name .function
      | none => search
    (searchStmts excerpt body (search.enter (Function.mk id params body).paramNames)).leave
  | .classDef _ (.mk _ id _ members), search =>
    let search := match id with
      | some id => search.declare id.name .unknown
      | none => search
    searchMembers excerpt statement? members search
  | .block _ body, search => searchStmts excerpt body search
  | .ifElse _ test consequent alternate, search =>
    let search := test.search excerpt statement? search
    let search := consequent.search excerpt (some consequent.span.start) search
    alternate.search excerpt (some alternate.span.start) search
  | .forLoop _ init test update body, search =>
    let search := init.search excerpt statement? search
    let search := match test with
      | some e => e.search excerpt statement? search
      | none => search
    let search := match update with
      | some e => e.search excerpt statement? search
      | none => search
    body.search excerpt (some body.span.start) search
  | .forEach _ (.variable _ _ declarators) right body, search =>
    let search := searchDeclarators excerpt statement? declarators search
    let search := right.search excerpt statement? search
    body.search excerpt (some body.span.start) search
  | .forEach _ _ e body, search | .whileLoop _ e body, search | .withObject _ e body, search =>
    body.search excerpt (some body.span.start) (e.search excerpt statement? search)
  | .doWhile _ body test, search =>
    test.search excerpt statement? (body.search excerpt (some body.span.start) search)
  | .switch _ discriminant cases, search =>
    searchCases excerpt statement? cases (discriminant.search excerpt statement? search)
  | .tryCatch _ tried _ handler finalizer, search =>
    searchStmts excerpt finalizer (searchStmts excerpt handler (searchStmts excerpt tried search))
  | .labeled _ _ body, search => body.search excerpt (some body.span.start) search
  | _, search => search

/-- Searches the cases of a `switch`. -/
def searchCases (excerpt : Excerpt) (statement? : Option Nat) : List Case → Search → Search
  | [], search => search
  | .mk test body :: rest, search =>
    let search := match test with
      | some e => e.search excerpt statement? search
      | none => search
    searchCases excerpt statement? rest (searchStmts excerpt body search)

/-- Searches statements, each on its own. -/
def searchStmts (excerpt : Excerpt) : List Stmt → Search → Search
  | [], search => search
  | statement :: rest, search =>
    searchStmts excerpt rest (statement.search excerpt (some statement.span.start) search)

end

end ComponentApi.Script
