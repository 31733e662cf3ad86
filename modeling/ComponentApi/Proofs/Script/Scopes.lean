import ComponentApi.Proofs.Script.Nodes

/-!
# Scopes

What the nodes of a script read and which names are bound there. A part of a node stands in a scope
of its own: the names that the node binds for it. A name is free in a node if it is read there and
no scope on the way to it binds it (`Node.Reads`).

The search for dependencies walks into some parts of a node and passes over the others. How it binds
names there differs from how a script does (`Scoping`): in a script a declaration holds for the
whole sequence that it stands in, and `var` for the whole function, while the walk knows only the
parameters of functions and the declarations that it has come by. The names that are free in a node
are those that are free in what is walked and those that are missed with what is passed over
(`Node.reads_iff`).
-/

namespace ComponentApi.Script

/-! ### Declared names -/

/-- The names that a binding of a declaration binds. -/
def Declarator.names : Declarator → List String
  | .mk _ pattern _ => pattern.boundNames.map (·.name)

mutual

/-- The names that a statement declares in the scope that it stands in. Variables of `var` are
declared by the statements around them too, all other names only where they are declared
themselves; without `own` they are left out. -/
def Stmt.scopeNames (own : Bool) : Stmt → List String
  | .variable _ kind declarators =>
    if own || kind == .var then declarators.flatMap Declarator.names else []
  | .function _ (.mk id _ _) | .classDef _ (.mk _ id _ _) =>
    if own then id.toList.map (·.name) else []
  | .enumeration _ id _ _ => if own then [id.name] else []
  | .namespaceBody _ path _ => if own then path.head?.toList.map (·.name) else []
  | .ifElse _ _ consequent alternate => consequent.scopeNames own ++ alternate.scopeNames own
  | .labeled _ _ body | .exportDeclaration _ _ body => body.scopeNames own
  | .block _ body => scopeNamesOfStmts false body
  | .forLoop _ first _ _ body | .forEach _ first _ body =>
    first.scopeNames false ++ body.scopeNames false
  | .whileLoop _ _ body | .doWhile _ body _ | .withObject _ _ body => body.scopeNames false
  | .switch _ _ cases => scopeNamesOfCases false cases
  | .tryCatch _ tried _ handler finalizer =>
    scopeNamesOfStmts false tried ++ scopeNamesOfStmts false handler ++
      scopeNamesOfStmts false finalizer
  | _ => []

/-- The names that statements declare in their scope. -/
def scopeNamesOfStmts (own : Bool) : List Stmt → List String
  | [] => []
  | statement :: rest => statement.scopeNames own ++ scopeNamesOfStmts own rest

/-- The names that the cases of a `switch` declare in their scope. -/
def scopeNamesOfCases (own : Bool) : List Case → List String
  | [] => []
  | .mk _ body :: rest => scopeNamesOfStmts own body ++ scopeNamesOfCases own rest

end

/-- The names that the walk knows to be bound behind a statement. -/
def Stmt.binds : Stmt → List String
  | .variable _ _ declarators => declarators.flatMap Declarator.names
  | .ifElse _ _ consequent alternate => consequent.binds ++ alternate.binds
  | _ => []

/-- The names that a function binds for its parameters and its body, beside its parameters. -/
def functionNames (isArrow : Bool) (id : Option Ident) : List String :=
  (if isArrow then [] else ["arguments"]) ++ id.toList.map (·.name)

/-! ### Parts in their scopes -/

/-- A part of a node, with the names that the node binds for it. -/
structure Part where
  scope : List String
  node : Node

/-- The part in a scope that binds further names. -/
def Part.within (names : List String) (part : Part) : Part :=
  ⟨names ++ part.scope, part.node⟩

/-- A way to bind names. -/
structure Scoping where
  /-- What a function binds beside its parameters. -/
  ofFunction : Bool → Option Ident → List String
  /-- What a statement binds for those of its sequence. -/
  ofStmt : Stmt → List String
  /-- The scope of each element of a sequence, by what each of them binds. -/
  arrange : List (List String) → List (List String)

/-- For each element, what those in front of it bind. -/
def earlier : List (List String) → List (List String)
  | [] => []
  | names :: rest => [] :: (earlier rest).map (names ++ ·)

namespace Scoping

/-- A declaration holds for its whole sequence. -/
def lexical : Scoping :=
  ⟨functionNames, Stmt.scopeNames true, fun names => names.map fun _ => names.flatten⟩

/-- A declaration holds for what follows it, and only those of variables are known. -/
def sequential : Scoping :=
  ⟨fun _ _ => [], Stmt.binds, earlier⟩

/-- The elements of a sequence, each in its scope. -/
def sequence {α : Type} (scoping : Scoping) (names : α → List String) (kind : α → Node)
    (elements : List α) : List Part :=
  List.zipWith (fun scope x => ⟨scope, kind x⟩) (scoping.arrange (elements.map names)) elements

/-- The statements of a sequence. -/
def statements (scoping : Scoping) (body : List Stmt) : List Part :=
  scoping.sequence scoping.ofStmt .stmt body

/-- The body of a function. -/
def body (scoping : Scoping) (isArrow : Bool) : Function → List Part
  | .mk id params body => (scoping.statements body).map
      (·.within (scoping.ofFunction isArrow id ++ (Function.mk id params body).paramNames))

end Scoping

/-! ### Parts that are walked -/

/-- The parts of an expression that are walked. -/
def Expr.walked (scoping : Scoping) : Expr → List Part
  | .member _ e _ | .privateMember _ e | .chain _ e | .spread _ e | .unary _ _ e | .assign _ _ _ e
  | .paren _ e | .awaiting _ e | .asType _ e | .satisfies _ e | .nonNull _ e => [⟨[], .expr e⟩]
  | .index _ a b | .binary _ _ a b | .logical _ _ a b => [⟨[], .expr a⟩, ⟨[], .expr b⟩]
  | .conditional _ test a b => [⟨[], .expr test⟩, ⟨[], .expr a⟩, ⟨[], .expr b⟩]
  | .object _ properties => properties.map (⟨[], .property ·⟩)
  | .array _ es | .sequence _ es | .template _ _ es => es.map (⟨[], .expr ·⟩)
  | .tagged _ e es | .call _ e es | .newCall _ e es => (e :: es).map (⟨[], .expr ·⟩)
  | .arrow _ definition => scoping.body true definition
  | .functionExpr _ definition => scoping.body false definition
  | _ => []

/-- The parts of a statement that are walked. -/
def Stmt.walked (scoping : Scoping) : Stmt → List Part
  | .expr _ e | .returns _ (some e) => [⟨[], .expr e⟩]
  | .variable _ _ declarators => scoping.sequence Declarator.names .declarator declarators
  | .ifElse _ test consequent alternate =>
    ⟨[], .expr test⟩ :: scoping.statements [consequent, alternate]
  | .block _ body => scoping.statements body
  | _ => []

/-- The parts of a node that are walked. -/
def Node.walked (scoping : Scoping) : Node → List Part
  | .expr e => e.walked scoping
  | .key (.computed e) | .property (.spread e) | .declarator (.mk _ _ (some e)) => [⟨[], .expr e⟩]
  | .property (.field name _ e) | .property (.method name e) => [⟨[], .key name⟩, ⟨[], .expr e⟩]
  | .stmt statement => statement.walked scoping
  | _ => []

/-! ### Parts that are passed over -/

/-- What a key reads. -/
def Key.reads : Key → List Expr
  | .computed e => [e]
  | .name _ | .privateName => []

mutual

/-- What the target of an assignment reads: the objects of members, computed keys and defaults, and
not the variables that are assigned. -/
def Expr.targetReads : Expr → List Expr
  | .ident _ | .hole _ => []
  | .paren _ e | .asType _ e | .satisfies _ e | .nonNull _ e | .typeAssertion _ e | .spread _ e =>
    e.targetReads
  | .array _ es => targetReadsOfExprs es
  | .object _ properties => targetReadsOfProperties properties
  | .assign _ _ target default => target.targetReads ++ [default]
  | e => [e]

/-- What the elements of a target read. -/
def targetReadsOfExprs : List Expr → List Expr
  | [] => []
  | e :: rest => e.targetReads ++ targetReadsOfExprs rest

/-- What the properties of a target read. -/
def targetReadsOfProperties : List Property → List Expr
  | [] => []
  | .field key _ e :: rest | .method key e :: rest =>
    key.reads ++ e.targetReads ++ targetReadsOfProperties rest
  | .spread e :: rest => e.targetReads ++ targetReadsOfProperties rest

end

/-- The parts of a parameter. The scope of a parameter does not hold for its decorators. -/
def Param.parts (scope : List String) : Param → List Part
  | .plain decorators pattern default =>
    decorators.map (⟨[], .expr ·⟩) ++ ⟨scope, .pattern pattern⟩ ::
      default.toList.map (⟨scope, .expr ·⟩)
  | .rest decorators pattern => decorators.map (⟨[], .expr ·⟩) ++ [⟨scope, .pattern pattern⟩]

/-- The parameters of a function. -/
def Function.params (isArrow : Bool) : Function → List Part
  | .mk id params body =>
    let scope := functionNames isArrow id ++ (Function.mk id params body).paramNames
    params.flatMap (Param.parts scope)

/-- The parts of a function. -/
def Function.parts (isArrow : Bool) (definition : Function) : List Part :=
  definition.params isArrow ++ Scoping.lexical.body isArrow definition

/-- The parts of a case, whose scope is that of all cases. -/
def Case.parts (scope : List String) : Case → List Part
  | .mk test body => test.toList.map (⟨scope, .expr ·⟩) ++ body.map (⟨scope, .stmt ·⟩)

/-- What stands in front of the object of a loop: a declaration, or a target. -/
def Stmt.headParts (scope : List String) : Stmt → List Part
  | .expr _ target => target.targetReads.map (⟨scope, .expr ·⟩)
  | first => [⟨scope, .stmt first⟩]

/-- The parts of an expression that are passed over. An operator of an assignment other than `=`
reads the target as well. -/
def Expr.passed : Expr → List Part
  | .arrow _ definition => definition.params true
  | .functionExpr _ definition => definition.params false
  | .classExpr _ definition => [⟨[], .classDef definition⟩]
  | .update _ e | .privateIn _ e | .yielding _ (some e) | .typeAssertion _ e
  | .instantiation _ e => [⟨[], .expr e⟩]
  | .importCall _ es => es.map (⟨[], .expr ·⟩)
  | .assign _ operator target _ =>
    if operator == "=" then target.targetReads.map (⟨[], .expr ·⟩) else [⟨[], .expr target⟩]
  | _ => []

/-- The parts of a statement that are passed over. -/
def Stmt.passed : Stmt → List Part
  | .function _ definition => definition.parts false
  | .classDef _ definition => [⟨[], .classDef definition⟩]
  | .throws _ e | .exportDefault _ e => [⟨[], .expr e⟩]
  | .forLoop _ first test update body =>
    let scope := first.scopeNames true
    ⟨scope, .stmt first⟩ :: (test.toList.map (⟨scope, .expr ·⟩) ++
      (update.toList.map (⟨scope, .expr ·⟩) ++ [⟨scope, .stmt body⟩]))
  | .forEach _ first right body =>
    let scope := first.scopeNames true
    first.headParts scope ++ [⟨scope, .expr right⟩, ⟨scope, .stmt body⟩]
  | .whileLoop _ e body | .withObject _ e body => [⟨[], .expr e⟩, ⟨[], .stmt body⟩]
  | .doWhile _ body test => [⟨[], .stmt body⟩, ⟨[], .expr test⟩]
  | .switch _ discriminant cases =>
    ⟨[], .expr discriminant⟩ :: cases.flatMap (Case.parts (scopeNamesOfCases true cases))
  | .tryCatch _ tried caught handler finalizer =>
    let scope := caught.boundNames.map (·.name)
    Scoping.lexical.statements tried ++ ⟨scope, .pattern caught⟩ ::
      ((Scoping.lexical.statements handler).map (·.within scope) ++
        Scoping.lexical.statements finalizer)
  | .labeled _ _ body | .exportDeclaration _ false body => [⟨[], .stmt body⟩]
  | .enumeration _ id members values => values.map (⟨id.name :: members, .expr ·⟩)
  | .namespaceBody _ path body =>
    (Scoping.lexical.statements body).map (·.within (path.map (·.name)))
  | _ => []

namespace Node

/-- The parts of a node that are passed over. Parameters, functions and cases are taken apart where
they stand, since their scope depends on that. -/
def passed : Node → List Part
  | .expr e => e.passed
  | .stmt statement => statement.passed
  | .declarator (.mk _ inner _) | .pattern (.rest inner) => [⟨[], .pattern inner⟩]
  | .pattern (.object _ inner) | .pattern (.array _ inner) => inner.map (⟨[], .pattern ·⟩)
  | .pattern (.property name inner) => [⟨[], .key name⟩, ⟨[], .pattern inner⟩]
  | .pattern (.withDefault _ inner default) => [⟨[], .pattern inner⟩, ⟨[], .expr default⟩]
  | .classDef (.mk decorators id parent members) =>
    let scope := id.toList.map (·.name)
    decorators.map (⟨[], .expr ·⟩) ++
      (parent.toList.map (⟨scope, .expr ·⟩) ++ members.map (⟨scope, .member ·⟩))
  | .member (.method decorators name definition) =>
    decorators.map (⟨[], .expr ·⟩) ++ ⟨[], .key name⟩ :: definition.parts false
  | .member (.field decorators name value) | .member (.accessor decorators name value) =>
    decorators.map (⟨[], .expr ·⟩) ++ ⟨[], .key name⟩ :: value.toList.map (⟨[], .expr ·⟩)
  | .member (.staticBlock body) => Scoping.lexical.statements body
  | _ => []

/-- The parts of a node. -/
def scopedParts (node : Node) : List Part :=
  node.walked .lexical ++ node.passed

/-! ### Free names -/

/-- The name is read in the node, where the listed parts do not bind it. -/
inductive Reads (parts : Node → List Part) : Node → String → Prop
  | ident (id : Ident) : Reads parts (.expr (.ident id)) id.name
  | part {node : Node} {part : Part} {name : String} (hpart : part ∈ parts node)
      (hfree : name ∉ part.scope) (h : Reads parts part.node name) : Reads parts node name

/-- The walk through the node leads to a part that is passed over, and the name is free in this part
and in the node. -/
inductive Misses : Node → String → Prop
  | here {node : Node} {part : Part} {name : String} (hpart : part ∈ node.passed)
      (hfree : name ∉ part.scope) (h : part.node.Reads scopedParts name) : Misses node name
  | part {node : Node} {part : Part} {name : String} (hpart : part ∈ node.walked .lexical)
      (hfree : name ∉ part.scope) (h : Misses part.node name) : Misses node name

/-- A free name is free in what is walked, or it is missed. -/
lemma reads_iff {node : Node} {name : String} :
    node.Reads scopedParts name ↔ node.Reads (walked .lexical) name ∨ node.Misses name := by
  constructor
  · intro h
    induction h with
    | ident id => exact .inl (.ident id)
    | part hpart hfree h ih =>
      obtain hwalked | hpassed := List.mem_append.1 hpart
      · exact ih.imp (.part hwalked hfree) (.part hwalked hfree)
      · exact .inr (.here hpassed hfree h)
  · rintro (h | h)
    · induction h with
      | ident id => exact .ident id
      | part hpart hfree _ ih => exact .part (List.mem_append_left _ hpart) hfree ih
    · induction h with
      | here hpart hfree h => exact .part (List.mem_append_right _ hpart) hfree h
      | part hpart hfree _ ih => exact .part (List.mem_append_left _ hpart) hfree ih

end Node

end ComponentApi.Script
