import ComponentApi.Proofs.Script.Outline

/-!
# Nodes and their parts

Every node of the tree of a script has parts that run when the script does. The search for events
goes into some of them (`Node.searched`) and passes over the others (`Node.skipped`). A node has a
call if the call is found by going from parts to parts (`Node.Has`). A call that a node has is met
by the search or stands in a part that is skipped (`Node.Has.met_or_skipped`), and the calls that
are met are those of `Expr.calls` and its companions (`Node.has_of_mem_calls`).

At the top level of a script an exported declaration is read like one that is not, if it is one of
variables or of a function. All other exports are passed over.
-/

namespace ComponentApi.Script

/-- A node of the tree of a script. -/
inductive Node where
  | expr (e : Expr)
  | key (key : Key)
  | property (property : Property)
  | pattern (pattern : Pattern)
  | param (param : Param)
  | function (definition : Function)
  | classDef (definition : Class)
  | member (member : Member)
  | declarator (declarator : Declarator)
  | switchCase (branch : Case)
  | stmt (statement : Stmt)

/-! ### Parts -/

/-- The parts of an expression that are searched. -/
def Expr.searched : Expr → List Node
  | .call _ e es | .newCall _ e es | .tagged _ e es => .expr e :: es.map .expr
  | .arrow _ definition | .functionExpr _ definition => [.function definition]
  | .classExpr _ definition => [.classDef definition]
  | .chain _ (.privateMember _ e) => [.expr e]
  | .member _ e _ | .chain _ e | .spread _ e | .awaiting _ e | .yielding _ (some e)
  | .unary _ _ e | .paren _ e | .assign _ _ _ e | .asType _ e | .satisfies _ e
  | .nonNull _ e => [.expr e]
  | .index _ a b | .binary _ _ a b | .logical _ _ a b => [.expr a, .expr b]
  | .conditional _ test a b => [.expr test, .expr a, .expr b]
  | .array _ es | .template _ _ es | .sequence _ es => es.map .expr
  | .object _ properties => properties.map .property
  | _ => []

/-- The parts of a statement that are searched. -/
def Stmt.searched : Stmt → List Node
  | .expr _ e | .returns _ (some e) | .throws _ e => [.expr e]
  | .variable _ _ declarators => declarators.map .declarator
  | .function _ definition => [.function definition]
  | .classDef _ definition => [.classDef definition]
  | .block _ body => body.map .stmt
  | .ifElse _ test consequent alternate => [.expr test, .stmt consequent, .stmt alternate]
  | .forLoop _ init test update body =>
    .stmt init :: (test.toList.map .expr ++ (update.toList.map .expr ++ [.stmt body]))
  | .forEach _ (.variable span kind declarators) right body =>
    [.stmt (.variable span kind declarators), .expr right, .stmt body]
  | .forEach _ _ e body | .whileLoop _ e body | .withObject _ e body => [.expr e, .stmt body]
  | .doWhile _ body test => [.stmt body, .expr test]
  | .switch _ discriminant cases => .expr discriminant :: cases.map .switchCase
  | .tryCatch _ tried _ handler finalizer =>
    tried.map .stmt ++ (handler.map .stmt ++ finalizer.map .stmt)
  | .labeled _ _ body => [.stmt body]
  | _ => []

namespace Node

/-- The parts of a node that are searched. -/
def searched : Node → List Node
  | .expr e => e.searched
  | .property (.field _ _ e) | .property (.method _ e) | .property (.spread e) => [.expr e]
  | .function (.mk _ _ body) => body.map .stmt
  | .classDef (.mk _ _ _ members) => members.map .member
  | .member (.method _ _ definition) => [.function definition]
  | .member (.field _ _ value) => value.toList.map .expr
  | .declarator (.mk _ _ init) => init.toList.map .expr
  | .switchCase (.mk test body) => test.toList.map .expr ++ body.map .stmt
  | .stmt statement => statement.searched
  | .key _ | .pattern _ | .param _ | .member _ => []

/-- The parts of a node that run and are not searched. -/
def skipped : Node → List Node
  | .expr (.assign _ _ target _) => [.expr target]
  | .expr (.update _ e) | .expr (.privateIn _ e) | .expr (.privateMember _ e)
  | .expr (.typeAssertion _ e) | .expr (.instantiation _ e) => [.expr e]
  | .expr (.importCall _ es) => es.map .expr
  | .key (.computed e) => [.expr e]
  | .property (.field name _ _) | .property (.method name _) => [.key name]
  | .pattern (.object _ inner) | .pattern (.array _ inner) => inner.map .pattern
  | .pattern (.property name inner) => [.key name, .pattern inner]
  | .pattern (.rest inner) => [.pattern inner]
  | .pattern (.withDefault _ inner default) => [.pattern inner, .expr default]
  | .param (.plain decorators inner default) =>
    decorators.map .expr ++ .pattern inner :: default.toList.map .expr
  | .param (.rest decorators inner) => decorators.map .expr ++ [.pattern inner]
  | .function (.mk _ params _) => params.map .param
  | .classDef (.mk decorators _ parent _) => decorators.map .expr ++ parent.toList.map .expr
  | .member (.method decorators name _) | .member (.field decorators name _) =>
    decorators.map .expr ++ [.key name]
  | .member (.accessor decorators name value) =>
    decorators.map .expr ++ .key name :: value.toList.map .expr
  | .member (.staticBlock body) => body.map .stmt
  | .declarator (.mk _ left _) => [.pattern left]
  | .stmt (.forEach _ (.variable _ _ _) _ _) => []
  | .stmt (.forEach _ left _ _) => [.stmt left]
  | .stmt (.tryCatch _ _ caught _ _) => [.pattern caught]
  | .stmt (.enumeration _ _ _ values) => values.map .expr
  | .stmt (.namespaceBody _ _ body) => body.map .stmt
  | .stmt (.exportDeclaration _ false declaration) => [.stmt declaration]
  | .stmt (.exportDefault _ value) => [.expr value]
  | _ => []

/-- The parts of a node that run. -/
def parts (node : Node) : List Node :=
  node.searched ++ node.skipped

/-- The call is that of the node, or one that the listed parts of the node have. -/
inductive Has (parts : Node → List Node) : Node → Call → Prop
  | call (span : Span) (callee : Expr) (arguments : List Expr) :
      Has parts (.expr (.call span callee arguments)) ⟨span, callee, arguments⟩
  | part {node part : Node} {call : Call} (hpart : part ∈ parts node) (h : Has parts part call) :
      Has parts node call

/-- The search of the node leads to a part that is skipped, and this part has the call. -/
inductive Skips : Node → Call → Prop
  | here {node part : Node} {call : Call} (hpart : part ∈ node.skipped)
      (h : part.Has parts call) : Skips node call
  | part {node part : Node} {call : Call} (hpart : part ∈ node.searched) (h : Skips part call) :
      Skips node call

/-- A call in the parts of a node that run is met by the search, or it stands in a part that is
skipped. -/
lemma Has.met_or_skipped {node : Node} {call : Call} (h : node.Has parts call) :
    node.Has searched call ∨ node.Skips call := by
  induction h with
  | call span callee arguments => exact .inl (.call span callee arguments)
  | part hpart h ih =>
    obtain hsearched | hskipped := List.mem_append.1 hpart
    · exact ih.imp (.part hsearched) (.part hsearched)
    · exact .inr (.here hskipped h)

/-! ### Calls that are met -/

/-- The calls that the search of a node meets. -/
def calls : Node → List Call
  | .expr e => e.calls
  | .property entry => callsOfProperties [entry]
  | .function definition => definition.calls
  | .classDef definition => definition.calls
  | .member entry => callsOfMembers [entry]
  | .declarator entry => callsOfDeclarators [entry]
  | .switchCase entry => callsOfCases [entry]
  | .stmt statement => statement.calls
  | .key _ | .pattern _ | .param _ => []

end Node

/-- The call that a node is itself. -/
def Node.own : Node → List Call
  | .expr (.call span callee arguments) => [⟨span, callee, arguments⟩]
  | _ => []

/-- The calls in expressions are those of the expressions as nodes. -/
lemma callsOfExprs_eq (es : List Expr) :
    callsOfExprs es = (es.map Node.expr).flatMap Node.calls := by
  induction es with
  | nil => rfl
  | cons e rest ih => rw [callsOfExprs, ih, List.map_cons, List.flatMap_cons, Node.calls]

/-- The calls in statements are those of the statements as nodes. -/
lemma callsOfStmts_eq (statements : List Stmt) :
    callsOfStmts statements = (statements.map Node.stmt).flatMap Node.calls := by
  induction statements with
  | nil => rfl
  | cons statement rest ih =>
    rw [callsOfStmts, ih, List.map_cons, List.flatMap_cons, Node.calls]

/-- The calls in properties are those of the properties as nodes. -/
lemma callsOfProperties_eq (properties : List Property) :
    callsOfProperties properties = (properties.map Node.property).flatMap Node.calls := by
  induction properties with
  | nil => rfl
  | cons entry rest ih =>
    rw [List.map_cons, List.flatMap_cons, ← ih]
    cases entry <;> exact congrArg (· ++ callsOfProperties rest) (List.append_nil _).symm

/-- The calls in members are those of the members as nodes. -/
lemma callsOfMembers_eq (members : List Member) :
    callsOfMembers members = (members.map Node.member).flatMap Node.calls := by
  induction members with
  | nil => rfl
  | cons entry rest ih =>
    rw [List.map_cons, List.flatMap_cons, ← ih]
    cases entry with
    | method => exact congrArg (· ++ callsOfMembers rest) (List.append_nil _).symm
    | field _ _ value =>
      cases value with
      | none => rfl
      | some e => exact congrArg (· ++ callsOfMembers rest) (List.append_nil _).symm
    | accessor | staticBlock => rfl

/-- The calls in bindings are those of the bindings as nodes. -/
lemma callsOfDeclarators_eq (declarators : List Declarator) :
    callsOfDeclarators declarators = (declarators.map Node.declarator).flatMap Node.calls := by
  induction declarators with
  | nil => rfl
  | cons entry rest ih =>
    rw [List.map_cons, List.flatMap_cons, ← ih]
    obtain ⟨_, _, init⟩ := entry
    cases init with
    | none => rfl
    | some e => exact congrArg (· ++ callsOfDeclarators rest) (List.append_nil _).symm

/-- The calls in cases are those of the cases as nodes. -/
lemma callsOfCases_eq (branches : List Case) :
    callsOfCases branches = (branches.map Node.switchCase).flatMap Node.calls := by
  induction branches with
  | nil => rfl
  | cons entry rest ih =>
    rw [List.map_cons, List.flatMap_cons, ← ih]
    obtain ⟨test, _⟩ := entry
    cases test <;> simp [callsOfCases, Node.calls]

/-- The calls of an expression are itself, if it is one, and those of its parts. -/
lemma Expr.calls_eq (e : Expr) :
    e.calls = (Node.expr e).own ++ e.searched.flatMap Node.calls := by
  have hlast := fun last => (List.flatMap_singleton Node.calls last).symm
  cases e with
  | call span e es =>
    exact congrArg (fun rest => ⟨span, e, es⟩ :: (e.calls ++ rest)) (callsOfExprs_eq es)
  | newCall span e es | tagged span e es => exact congrArg (e.calls ++ ·) (callsOfExprs_eq es)
  | array span es | template span _ es | sequence span es => exact callsOfExprs_eq es
  | object span properties => exact callsOfProperties_eq properties
  | member | arrow | functionExpr | classExpr | spread | awaiting | unary | paren | assign | asType
  | satisfies | nonNull => exact (List.append_nil _).symm
  | chain span inner => cases inner <;> exact (List.append_nil _).symm
  | yielding span value =>
    cases value with
    | none => rfl
    | some e => exact (List.append_nil _).symm
  | index span a b | binary span _ a b | logical span _ a b =>
    exact congrArg (a.calls ++ ·) (hlast (.expr b))
  | conditional span test a b =>
    exact congrArg (fun rest => test.calls ++ (a.calls ++ rest)) (hlast (.expr b))
  | _ => rfl

/-- The calls of a statement are those of its parts. -/
lemma Stmt.calls_eq (statement : Stmt) :
    statement.calls = statement.searched.flatMap Node.calls := by
  have hlast := fun last => (List.flatMap_singleton Node.calls last).symm
  cases statement with
  | expr | throws | labeled => exact (List.append_nil _).symm
  | returns span value =>
    cases value with
    | none => rfl
    | some e => exact (List.append_nil _).symm
  | «variable» span kind declarators => exact callsOfDeclarators_eq declarators
  | function span definition =>
    obtain ⟨id, params, body⟩ := definition
    exact hlast (.function (.mk id params body))
  | classDef span definition =>
    obtain ⟨decorators, id, parent, members⟩ := definition
    exact hlast (.classDef (.mk decorators id parent members))
  | block span body => exact callsOfStmts_eq body
  | ifElse span test consequent alternate =>
    exact congrArg (fun rest => test.calls ++ (consequent.calls ++ rest)) (hlast (.stmt alternate))
  | forLoop span init test update body =>
    have hbody := hlast (.stmt body)
    cases test with
    | none =>
      cases update with
      | none => exact congrArg (init.calls ++ ·) hbody
      | some update => exact congrArg (fun rest => init.calls ++ (update.calls ++ rest)) hbody
    | some test =>
      cases update with
      | none => exact congrArg (fun rest => init.calls ++ (test.calls ++ rest)) hbody
      | some update =>
        exact congrArg (fun rest => init.calls ++ (test.calls ++ (update.calls ++ rest))) hbody
  | forEach span left right body =>
    have hbody := hlast (.stmt body)
    cases left with
    | «variable» _ _ declarators =>
      exact congrArg (fun rest => callsOfDeclarators declarators ++ (right.calls ++ rest)) hbody
    | _ => exact congrArg (right.calls ++ ·) hbody
  | whileLoop span e body | withObject span e body =>
    exact congrArg (e.calls ++ ·) (hlast (.stmt body))
  | doWhile span body test => exact congrArg (body.calls ++ ·) (hlast (.expr test))
  | switch span discriminant branches =>
    exact congrArg (discriminant.calls ++ ·) (callsOfCases_eq branches)
  | tryCatch span tried caught handler finalizer =>
    rw [Stmt.searched, List.flatMap_append, List.flatMap_append, ← callsOfStmts_eq,
      ← callsOfStmts_eq, ← callsOfStmts_eq]
    rfl
  | _ => rfl

/-- The calls of a node are itself, if it is one, and those of its parts. -/
lemma Node.calls_eq (node : Node) :
    node.calls = node.own ++ node.searched.flatMap Node.calls := by
  cases node with
  | expr e => exact e.calls_eq
  | property entry => cases entry <;> rfl
  | function definition =>
    obtain ⟨id, params, body⟩ := definition
    exact callsOfStmts_eq body
  | classDef definition =>
    obtain ⟨decorators, id, parent, members⟩ := definition
    exact callsOfMembers_eq members
  | member entry =>
    cases entry with
    | field _ _ value => cases value <;> rfl
    | _ => rfl
  | declarator entry =>
    obtain ⟨span, pattern, init⟩ := entry
    cases init <;> rfl
  | switchCase entry =>
    obtain ⟨test, body⟩ := entry
    have hbody : callsOfStmts body ++ [] = (body.map Node.stmt).flatMap Node.calls := by
      rw [List.append_nil, callsOfStmts_eq]
    cases test with
    | none => exact hbody
    | some e => exact congrArg (e.calls ++ ·) hbody
  | stmt statement => exact statement.calls_eq
  | _ => rfl

/-! ### A part is smaller than its node -/

/-- The elements of a list are smaller than it, also as nodes. -/
lemma sizeOf_lt_of_mem_map {α : Type} [SizeOf α] {kind : α → Node} {list : List α} {part : Node}
    (hkind : ∀ x, sizeOf (kind x) = 1 + sizeOf x) (h : part ∈ list.map kind) :
    sizeOf part < 1 + sizeOf list := by
  obtain ⟨x, hx, rfl⟩ := List.mem_map.1 h
  rw [hkind]
  have hlt := List.sizeOf_lt_of_mem hx
  omega

/-- The searched parts of an expression are smaller than it. -/
lemma Expr.sizeOf_searched {e : Expr} {part : Node} (h : part ∈ e.searched) :
    sizeOf part < 1 + sizeOf e := by
  have hexprs := fun es => @sizeOf_lt_of_mem_map _ _ _ es part Node.expr.sizeOf_spec
  have hproperties := fun es => @sizeOf_lt_of_mem_map _ _ _ es part Node.property.sizeOf_spec
  cases e with
  | chain span inner =>
    cases inner <;>
      simp only [Expr.searched, List.mem_cons, List.not_mem_nil, or_false] at h <;> grind
  | yielding span value =>
    cases value with
    | none => cases h
    | some e =>
      cases List.mem_singleton.1 h
      grind
  | arrow | functionExpr | classExpr | member | spread | awaiting | unary | paren | assign | asType
  | satisfies | nonNull =>
    cases List.mem_singleton.1 h
    grind
  | call | newCall | tagged | index | binary | logical | conditional | array | template | sequence
  | object =>
    simp only [Expr.searched, List.mem_cons, List.not_mem_nil, or_false] at h
    grind
  | _ => cases h

/-- The searched parts of a statement are smaller than it. -/
lemma Stmt.sizeOf_searched {statement : Stmt} {part : Node} (h : part ∈ statement.searched) :
    sizeOf part < 1 + sizeOf statement := by
  have hstmts := fun es => @sizeOf_lt_of_mem_map _ _ _ es part Node.stmt.sizeOf_spec
  have hdeclarators := fun es => @sizeOf_lt_of_mem_map _ _ _ es part Node.declarator.sizeOf_spec
  have hcases := fun es => @sizeOf_lt_of_mem_map _ _ _ es part Node.switchCase.sizeOf_spec
  cases statement with
  | forEach span left right body =>
    cases left <;>
      simp only [Stmt.searched, List.mem_cons, List.not_mem_nil, or_false] at h <;> grind
  | returns span value =>
    cases value with
    | none => cases h
    | some e =>
      cases List.mem_singleton.1 h
      grind
  | forLoop span init test update body =>
    cases test <;> cases update <;> simp [Stmt.searched] at h <;> grind
  | expr | throws | function | classDef | labeled =>
    cases List.mem_singleton.1 h
    grind
  | «variable» | block | ifElse | whileLoop | withObject | doWhile | switch | tryCatch =>
    simp only [Stmt.searched, List.mem_cons, List.not_mem_nil, or_false, List.mem_append] at h
    grind
  | _ => cases h

/-- The searched parts of a node are smaller than it. -/
lemma Node.sizeOf_searched {node part : Node} (h : part ∈ node.searched) :
    sizeOf part < sizeOf node := by
  have hstmts := fun es => @sizeOf_lt_of_mem_map _ _ _ es part Node.stmt.sizeOf_spec
  have hmembers := fun es => @sizeOf_lt_of_mem_map _ _ _ es part Node.member.sizeOf_spec
  cases node with
  | expr e => exact Expr.sizeOf_searched h
  | stmt statement => exact Stmt.sizeOf_searched h
  | property entry => cases entry <;> simp [Node.searched] at h <;> grind
  | function definition =>
    obtain ⟨_, _, _⟩ := definition
    simp only [Node.searched] at h
    grind
  | classDef definition =>
    obtain ⟨_, _, _, _⟩ := definition
    simp only [Node.searched] at h
    grind
  | member entry => cases entry <;> simp [Node.searched] at h <;> grind
  | declarator entry =>
    obtain ⟨_, _, init⟩ := entry
    cases init <;> simp [Node.searched] at h
    grind
  | switchCase entry =>
    obtain ⟨test, _⟩ := entry
    cases test <;> simp [Node.searched] at h <;> grind
  | _ => cases h

/-- The search of a node meets the calls of its searched parts, and of their parts. -/
theorem Node.has_of_mem_calls {node : Node} {call : Call} (h : call ∈ node.calls) :
    node.Has Node.searched call := by
  -- By recursion on the size of the node, since its parts are nodes of other kinds.
  rw [node.calls_eq, List.mem_append] at h
  rcases h with h | h
  · unfold Node.own at h
    split at h
    · cases List.mem_singleton.1 h
      exact .call _ _ _
    · cases h
  · obtain ⟨part, hpart, hcall⟩ := List.mem_flatMap.1 h
    exact .part hpart (has_of_mem_calls hcall)
termination_by sizeOf node
decreasing_by exact Node.sizeOf_searched hpart

/-! ### Statements at the top level -/

/-- Whether the statement is a declaration of variables or of a function. -/
def Stmt.isDeclaration : Stmt → Bool
  | .variable _ _ _ | .function _ _ => true
  | _ => false

/-- What is read of a statement at the top level. -/
def Stmt.read : Stmt → List Stmt
  | .exportDeclaration _ typeOnly declaration =>
    if !typeOnly && declaration.isDeclaration then [declaration] else []
  | statement => [statement]

/-- What runs of a statement at the top level and is not read. -/
def Stmt.unread : Stmt → List Stmt
  | .exportDeclaration _ typeOnly declaration =>
    if !typeOnly && !declaration.isDeclaration then [declaration] else []
  | _ => []

/-- The call stands in a part of the statement that runs. -/
def Stmt.Runs (statement : Stmt) (call : Call) : Prop :=
  ∃ inner ∈ statement.read ++ statement.unread, (Node.stmt inner).Has Node.parts call

/-- The search of the statement meets the call. -/
def Stmt.Meets (statement : Stmt) (call : Call) : Prop :=
  ∃ inner ∈ statement.read, (Node.stmt inner).Has Node.searched call

/-- The call stands in a part of the statement that runs and is not searched. -/
def Stmt.Misses (statement : Stmt) (call : Call) : Prop :=
  (∃ inner ∈ statement.read, (Node.stmt inner).Skips call) ∨
    ∃ inner ∈ statement.unread, (Node.stmt inner).Has Node.parts call

/-- A call that runs in a statement is met or missed. -/
lemma Stmt.Runs.meets_or_misses {statement : Stmt} {call : Call} (h : statement.Runs call) :
    statement.Meets call ∨ statement.Misses call := by
  obtain ⟨inner, hinner, hcall⟩ := h
  obtain hread | hunread := List.mem_append.1 hinner
  · exact hcall.met_or_skipped.imp (⟨inner, hread, ·⟩) fun h => .inl ⟨inner, hread, h⟩
  · exact .inr (.inr ⟨inner, hunread, hcall⟩)

end ComponentApi.Script
