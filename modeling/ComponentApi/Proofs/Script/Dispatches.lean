import ComponentApi.Proofs.Script.Nodes
import ComponentApi.Proofs.Script.Sites

/-!
# Dispatches that are found

The search of a node visits each of its searched parts, in a state that knows at least the
dispatchers known before, and what it finds there stays (`Node.search_visits`). So every call of a
registered dispatcher that the search meets gives an event. `extractStatements_dispatches` says of a
whole script that such a call in a part that runs gives an event at its place, unless it stands in a
part that is not searched, and that no other events are found.
-/

namespace ComponentApi

/-- The second extraction has all items of the first, in front of its own, and knows all its
dispatchers. -/
structure Extraction.Retains (found next : Extraction) : Prop where
  items : found.items <+: next.items
  dispatchers : found.names.dispatchers ⊆ next.names.dispatchers

namespace Extraction.Retains

variable {first second third found next : Extraction}

/-- Findings retain themselves. -/
lemma refl (found : Extraction) : found.Retains found := ⟨List.prefix_rfl, List.Subset.refl _⟩

/-- What is retained twice is retained. -/
lemma trans (h : first.Retains second) (h' : second.Retains third) : first.Retains third :=
  ⟨h.items.trans h'.items, List.Subset.trans h.dispatchers h'.dispatchers⟩

/-- A search retains what was found. -/
lemma of_searched (h : found.Searched next) : found.Retains next := by
  obtain ⟨new, hnew, _⟩ := h.items
  exact ⟨⟨new, hnew.symm⟩, h.names.dispatchers⟩

/-- An item more retains what was found. -/
lemma emit (found : Extraction) (item : Item) : found.Retains (found.emit item) :=
  ⟨List.prefix_append _ _, List.Subset.refl _⟩

/-- Steps that retain what was found retain it together. -/
lemma foldl {α : Type} {step : Extraction → α → Extraction}
    (hstep : ∀ found x, Retains found (step found x)) (list : List α) (found : Extraction) :
    found.Retains (list.foldl step found) := by
  induction list generalizing found with
  | nil => exact .refl found
  | cons x rest ih => exact (hstep found x).trans (ih _)

/-- Going through a list comes by each element of it. -/
lemma exists_of_mem {α : Type} {step : Extraction → α → Extraction}
    (hstep : ∀ found x, Retains found (step found x)) {list : List α} {x : α} (h : x ∈ list)
    (found : Extraction) :
    ∃ inside, found.Retains inside ∧ (step inside x).Retains (list.foldl step found) := by
  induction list generalizing found with
  | nil => cases h
  | cons y rest ih =>
    rcases List.mem_cons.1 h with rfl | h
    · exact ⟨found, .refl found, foldl hstep rest _⟩
    · obtain ⟨inside, hbefore, hbehind⟩ := ih h (step found y)
      exact ⟨inside, (hstep found y).trans hbefore, hbehind⟩

end Extraction.Retains

namespace Script

open Extraction

/-! ### Visits -/

/-- The search of a node that is a part of the statement that starts at `statement?`. -/
def Node.search (excerpt : Excerpt) (statement? : Option Nat) : Node → Search → Search
  | .expr e => e.search excerpt statement?
  | .property entry => searchProperties excerpt statement? [entry]
  | .function definition => definition.search excerpt
  | .classDef definition => definition.search excerpt statement?
  | .member entry => searchMembers excerpt statement? [entry]
  | .declarator entry => searchDeclarators excerpt statement? [entry]
  | .switchCase entry => searchCases excerpt statement? [entry]
  | .stmt statement => statement.search excerpt statement?
  | .key _ | .pattern _ | .param _ => id

/-- On the way from the one search to the other, the node is searched. -/
def Search.Visits (excerpt : Excerpt) (node : Node) (before after : Search) : Prop :=
  ∃ statement? inside, before.found.Searched inside.found ∧
    (node.search excerpt statement? inside).found.Searched after.found

section Visits

variable {excerpt : Excerpt} {statement? : Option Nat} {node part : Node}

/-- The search of a node finds dispatched events only. -/
lemma Node.search_searched (excerpt : Excerpt) (statement? : Option Nat) (node : Node)
    (s : Search) : s.found.Searched (node.search excerpt statement? s).found := by
  have h := passage_finds excerpt
  cases node with
  | expr e => exact (e.search_finds excerpt statement? s).found
  | property entry =>
    exact (searchProperties_passes h statement? [entry] (fun _ _ => trivial) s s).found
  | function definition => exact (definition.search_finds excerpt s).found
  | classDef definition =>
    exact (definition.search_passes h statement? (fun _ _ => trivial) s s).found
  | member entry =>
    exact (searchMembers_passes h statement? [entry] (fun _ _ => trivial) s s).found
  | declarator entry =>
    exact (searchDeclarators_passes h statement? [entry] (fun _ _ => trivial) s s).found
  | switchCase entry =>
    exact (searchCases_passes h statement? [entry] (fun _ _ => trivial) s s).found
  | stmt statement => exact (statement.search_finds excerpt statement? s).found
  | key | pattern | param => exact .refl _

namespace Search.Visits

variable {first second third : Search}

/-- A search visits the node that it starts at. -/
lemma self (excerpt : Excerpt) (statement? : Option Nat) (node : Node) (s : Search) :
    Visits excerpt node s (node.search excerpt statement? s) :=
  ⟨statement?, s, .refl _, .refl _⟩

/-- A node that is visited in a later part of a search is visited in all of it. -/
lemma after (h : Visits excerpt node second third) (hfirst : first.found.Searched second.found) :
    Visits excerpt node first third := by
  obtain ⟨statement?, inside, hbefore, hbehind⟩ := h
  exact ⟨statement?, inside, hfirst.trans hbefore, hbehind⟩

/-- A node that is visited in an earlier part of a search is visited in all of it. -/
lemma before (h : Visits excerpt node first second) (hthird : second.found.Searched third.found) :
    Visits excerpt node first third := by
  obtain ⟨statement?, inside, hbefore, hbehind⟩ := h
  exact ⟨statement?, inside, hbefore, hbehind.trans hthird⟩

end Search.Visits

end Visits

/-! ### Lists of parts -/

section Lists

variable {α : Type} {excerpt : Excerpt} {kind : α → Node} {start? : α → Option Nat}
  {run : List α → Search → Search}

/-- The function searches nodes, one after the other. -/
structure SearchesEach (excerpt : Excerpt) (kind : α → Node) (start? : α → Option Nat)
    (run : List α → Search → Search) : Prop where
  nil : ∀ s, run [] s = s
  cons : ∀ x rest s, run (x :: rest) s = run rest ((kind x).search excerpt (start? x) s)

namespace SearchesEach

/-- The search of a list finds dispatched events only. -/
lemma searched (h : SearchesEach excerpt kind start? run) (list : List α) (s : Search) :
    s.found.Searched (run list s).found := by
  induction list generalizing s with
  | nil =>
    rw [h.nil]
    exact .refl _
  | cons x rest ih =>
    rw [h.cons]
    exact ((kind x).search_searched excerpt (start? x) s).trans (ih _)

/-- The search of a list visits each of its elements. -/
lemma visits (h : SearchesEach excerpt kind start? run) {list : List α} {part : Node}
    (hpart : part ∈ list.map kind) (s : Search) : s.Visits excerpt part (run list s) := by
  induction list generalizing s with
  | nil => cases hpart
  | cons x rest ih =>
    rw [h.cons]
    rcases List.mem_cons.1 hpart with rfl | hpart
    · exact .before (.self excerpt (start? x) _ s) (h.searched rest _)
    · exact .after (ih hpart _) ((kind x).search_searched excerpt (start? x) s)

end SearchesEach

variable (excerpt) (statement? : Option Nat)

/-- Expressions are searched one by one. -/
lemma searchExprs_each :
    SearchesEach excerpt .expr (fun _ => statement?) (searchExprs excerpt statement?) :=
  ⟨fun _ => rfl, fun _ _ _ => rfl⟩

/-- Statements are searched one by one. -/
lemma searchStmts_each :
    SearchesEach excerpt .stmt (fun statement => some statement.span.start) (searchStmts excerpt) :=
  ⟨fun _ => rfl, fun _ _ _ => rfl⟩

/-- The properties of an object are searched one by one. -/
lemma searchProperties_each :
    SearchesEach excerpt .property (fun _ => statement?) (searchProperties excerpt statement?) :=
  ⟨fun _ => rfl, fun x _ _ => by cases x <;> rfl⟩

/-- The members of a class are searched one by one. -/
lemma searchMembers_each :
    SearchesEach excerpt .member (fun _ => statement?) (searchMembers excerpt statement?) := by
  refine ⟨fun _ => rfl, fun x _ _ => ?_⟩
  cases x with
  | field _ _ value => cases value <;> rfl
  | _ => rfl

/-- The bindings of a declaration are searched one by one. -/
lemma searchDeclarators_each :
    SearchesEach excerpt .declarator (fun _ => statement?)
      (searchDeclarators excerpt statement?) :=
  ⟨fun _ => rfl, fun ⟨_, _, init⟩ _ _ => by cases init <;> rfl⟩

/-- The cases of a switch are searched one by one. -/
lemma searchCases_each :
    SearchesEach excerpt .switchCase (fun _ => statement?) (searchCases excerpt statement?) :=
  ⟨fun _ => rfl, fun ⟨test, _⟩ _ _ => by cases test <;> rfl⟩

end Lists

/-! ### The parts of a node -/

section Parts

variable {excerpt : Excerpt} {statement? : Option Nat} {part : Node}

/-- Nodes that are searched one behind the other, each as a part of its own statement, are all
visited. -/
lemma visits_of_mem (nodes : List (Node × Option Nat)) (h : part ∈ nodes.map Prod.fst)
    (s : Search) :
    s.Visits excerpt part (nodes.foldl (fun s node => node.1.search excerpt node.2 s) s) := by
  have heach : SearchesEach excerpt Prod.fst Prod.snd fun nodes s =>
      nodes.foldl (fun s node => node.1.search excerpt node.2 s) s :=
    ⟨fun _ => rfl, fun _ _ _ => rfl⟩
  exact heach.visits h s

/-- The search of an expression visits its parts. -/
lemma Expr.search_visits {e : Expr} (h : part ∈ e.searched) (s : Search) :
    s.Visits excerpt part (e.search excerpt statement? s) := by
  have hexprs := searchExprs_each excerpt statement?
  cases e with
  | call span callee arguments =>
    have hcall := (s.call_in excerpt statement? span callee arguments).found
    rcases List.mem_cons.1 h with rfl | h
    · exact .after (.before (.self excerpt statement? _ _) (hexprs.searched arguments _)) hcall
    · exact .after (hexprs.visits h _)
        (hcall.trans ((Node.expr callee).search_searched excerpt statement? _))
  | newCall span e es | tagged span e es =>
    rcases List.mem_cons.1 h with rfl | h
    · exact .before (.self excerpt statement? _ s) (hexprs.searched es _)
    · exact .after (hexprs.visits h _) ((Node.expr e).search_searched excerpt statement? s)
  | arrow | functionExpr | classExpr | member | spread | awaiting | unary | paren | assign | asType
  | satisfies | nonNull =>
    cases List.mem_singleton.1 h
    exact .self excerpt statement? _ s
  | chain span inner =>
    cases inner <;>
      (cases List.mem_singleton.1 h
       exact .self excerpt statement? _ s)
  | yielding span value =>
    cases value with
    | none => cases h
    | some e =>
      cases List.mem_singleton.1 h
      exact .self excerpt statement? _ s
  | index span a b | binary span _ a b | logical span _ a b =>
    exact visits_of_mem [(.expr a, statement?), (.expr b, statement?)] h s
  | conditional span test a b =>
    exact visits_of_mem [(.expr test, statement?), (.expr a, statement?), (.expr b, statement?)] h s
  | array | template | sequence => exact hexprs.visits h s
  | object span properties => exact (searchProperties_each excerpt statement?).visits h s
  | _ => cases h

/-- The search of a statement visits its parts. -/
lemma Stmt.search_visits {statement : Stmt} (h : part ∈ statement.searched) (s : Search) :
    s.Visits excerpt part (statement.search excerpt statement? s) := by
  have hstmts := searchStmts_each excerpt
  cases statement with
  | expr | throws =>
    cases List.mem_singleton.1 h
    exact .self excerpt statement? _ s
  | returns span value =>
    cases value with
    | none => cases h
    | some e =>
      cases List.mem_singleton.1 h
      exact .self excerpt statement? _ s
  | «variable» span kind declarators => exact (searchDeclarators_each excerpt statement?).visits h s
  | function span definition =>
    cases List.mem_singleton.1 h
    obtain ⟨id, params, body⟩ := definition
    cases id with
    | none => exact .self excerpt statement? _ s
    | some id =>
      exact .after (.self excerpt statement? _ _) (s.declare_below id.name .function).found
  | classDef span definition =>
    cases List.mem_singleton.1 h
    obtain ⟨decorators, id, parent, members⟩ := definition
    cases id with
    | none => exact .self excerpt statement? _ s
    | some id =>
      exact .after (.self excerpt statement? _ _) (s.declare_below id.name .unknown).found
  | block span body => exact hstmts.visits h s
  | ifElse span test consequent alternate =>
    exact visits_of_mem [(.expr test, statement?), (.stmt consequent, some consequent.span.start),
      (.stmt alternate, some alternate.span.start)] h s
  | forLoop span init test update body =>
    cases test with
    | none =>
      cases update with
      | none =>
        exact visits_of_mem [(.stmt init, statement?), (.stmt body, some body.span.start)] h s
      | some update =>
        exact visits_of_mem [(.stmt init, statement?), (.expr update, statement?),
          (.stmt body, some body.span.start)] h s
    | some test =>
      cases update with
      | none =>
        exact visits_of_mem [(.stmt init, statement?), (.expr test, statement?),
          (.stmt body, some body.span.start)] h s
      | some update =>
        exact visits_of_mem [(.stmt init, statement?), (.expr test, statement?),
          (.expr update, statement?), (.stmt body, some body.span.start)] h s
  | forEach span left right body =>
    cases left with
    | «variable» =>
      exact visits_of_mem [(.stmt _, statement?), (.expr right, statement?),
        (.stmt body, some body.span.start)] h s
    | _ =>
      exact visits_of_mem [(.expr right, statement?), (.stmt body, some body.span.start)] h s
  | whileLoop span e body | withObject span e body =>
    exact visits_of_mem [(.expr e, statement?), (.stmt body, some body.span.start)] h s
  | doWhile span body test =>
    exact visits_of_mem [(.stmt body, some body.span.start), (.expr test, statement?)] h s
  | switch span discriminant cases =>
    have hcases := searchCases_each excerpt statement?
    rcases List.mem_cons.1 h with rfl | h
    · exact .before (.self excerpt statement? _ s) (hcases.searched cases _)
    · exact .after (hcases.visits h _)
        ((Node.expr discriminant).search_searched excerpt statement? s)
  | tryCatch span tried caught handler finalizer =>
    have htried := hstmts.searched tried s
    have hhandler := hstmts.searched handler (searchStmts excerpt tried s)
    rcases List.mem_append.1 h with h | h
    · exact .before (hstmts.visits h s) (hhandler.trans (hstmts.searched finalizer _))
    · rcases List.mem_append.1 h with h | h
      · exact .after (.before (hstmts.visits h _) (hstmts.searched finalizer _)) htried
      · exact .after (hstmts.visits h _) (htried.trans hhandler)
  | labeled span label body =>
    cases List.mem_singleton.1 h
    exact .self excerpt (some body.span.start) _ s
  | _ => cases h

/-- The search of a node visits each of its searched parts. -/
lemma Node.search_visits {node : Node} (h : part ∈ node.searched) (s : Search) :
    s.Visits excerpt part (node.search excerpt statement? s) := by
  cases node with
  | expr e => exact Expr.search_visits h s
  | property entry =>
    cases entry <;>
      (cases List.mem_singleton.1 h
       exact .self excerpt statement? _ s)
  | function definition =>
    obtain ⟨id, params, body⟩ := definition
    have henter : s.found.Searched (s.enter (Function.mk id params body).paramNames).found := by
      rw [Search.enter, Search.declareUnknown_found]
      exact .refl _
    exact .after ((searchStmts_each excerpt).visits h _) henter
  | classDef definition =>
    obtain ⟨decorators, id, parent, members⟩ := definition
    exact (searchMembers_each excerpt statement?).visits h s
  | member entry =>
    cases entry with
    | method =>
      cases List.mem_singleton.1 h
      exact .self excerpt statement? _ s
    | field decorators key value =>
      cases value with
      | none => cases h
      | some e =>
        cases List.mem_singleton.1 h
        exact .self excerpt statement? _ s
    | accessor | staticBlock => cases h
  | declarator entry =>
    obtain ⟨span, pattern, init⟩ := entry
    cases init with
    | none => cases h
    | some e =>
      cases List.mem_singleton.1 h
      exact .after (.self excerpt statement? _ _) (s.bind_below pattern (some e)).found
  | switchCase entry =>
    obtain ⟨test, body⟩ := entry
    have hstmts := searchStmts_each excerpt
    cases test with
    | none => exact hstmts.visits h s
    | some e =>
      rcases List.mem_cons.1 h with rfl | h
      · exact .before (.self excerpt statement? _ s) (hstmts.searched body _)
      · exact .after (hstmts.visits h _) ((Node.expr e).search_searched excerpt statement? s)
  | stmt statement => exact Stmt.search_visits h s
  | _ => cases h

end Parts

/-! ### Events -/

/-- The name by which a call calls its function: a variable, or a property of something. -/
def Call.name? (call : Call) : Option String :=
  match call.callee.withoutParens with
  | .ident id => some id.name
  | .member _ _ property => some property.name
  | _ => none

/-- The item is an event that the call dispatches. -/
structure Call.Gives (excerpt : Excerpt) (call : Call) (item : Item) : Prop where
  dispatched : item.IsDispatched
  locations : item.locations = [excerpt.location call.place]

/-- The second extraction has an event of the call that the first has not. -/
def Call.FoundBetween (excerpt : Excerpt) (call : Call) (found next : Extraction) : Prop :=
  ∃ items item, call.Gives excerpt item ∧ found.items <+: items ∧ items ++ [item] <+: next.items

section Events

variable {excerpt : Excerpt} {call : Call} {first second third fourth : Extraction}
  {name : String}

/-- A call that is found in a part of a search is found in all of it. -/
lemma Call.FoundBetween.widen (h : call.FoundBetween excerpt second third)
    (hfirst : first.Retains second) (hfourth : third.Retains fourth) :
    call.FoundBetween excerpt first fourth := by
  obtain ⟨items, item, hitem, hbefore, hbehind⟩ := h
  exact ⟨items, item, hitem, hfirst.items.trans hbefore, hbehind.trans hfourth.items⟩

/-- A call by the name of a registered dispatcher dispatches an event. -/
lemma Search.isDispatch_of_name {s : Search} (hname : call.name? = some name)
    (h : name ∈ s.found.names.dispatchers) : s.isDispatch call.callee = true := by
  unfold Call.name? at hname
  split at hname
  · next hcallee =>
    cases hname
    rw [Search.isDispatch, hcallee]
    simp [NameTable.isDispatcher, h]
  · next hcallee =>
    cases hname
    rw [Search.isDispatch, hcallee]
    simp [NameTable.isDispatcher, h]
  · cases hname

/-- The call of a known dispatcher is found where the search comes to it. -/
lemma Search.call_foundBetween (excerpt : Excerpt) (statement? : Option Nat) {s : Search}
    (hname : call.name? = some name) (h : name ∈ s.found.names.dispatchers) :
    call.FoundBetween excerpt s.found
      (s.call excerpt statement? call.span call.callee call.arguments).found := by
  obtain ⟨title, doc, issues, hfound⟩ := s.dispatch_eq excerpt statement? call
  rw [Search.call, if_pos (Search.isDispatch_of_name hname h), hfound]
  refine ⟨_, _, ?_, List.prefix_rfl, List.prefix_rfl⟩
  exact ⟨rfl, rfl⟩

/-- A call of a registered dispatcher that the search of a node meets gives an event. -/
lemma Node.Has.foundBetween {node : Node} (h : node.Has Node.searched call)
    (hname : call.name? = some name) (excerpt : Excerpt) (statement? : Option Nat) (s : Search)
    (hs : name ∈ s.found.names.dispatchers) :
    call.FoundBetween excerpt s.found (node.search excerpt statement? s).found := by
  induction h generalizing s statement? with
  | call span callee arguments =>
    -- The call is looked at before its parts, and these keep the event.
    have hcall := Search.call_foundBetween excerpt statement? hname hs
    have hcallee := (Node.expr callee).search_searched excerpt statement?
      (s.call excerpt statement? span callee arguments)
    have harguments := (searchExprs_each excerpt statement?).searched arguments
      ((Node.expr callee).search excerpt statement?
        (s.call excerpt statement? span callee arguments))
    exact hcall.widen (.refl _) (.of_searched (hcallee.trans harguments))
  | part hpart _ ih =>
    -- The dispatcher is still known where the part is visited.
    obtain ⟨start?, inside, hbefore, hbehind⟩ := Node.search_visits hpart s
    exact (ih hname start? inside (hbefore.names.dispatchers hs)).widen (.of_searched hbefore)
      (.of_searched hbehind)

end Events

/-! ### Scripts -/

section Scripts

variable {excerpt : Excerpt} {call : Call} {name : String} {found : Extraction}

/-- Whatever a script is read for, what was found before stays. -/
lemma outline_retains (excerpt : Excerpt) :
    Outline excerpt (fun _ => True) (fun _ => True) fun _ => Retains where
  refl := .refl
  trans := .trans
  announce := fun _ _ => ⟨List.prefix_append _ _, List.Subset.refl _⟩
  expose := fun _ found => .emit found _
  know := fun _ _ h => ⟨List.prefix_rfl, h.dispatchers⟩
  expr := fun {e} _ statement? found =>
    .of_searched (e.search_finds excerpt statement? { found }).found
  stmt := fun {statement} _ found =>
    .of_searched (statement.search_finds excerpt _ { found }).found
  function := fun {definition} _ found =>
    .of_searched (definition.search_finds excerpt { found }).found

/-- Reading a statement retains what was found. -/
lemma extractStatement_retains (excerpt : Excerpt) (found : Extraction) (statement : Stmt) :
    found.Retains (extractStatement excerpt found statement) :=
  (outline_retains excerpt).statement (fun _ _ => trivial) (fun _ _ => trivial) found

/-- Reading a binding retains what was found. -/
lemma extractDeclarator_retains (excerpt : Excerpt) (kind : VariableKind) (statement : Nat)
    (isExported : Bool) (starts : Starts) (found : Extraction) (declarator : Declarator) :
    found.Retains (extractDeclarator excerpt kind statement isExported starts found declarator) :=
  (outline_retains excerpt).declarator kind statement isExported starts (fun _ _ => trivial) found

/-- The names of a binding come before its value. -/
lemma extractDeclarator_value (excerpt : Excerpt) (kind : VariableKind) (statement : Nat)
    (isExported : Bool) (starts : Starts) (found : Extraction) (span : Span) (pattern : Pattern)
    (e : Expr) :
    ∃ inside, found.Retains inside ∧
      extractDeclarator excerpt kind statement isExported starts found
        (.mk span pattern (some e)) = e.searchTop excerpt (some statement) inside := by
  have hknown : ∀ bound : Extraction,
      bound.Retains { bound with names := bindDispatcher bound.names pattern (some e) } :=
    fun bound => ⟨List.prefix_rfl, (bindDispatcher_grows bound.names _ _).dispatchers⟩
  refine ⟨_, .trans ?_ (hknown _), rfl⟩
  refine .foldl ?_ _ found
  intro found id
  exact ⟨List.prefix_append _ _, List.Subset.refl _⟩

/-- Reading a function ends with the search of its body. -/
lemma extractFunction_body (excerpt : Excerpt) (isExported : Bool) (starts : Starts)
    (definition : Function) (found : Extraction) :
    ∃ inside, found.Retains inside ∧
      extractFunction excerpt isExported starts definition found =
        (definition.search excerpt { found := inside }).found := by
  refine ⟨_, ?_, rfl⟩
  obtain ⟨id?, params, body⟩ := definition
  cases id? with
  | none => exact .refl found
  | some id => exact ⟨List.prefix_append _ _, List.Subset.refl _⟩

/-- What is searched at the top level gives the events of its calls. -/
lemma searchTop_foundBetween {node : Node} {inside : Extraction}
    (hcall : node.Has Node.searched call) (hname : call.name? = some name)
    (h : name ∈ found.names.dispatchers) (hinside : found.Retains inside)
    (statement? : Option Nat) :
    call.FoundBetween excerpt found (node.search excerpt statement? { found := inside }).found := by
  have hsearch := hcall.foundBetween hname excerpt statement? { found := inside }
    (hinside.dispatchers h)
  exact hsearch.widen hinside (.refl _)

/-- The search of a statement finds the calls of known dispatchers in it. -/
lemma Stmt.searchTop_foundBetween {statement : Stmt}
    (hcall : (Node.stmt statement).Has Node.searched call) (hname : call.name? = some name)
    (h : name ∈ found.names.dispatchers) :
    call.FoundBetween excerpt found (statement.searchTop excerpt found) :=
  Script.searchTop_foundBetween hcall hname h (.refl found) (some statement.span.start)

/-- Reading a declaration finds the calls of known dispatchers in it. -/
lemma extractDeclaration_foundBetween {declaration : Stmt} (export? : Option Nat)
    (hcall : (Node.stmt declaration).Has Node.searched call)
    (hdeclaration : declaration.isDeclaration = true) (hname : call.name? = some name)
    (h : name ∈ found.names.dispatchers) :
    call.FoundBetween excerpt found (extractDeclaration excerpt export? found declaration) := by
  cases hcall with
  | part hpart hcall =>
  cases declaration with
  | «variable» span kind declarators =>
    obtain ⟨⟨_, pattern, init⟩, hmem, rfl⟩ := List.mem_map.1 hpart
    cases hcall with
    | part hpart hcall =>
    cases init with
    | none => cases hpart
    | some e =>
      cases List.mem_singleton.1 hpart
      obtain ⟨inside, hbefore, hbehind⟩ := Retains.exists_of_mem
        (extractDeclarator_retains excerpt kind (export?.getD span.start) export?.isSome
          (span.start :: export?.toList)) hmem found
      obtain ⟨bound, hbound, heq⟩ := extractDeclarator_value excerpt kind (export?.getD span.start)
        export?.isSome (span.start :: export?.toList) inside _ pattern e
      rw [heq] at hbehind
      have hevent : call.FoundBetween excerpt found
          (e.searchTop excerpt (some (export?.getD span.start)) bound) :=
        searchTop_foundBetween hcall hname h (hbefore.trans hbound) _
      exact hevent.widen (.refl _) hbehind
  | function span definition =>
    cases List.mem_singleton.1 hpart
    obtain ⟨inside, hinside, heq⟩ := extractFunction_body excerpt export?.isSome
      (span.start :: export?.toList) definition found
    rw [extractDeclaration, heq]
    exact searchTop_foundBetween hcall hname h hinside none
  | _ => cases hdeclaration

/-- Reading a reactive statement finds the calls of known dispatchers in it. -/
lemma extractReactive_foundBetween {body : Stmt} (start : Nat)
    (hcall : (Node.stmt body).Has Node.searched call) (hname : call.name? = some name)
    (h : name ∈ found.names.dispatchers) :
    call.FoundBetween excerpt found (extractReactive excerpt start body found) := by
  unfold extractReactive
  split
  · next id value hassign =>
    -- The value is all that the search of the assignment goes into.
    have hvalue : (Node.expr value).Has Node.searched call := by
      unfold assignment? at hassign
      split at hassign
      · split at hassign
        · cases hassign
          cases hcall with
          | part hpart hcall =>
          cases List.mem_singleton.1 hpart
          cases hcall with
          | part hpart hcall =>
          cases List.mem_singleton.1 hpart
          exact hcall
        · cases hassign
      · cases hassign
    exact searchTop_foundBetween hvalue hname h (.emit found _) (some start)
  · exact Stmt.searchTop_foundBetween hcall hname h

/-- A call of a registered dispatcher that the search of a statement meets gives an event. -/
lemma extractStatement_foundBetween {statement : Stmt} (hcall : statement.Meets call)
    (hname : call.name? = some name) (h : name ∈ found.names.dispatchers) :
    call.FoundBetween excerpt found (extractStatement excerpt found statement) := by
  obtain ⟨inner, hinner, hcall⟩ := hcall
  cases statement with
  | «variable» | function =>
    cases List.mem_singleton.1 hinner
    exact extractDeclaration_foundBetween none hcall rfl hname h
  | exportDeclaration span typeOnly declaration =>
    simp only [Stmt.read] at hinner
    split_ifs at hinner with hread
    · cases List.mem_singleton.1 hinner
      obtain ⟨htype, hdeclaration⟩ := Bool.and_eq_true_iff.1 hread
      rw [extractStatement, if_neg (by simpa using htype)]
      exact extractDeclaration_foundBetween (some span.start) hcall hdeclaration hname h
    · cases hinner
  | labeled span label body =>
    cases List.mem_singleton.1 hinner
    simp only [extractStatement]
    split_ifs
    · cases hcall with
      | part hpart hcall =>
      cases List.mem_singleton.1 hpart
      exact extractReactive_foundBetween span.start hcall hname h
    · exact Stmt.searchTop_foundBetween hcall hname h
  | exportNames | importFrom =>
    cases List.mem_singleton.1 hinner
    cases hcall with
    | part hpart => cases hpart
  | _ =>
    cases List.mem_singleton.1 hinner
    exact Stmt.searchTop_foundBetween hcall hname h

/-- Nothing is found in a statement of which nothing is read. -/
lemma extractStatement_of_read_eq_nil {statement : Stmt} (h : statement.read = [])
    (found : Extraction) : extractStatement excerpt found statement = found := by
  cases statement with
  | exportDeclaration span typeOnly declaration =>
    cases typeOnly with
    | true => rfl
    | false =>
      cases declaration with
      | «variable» | function => cases h
      | _ => rfl
  | _ => cases h

/-- A statement that is read meets the calls in it. -/
lemma Stmt.meets_of_mem_sites {statement : Stmt} (hread : statement.read ≠ [])
    (h : call ∈ statement.sites) : statement.Meets call := by
  have hcalls : ∀ inner : Stmt, call ∈ inner.calls → (Node.stmt inner).Has Node.searched call :=
    fun inner hcall => Node.has_of_mem_calls hcall
  cases statement with
  | exportDeclaration span typeOnly declaration =>
    refine ⟨declaration, ?_, hcalls declaration h⟩
    simp only [Stmt.read] at hread ⊢
    split_ifs at hread ⊢
    · exact List.mem_singleton_self declaration
    · exact absurd rfl hread
  | _ => exact ⟨_, List.mem_singleton_self _, hcalls _ h⟩

/-- The events that are found in a statement are those of calls that its search meets. -/
lemma extractStatement_events (excerpt : Excerpt) (statement : Stmt) (found : Extraction) :
    Extends
      (fun item _ => item.IsDispatched → ∃ call, statement.Meets call ∧ call.Gives excerpt item)
      found (extractStatement excerpt found statement) := by
  by_cases hread : statement.read = []
  · rw [extractStatement_of_read_eq_nil hread]
    exact .refl found
  · refine extractStatements_extends [statement] ?_ ?_ found
    · -- The item of a name is no event.
      intro _ _ id _ item hitem hdispatched
      have hcategory := hitem.category
      rw [Item.category, hdispatched] at hcategory
      simp [Detail.category] at hcategory
    · intro inner hinner call hcall item diagnostics hshows hdispatched
      cases List.mem_singleton.1 hinner
      exact ⟨call, Stmt.meets_of_mem_sites hread hcall, hdispatched, hshows.places.1⟩

/-- A call that is found gives one of the new items. -/
lemma Call.FoundBetween.mem {found next : Extraction} {new : List Item}
    (h : call.FoundBetween excerpt found next) (hnew : next.items = found.items ++ new) :
    ∃ item ∈ new, call.Gives excerpt item := by
  obtain ⟨items, item, hitem, ⟨between, rfl⟩, ⟨rest, hrest⟩⟩ := h
  refine ⟨item, ?_, hitem⟩
  rw [hnew, List.append_assoc, List.append_assoc] at hrest
  rw [← List.append_cancel_left hrest]
  simp

/-- A script appends items to those found before. A call in a part of it that runs is met by the
search or stands in a part that is not searched. If it is met, and the name that it calls is
registered as a dispatcher before, it gives an event at its place. There are no events but those of
calls that are met. -/
theorem extractStatements_dispatches (excerpt : Excerpt) (statements : List Stmt)
    (found : Extraction) :
    ∃ new, (extractStatements excerpt statements found).items = found.items ++ new ∧
      (∀ statement ∈ statements, ∀ call, statement.Runs call →
        statement.Meets call ∨ statement.Misses call) ∧
      (∀ statement ∈ statements, ∀ call name, statement.Meets call → call.name? = some name →
        name ∈ found.names.dispatchers → ∃ item ∈ new, call.Gives excerpt item) ∧
      ∀ item ∈ new, item.IsDispatched →
        ∃ statement ∈ statements, ∃ call, statement.Meets call ∧ call.Gives excerpt item := by
  have hevents : Extends (fun item _ => item.IsDispatched →
      ∃ statement ∈ statements, ∃ call, statement.Meets call ∧ call.Gives excerpt item)
      found (extractStatements excerpt statements found) := by
    refine .foldl (fun statement hmem found => ?_) found
    exact (extractStatement_events excerpt statement found).mono
      fun _ _ h hdispatched => ⟨statement, hmem, h hdispatched⟩
  obtain ⟨new, diagnostics, hnew, _, hentries⟩ := hevents
  refine ⟨new, hnew, fun _ _ _ hruns => hruns.meets_or_misses, ?_, ?_⟩
  · intro statement hmem call name hmeets hname hregistered
    obtain ⟨inside, hbefore, hbehind⟩ :=
      Retains.exists_of_mem (extractStatement_retains excerpt) hmem found
    have hfound : call.FoundBetween excerpt inside (extractStatement excerpt inside statement) :=
      extractStatement_foundBetween hmeets hname (hbefore.dispatchers hregistered)
    exact (hfound.widen hbefore hbehind).mem hnew
  · intro item hitem
    obtain ⟨_, hshown⟩ := hentries.of_mem hitem
    exact hshown

/-! ### A class, and the class exported -/

/-- The call in `class A { m() { d("e") } }`, where the text starts at the position. -/
def methodCall (start : Nat) : Call :=
  ⟨⟨start + 16, start + 22⟩, .ident ⟨"d", ⟨start + 16, start + 17⟩⟩,
    [.string ⟨start + 18, start + 21⟩ "e"]⟩

/-- The class in `class A { m() { d("e") } }`, where the text starts at the position. -/
def dispatchingClass (start : Nat) : Stmt :=
  .classDef ⟨start, start + 26⟩ (.mk [] (some ⟨"A", ⟨start + 6, start + 7⟩⟩) none
    [.method [] (.name "m") (.mk none [] [.expr ⟨start + 16, start + 22⟩
      (.call (methodCall start).span (methodCall start).callee (methodCall start).arguments)])])

/-- The call in the method is one of those in the class. -/
lemma dispatchingClass_has (start : Nat) {parts : Node → List Node}
    (h : ∀ node, node.searched ⊆ parts node) :
    (Node.stmt (dispatchingClass start)).Has parts (methodCall start) := by
  have hstep : ∀ {node part : Node}, part ∈ node.searched → part.Has parts (methodCall start) →
      node.Has parts (methodCall start) := fun hpart => .part (h _ hpart)
  refine hstep (List.mem_singleton_self _) (hstep (List.mem_singleton_self _) ?_)
  refine hstep (List.mem_singleton_self _) (hstep (List.mem_singleton_self _) ?_)
  exact hstep (List.mem_singleton_self _) (.call _ _ _)

/-- What is known when `d` is registered as a dispatcher. -/
def registered : Extraction := { settings := {}, names := { dispatchers := ["d"] } }

/-- A method of a class is searched. -/
theorem extractStatements_dispatches_method :
    ∃ item ∈ (extractStatements default [dispatchingClass 0] registered).items,
      item.IsDispatched ∧ item.locations = [⟨18, 21⟩] := by
  obtain ⟨new, hnew, _, hfound, _⟩ :=
    extractStatements_dispatches default [dispatchingClass 0] registered
  have hmeets : (dispatchingClass 0).Meets (methodCall 0) :=
    ⟨_, List.mem_singleton_self _, dispatchingClass_has 0 fun _ => List.Subset.refl _⟩
  obtain ⟨item, hitem, hgives⟩ := hfound _ (List.mem_singleton_self _) (methodCall 0) "d" hmeets rfl
    (List.mem_singleton_self _)
  refine ⟨item, ?_, hgives.dispatched, hgives.locations⟩
  rw [hnew]
  exact List.mem_append_right _ hitem

/-- A class that is exported runs and is not searched. -/
theorem not_gives_exported_method :
    ¬ ∀ (excerpt : Excerpt) (statements : List Stmt) (found : Extraction),
      ∀ statement ∈ statements, ∀ call name, statement.Runs call → call.name? = some name →
        name ∈ found.names.dispatchers →
          ∃ item ∈ (extractStatements excerpt statements found).items, call.Gives excerpt item := by
  intro h
  let exported : Stmt := .exportDeclaration ⟨0, 33⟩ false (dispatchingClass 7)
  have hruns : exported.Runs (methodCall 7) :=
    ⟨_, List.mem_singleton_self _, dispatchingClass_has 7 fun _ => List.subset_append_left _ _⟩
  obtain ⟨item, hitem, _⟩ := h default [exported] registered exported (List.mem_singleton_self _)
    (methodCall 7) "d" hruns rfl (List.mem_singleton_self _)
  have hnone : (extractStatements default [exported] registered).items = [] := rfl
  rw [hnone] at hitem
  cases hitem

end Scripts

end Script

end ComponentApi
