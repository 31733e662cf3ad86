import Mathlib.Data.List.Basic
import Mathlib.Tactic.Basic
import ComponentApi.Script.Dispatch

/-!
# What a search passes through

The search of a tree is made of few steps: a call, the names of a binding, a declaration, and the
way into a function and out of it. `Passage` collects what has to be known of these steps, for two
searches that go through the same tree side by side. From that `Expr.search_passes` and
`Stmt.search_passes` say what the search of a whole tree does. Expressions and statements have
relations of their own, since a statement can declare names in the function around it, while an
expression cannot. The searches may read different excerpts. A property of one search is the case
in which the second search plays no part.

What is known of a call may depend on the call. `Expr.calls` lists the calls that the search of a
tree meets, in the order in which it meets them.
-/

namespace ComponentApi.Script

/-- A call in a script. -/
structure Call where
  span : Span
  callee : Expr
  arguments : List Expr

/-! ### Calls that are met -/

mutual

/-- The calls that the search of an expression meets. -/
def Expr.calls : Expr → List Call
  | .call span callee arguments =>
    ⟨span, callee, arguments⟩ :: (callee.calls ++ callsOfExprs arguments)
  | .newCall _ e es | .tagged _ e es => e.calls ++ callsOfExprs es
  | .arrow _ definition | .functionExpr _ definition => definition.calls
  | .classExpr _ definition => definition.calls
  | .chain _ (.privateMember _ e) => e.calls
  | .member _ e _ | .chain _ e | .spread _ e | .awaiting _ e | .yielding _ (some e)
  | .unary _ _ e | .paren _ e | .assign _ _ _ e | .asType _ e | .satisfies _ e
  | .nonNull _ e => e.calls
  | .index _ a b | .binary _ _ a b | .logical _ _ a b => a.calls ++ b.calls
  | .conditional _ test a b => test.calls ++ (a.calls ++ b.calls)
  | .array _ es | .template _ _ es | .sequence _ es => callsOfExprs es
  | .object _ properties => callsOfProperties properties
  | _ => []

/-- The calls in expressions, one after the other. -/
def callsOfExprs : List Expr → List Call
  | [] => []
  | e :: rest => e.calls ++ callsOfExprs rest

/-- The calls in the values of the properties of an object. -/
def callsOfProperties : List Property → List Call
  | [] => []
  | .field _ _ e :: rest | .method _ e :: rest | .spread e :: rest =>
    e.calls ++ callsOfProperties rest

/-- The calls in the body of a function. -/
def Function.calls : Function → List Call
  | .mk _ _ body => callsOfStmts body

/-- The calls in the methods and the values of the fields of a class. -/
def Class.calls : Class → List Call
  | .mk _ _ _ members => callsOfMembers members

/-- The calls in the members of a class. -/
def callsOfMembers : List Member → List Call
  | [] => []
  | .method _ _ definition :: rest => definition.calls ++ callsOfMembers rest
  | .field _ _ (some e) :: rest => e.calls ++ callsOfMembers rest
  | _ :: rest => callsOfMembers rest

/-- The calls in the values of bindings. -/
def callsOfDeclarators : List Declarator → List Call
  | [] => []
  | .mk _ _ (some e) :: rest => e.calls ++ callsOfDeclarators rest
  | .mk _ _ none :: rest => callsOfDeclarators rest

/-- The calls that the search of a statement meets. -/
def Stmt.calls : Stmt → List Call
  | .expr _ e | .returns _ (some e) | .throws _ e => e.calls
  | .variable _ _ declarators => callsOfDeclarators declarators
  | .function _ (.mk _ _ body) => callsOfStmts body
  | .classDef _ (.mk _ _ _ members) => callsOfMembers members
  | .block _ body => callsOfStmts body
  | .ifElse _ test consequent alternate => test.calls ++ (consequent.calls ++ alternate.calls)
  | .forLoop _ init none none body => init.calls ++ body.calls
  | .forLoop _ init (some e) none body | .forLoop _ init none (some e) body =>
    init.calls ++ (e.calls ++ body.calls)
  | .forLoop _ init (some test) (some update) body =>
    init.calls ++ (test.calls ++ (update.calls ++ body.calls))
  | .forEach _ (.variable _ _ declarators) right body =>
    callsOfDeclarators declarators ++ (right.calls ++ body.calls)
  | .forEach _ _ e body | .whileLoop _ e body | .withObject _ e body => e.calls ++ body.calls
  | .doWhile _ body test => body.calls ++ test.calls
  | .switch _ discriminant cases => discriminant.calls ++ callsOfCases cases
  | .tryCatch _ tried _ handler finalizer =>
    callsOfStmts tried ++ (callsOfStmts handler ++ callsOfStmts finalizer)
  | .labeled _ _ body => body.calls
  | _ => []

/-- The calls in the cases of a `switch`. -/
def callsOfCases : List Case → List Call
  | [] => []
  | .mk none body :: rest => callsOfStmts body ++ callsOfCases rest
  | .mk (some e) body :: rest => e.calls ++ (callsOfStmts body ++ callsOfCases rest)

/-- The calls in statements, one after the other. -/
def callsOfStmts : List Stmt → List Call
  | [] => []
  | statement :: rest => statement.calls ++ callsOfStmts rest

end

/-! ### The steps -/

/-- What the steps of two searches do, from one pair of states to another: `E` for expressions, and
`S` for statements. Calls are known to be among those of `Site`. -/
structure Passage (first second : Excerpt) (Site : Call → Prop)
    (E S : Search × Search → Search × Search → Prop) : Prop where
  refl : ∀ pair, E pair pair
  next : ∀ {p q r}, E p q → E q r → E p r
  trans : ∀ {p q r}, S p q → S q r → S p r
  ofExpr : ∀ {p q}, E p q → S p q
  call : ∀ {site : Call}, Site site → ∀ s t statement?,
    E (s, t) (s.call first statement? site.span site.callee site.arguments,
      t.call second statement? site.span site.callee site.arguments)
  bind : ∀ s t pattern init, S (s, t) (s.bind pattern init, t.bind pattern init)
  declare : ∀ s t name declaration,
    S (s, t) (s.declare name declaration, t.declare name declaration)
  function : ∀ {s t s' t'} params, S (s.enter params, t.enter params) (s', t') →
    E (s, t) (s'.leave, t'.leave)

namespace Passage

variable {first second : Excerpt} {Site : Call → Prop}
  {E S : Search × Search → Search × Search → Prop}

/-- A search that does nothing is a step of statements too. -/
lemma refl_stmt (h : Passage first second Site E S) (pair : Search × Search) : S pair pair :=
  h.ofExpr (h.refl pair)

end Passage

variable {first second : Excerpt} {Site : Call → Prop}
  {E S : Search × Search → Search × Search → Prop}

/-! ### The search of a tree

An optional chain whose outermost link is a private member is searched past that link, while a
private member elsewhere is not searched. The statement for expressions is strengthened by what the
chain needs. -/

mutual

/-- Two searches of an expression pass it alike, and so they do its object, if it is a private
member. -/
theorem Expr.search_passesX (h : Passage first second Site E S) (statement? : Option Nat) :
    ∀ (e : Expr), (∀ site ∈ e.calls, Site site) → ∀ s t,
      E (s, t) (e.search first statement? s, e.search second statement? t) ∧
      ∀ span object, e = .privateMember span object → (∀ site ∈ object.calls, Site site) →
        E (s, t) (object.search first statement? s, object.search second statement? t)
  | .call span callee arguments, hsites, s, t => by
    refine ⟨?_, nofun⟩
    obtain ⟨hsite, hsites⟩ := List.forall_mem_cons.1 hsites
    obtain ⟨hcallee, harguments⟩ := List.forall_mem_append.1 hsites
    have hcall := h.call hsite s t statement?
    have hafter := h.next hcall (callee.search_passesX h statement? hcallee _ _).1
    exact h.next hafter (searchExprs_passes h statement? arguments harguments _ _)
  | .newCall _ e es, hsites, s, t | .tagged _ e es, hsites, s, t => by
    refine ⟨?_, nofun⟩
    obtain ⟨he, hes⟩ := List.forall_mem_append.1 hsites
    exact h.next (e.search_passesX h statement? he s t).1
      (searchExprs_passes h statement? es hes _ _)
  | .arrow _ definition, hsites, s, t | .functionExpr _ definition, hsites, s, t =>
    ⟨definition.search_passes h hsites s t, nofun⟩
  | .classExpr _ definition, hsites, s, t =>
    ⟨definition.search_passes h statement? hsites s t, nofun⟩
  | .privateMember _ e, _, s, t => by
    refine ⟨h.refl _, ?_⟩
    rintro _ _ ⟨⟩ hsites
    exact (e.search_passesX h statement? hsites s t).1
  | .chain span e, hsites, s, t => by
    refine ⟨?_, nofun⟩
    have hsearch := e.search_passesX h statement?
    cases e with
    | privateMember span object => exact (hsearch nofun s t).2 span object rfl hsites
    | _ => exact (hsearch hsites s t).1
  | .member _ e _, hsites, s, t | .spread _ e, hsites, s, t | .awaiting _ e, hsites, s, t
  | .yielding _ (some e), hsites, s, t | .unary _ _ e, hsites, s, t | .paren _ e, hsites, s, t
  | .assign _ _ _ e, hsites, s, t | .asType _ e, hsites, s, t | .satisfies _ e, hsites, s, t
  | .nonNull _ e, hsites, s, t => ⟨(e.search_passesX h statement? hsites s t).1, nofun⟩
  | .index _ a b, hsites, s, t | .binary _ _ a b, hsites, s, t
  | .logical _ _ a b, hsites, s, t => by
    refine ⟨?_, nofun⟩
    obtain ⟨ha, hb⟩ := List.forall_mem_append.1 hsites
    exact h.next (a.search_passesX h statement? ha s t).1 (b.search_passesX h statement? hb _ _).1
  | .conditional _ test a b, hsites, s, t => by
    refine ⟨?_, nofun⟩
    obtain ⟨htest, hsites⟩ := List.forall_mem_append.1 hsites
    obtain ⟨ha, hb⟩ := List.forall_mem_append.1 hsites
    have hfirst := h.next (test.search_passesX h statement? htest s t).1
      (a.search_passesX h statement? ha _ _).1
    exact h.next hfirst (b.search_passesX h statement? hb _ _).1
  | .array _ es, hsites, s, t | .template _ _ es, hsites, s, t | .sequence _ es, hsites, s, t =>
    ⟨searchExprs_passes h statement? es hsites s t, nofun⟩
  | .object _ properties, hsites, s, t =>
    ⟨searchProperties_passes h statement? properties hsites s t, nofun⟩
  | .ident _, _, s, t | .string _ _, _, s, t | .number _ _, _, s, t | .bigInt _ _, _, s, t
  | .boolean _, _, s, t | .null _, _, s, t | .regExp _, _, s, t | .thisRef _, _, s, t
  | .superRef _, _, s, t | .metaProperty _, _, s, t | .hole _, _, s, t | .update _ _, _, s, t
  | .privateIn _ _, _, s, t | .importCall _ _, _, s, t | .yielding _ none, _, s, t
  | .typeAssertion _ _, _, s, t | .instantiation _ _, _, s, t => ⟨h.refl _, nofun⟩

/-- Two searches of expressions pass them alike. -/
theorem searchExprs_passes (h : Passage first second Site E S) (statement? : Option Nat) :
    ∀ (es : List Expr), (∀ site ∈ callsOfExprs es, Site site) → ∀ s t,
      E (s, t) (searchExprs first statement? es s, searchExprs second statement? es t)
  | [], _, _, _ => h.refl _
  | e :: rest, hsites, s, t => by
    obtain ⟨he, hrest⟩ := List.forall_mem_append.1 hsites
    exact h.next (e.search_passesX h statement? he s t).1
      (searchExprs_passes h statement? rest hrest _ _)

/-- Two searches of properties pass them alike. -/
theorem searchProperties_passes (h : Passage first second Site E S) (statement? : Option Nat) :
    ∀ (properties : List Property), (∀ site ∈ callsOfProperties properties, Site site) → ∀ s t,
      E (s, t) (searchProperties first statement? properties s,
        searchProperties second statement? properties t)
  | [], _, _, _ => h.refl _
  | .field _ _ e :: rest, hsites, s, t | .method _ e :: rest, hsites, s, t
  | .spread e :: rest, hsites, s, t => by
    obtain ⟨he, hrest⟩ := List.forall_mem_append.1 hsites
    exact h.next (e.search_passesX h statement? he s t).1
      (searchProperties_passes h statement? rest hrest _ _)

/-- What the search of a function does stays inside it, as far as frames go. -/
theorem Function.search_passes (h : Passage first second Site E S) :
    ∀ (definition : Function), (∀ site ∈ definition.calls, Site site) → ∀ s t,
      E (s, t) (definition.search first s, definition.search second t)
  | .mk _ _ body, hsites, _, _ => h.function _ (searchStmts_passes h body hsites _ _)

/-- Two searches of a class pass it alike. -/
theorem Class.search_passes (h : Passage first second Site E S) (statement? : Option Nat) :
    ∀ (definition : Class), (∀ site ∈ definition.calls, Site site) → ∀ s t,
      E (s, t) (definition.search first statement? s, definition.search second statement? t)
  | .mk _ _ _ members, hsites, s, t => searchMembers_passes h statement? members hsites s t

/-- Two searches of members pass them alike. -/
theorem searchMembers_passes (h : Passage first second Site E S) (statement? : Option Nat) :
    ∀ (members : List Member), (∀ site ∈ callsOfMembers members, Site site) → ∀ s t,
      E (s, t) (searchMembers first statement? members s, searchMembers second statement? members t)
  | [], _, _, _ => h.refl _
  | .method _ _ definition :: rest, hsites, s, t => by
    obtain ⟨hdefinition, hrest⟩ := List.forall_mem_append.1 hsites
    exact h.next (definition.search_passes h hdefinition s t)
      (searchMembers_passes h statement? rest hrest _ _)
  | .field _ _ (some e) :: rest, hsites, s, t => by
    obtain ⟨he, hrest⟩ := List.forall_mem_append.1 hsites
    exact h.next (e.search_passesX h statement? he s t).1
      (searchMembers_passes h statement? rest hrest _ _)
  | .field _ _ none :: rest, hsites, s, t | .accessor _ _ _ :: rest, hsites, s, t
  | .staticBlock _ :: rest, hsites, s, t => searchMembers_passes h statement? rest hsites s t

/-- Two searches of bindings pass them alike. -/
theorem searchDeclarators_passes (h : Passage first second Site E S) (statement? : Option Nat) :
    ∀ (declarators : List Declarator), (∀ site ∈ callsOfDeclarators declarators, Site site) →
      ∀ s t, S (s, t) (searchDeclarators first statement? declarators s,
        searchDeclarators second statement? declarators t)
  | [], _, _, _ => h.refl_stmt _
  | .mk _ pattern none :: rest, hsites, s, t =>
    h.trans (h.bind s t pattern none) (searchDeclarators_passes h statement? rest hsites _ _)
  | .mk _ pattern (some e) :: rest, hsites, s, t => by
    obtain ⟨he, hrest⟩ := List.forall_mem_append.1 hsites
    have hvalue := h.ofExpr (e.search_passesX h statement? he (s.bind pattern (some e))
      (t.bind pattern (some e))).1
    exact h.trans (h.trans (h.bind s t pattern (some e)) hvalue)
      (searchDeclarators_passes h statement? rest hrest _ _)

/-- Two searches of a statement pass it alike. -/
theorem Stmt.search_passes (h : Passage first second Site E S) (statement? : Option Nat) :
    ∀ (statement : Stmt), (∀ site ∈ statement.calls, Site site) → ∀ s t,
      S (s, t) (statement.search first statement? s, statement.search second statement? t)
  | .expr _ e, hsites, s, t | .returns _ (some e), hsites, s, t | .throws _ e, hsites, s, t =>
    h.ofExpr (e.search_passesX h statement? hsites s t).1
  | .variable _ _ declarators, hsites, s, t =>
    searchDeclarators_passes h statement? declarators hsites s t
  | .function _ (.mk none _ body), hsites, _, _ =>
    h.ofExpr (h.function _ (searchStmts_passes h body hsites _ _))
  | .function _ (.mk (some id) _ body), hsites, s, t =>
    h.trans (h.declare s t id.name .function)
      (h.ofExpr (h.function _ (searchStmts_passes h body hsites _ _)))
  | .classDef _ (.mk _ none _ members), hsites, s, t =>
    h.ofExpr (searchMembers_passes h statement? members hsites s t)
  | .classDef _ (.mk _ (some id) _ members), hsites, s, t =>
    h.trans (h.declare s t id.name .unknown)
      (h.ofExpr (searchMembers_passes h statement? members hsites _ _))
  | .block _ body, hsites, s, t => searchStmts_passes h body hsites s t
  | .ifElse _ test consequent alternate, hsites, s, t => by
    obtain ⟨htest, hsites⟩ := List.forall_mem_append.1 hsites
    obtain ⟨hconsequent, halternate⟩ := List.forall_mem_append.1 hsites
    have hfirst := h.trans (h.ofExpr (test.search_passesX h statement? htest s t).1)
      (consequent.search_passes h (some consequent.span.start) hconsequent _ _)
    exact h.trans hfirst
      (alternate.search_passes h (some alternate.span.start) halternate _ _)
  | .forLoop _ init none none body, hsites, s, t => by
    obtain ⟨hinit, hbody⟩ := List.forall_mem_append.1 hsites
    exact h.trans (init.search_passes h statement? hinit s t)
      (body.search_passes h (some body.span.start) hbody _ _)
  | .forLoop _ init (some e) none body, hsites, s, t
  | .forLoop _ init none (some e) body, hsites, s, t => by
    obtain ⟨hinit, hsites⟩ := List.forall_mem_append.1 hsites
    obtain ⟨he, hbody⟩ := List.forall_mem_append.1 hsites
    have hhead := h.trans (init.search_passes h statement? hinit s t)
      (h.ofExpr (e.search_passesX h statement? he _ _).1)
    exact h.trans hhead (body.search_passes h (some body.span.start) hbody _ _)
  | .forLoop _ init (some test) (some update) body, hsites, s, t => by
    obtain ⟨hinit, hsites⟩ := List.forall_mem_append.1 hsites
    obtain ⟨htest, hsites⟩ := List.forall_mem_append.1 hsites
    obtain ⟨hupdate, hbody⟩ := List.forall_mem_append.1 hsites
    have hhead := h.trans (init.search_passes h statement? hinit s t)
      (h.ofExpr (test.search_passesX h statement? htest _ _).1)
    have hhead := h.trans hhead (h.ofExpr (update.search_passesX h statement? hupdate _ _).1)
    exact h.trans hhead (body.search_passes h (some body.span.start) hbody _ _)
  | .forEach _ left right body, hsites, s, t => by
    have hsearch := left.search_passes h statement?
    cases left with
    | «variable» span kind declarators =>
      obtain ⟨hleft, hsites⟩ := List.forall_mem_append.1 hsites
      obtain ⟨hright, hbody⟩ := List.forall_mem_append.1 hsites
      have hhead := h.trans (hsearch hleft s t)
        (h.ofExpr (right.search_passesX h statement? hright _ _).1)
      exact h.trans hhead (body.search_passes h (some body.span.start) hbody _ _)
    | _ =>
      obtain ⟨hright, hbody⟩ := List.forall_mem_append.1 hsites
      exact h.trans (h.ofExpr (right.search_passesX h statement? hright s t).1)
        (body.search_passes h (some body.span.start) hbody _ _)
  | .whileLoop _ e body, hsites, s, t | .withObject _ e body, hsites, s, t => by
    obtain ⟨he, hbody⟩ := List.forall_mem_append.1 hsites
    exact h.trans (h.ofExpr (e.search_passesX h statement? he s t).1)
      (body.search_passes h (some body.span.start) hbody _ _)
  | .doWhile _ body test, hsites, s, t => by
    obtain ⟨hbody, htest⟩ := List.forall_mem_append.1 hsites
    exact h.trans (body.search_passes h (some body.span.start) hbody s t)
      (h.ofExpr (test.search_passesX h statement? htest _ _).1)
  | .switch _ discriminant cases, hsites, s, t => by
    obtain ⟨hdiscriminant, hcases⟩ := List.forall_mem_append.1 hsites
    exact h.trans (h.ofExpr (discriminant.search_passesX h statement? hdiscriminant s t).1)
      (searchCases_passes h statement? cases hcases _ _)
  | .tryCatch _ tried _ handler finalizer, hsites, s, t => by
    obtain ⟨htried, hsites⟩ := List.forall_mem_append.1 hsites
    obtain ⟨hhandler, hfinalizer⟩ := List.forall_mem_append.1 hsites
    have hfirst := h.trans (searchStmts_passes h tried htried s t)
      (searchStmts_passes h handler hhandler _ _)
    exact h.trans hfirst (searchStmts_passes h finalizer hfinalizer _ _)
  | .labeled _ _ body, hsites, s, t => body.search_passes h (some body.span.start) hsites s t
  | .returns _ none, _, _, _ | .inert _, _, _, _ | .enumeration _ _ _ _, _, _, _
  | .namespaceBody _ _ _, _, _, _ | .importFrom _ _, _, _, _ | .exportDeclaration _ _ _, _, _, _
  | .exportNames _ _ _ _, _, _, _ | .exportAll _ _, _, _, _ | .exportDefault _ _, _, _, _ =>
    h.refl_stmt _

/-- Two searches of cases pass them alike. -/
theorem searchCases_passes (h : Passage first second Site E S) (statement? : Option Nat) :
    ∀ (cases : List Case), (∀ site ∈ callsOfCases cases, Site site) → ∀ s t,
      S (s, t) (searchCases first statement? cases s, searchCases second statement? cases t)
  | [], _, _, _ => h.refl_stmt _
  | .mk none body :: rest, hsites, s, t => by
    obtain ⟨hbody, hrest⟩ := List.forall_mem_append.1 hsites
    exact h.trans (searchStmts_passes h body hbody s t)
      (searchCases_passes h statement? rest hrest _ _)
  | .mk (some e) body :: rest, hsites, s, t => by
    obtain ⟨he, hsites⟩ := List.forall_mem_append.1 hsites
    obtain ⟨hbody, hrest⟩ := List.forall_mem_append.1 hsites
    have hfirst := h.trans (h.ofExpr (e.search_passesX h statement? he s t).1)
      (searchStmts_passes h body hbody _ _)
    exact h.trans hfirst (searchCases_passes h statement? rest hrest _ _)

/-- Two searches of statements pass them alike. -/
theorem searchStmts_passes (h : Passage first second Site E S) :
    ∀ (statements : List Stmt), (∀ site ∈ callsOfStmts statements, Site site) → ∀ s t,
      S (s, t) (searchStmts first statements s, searchStmts second statements t)
  | [], _, _, _ => h.refl_stmt _
  | statement :: rest, hsites, s, t => by
    obtain ⟨hstatement, hrest⟩ := List.forall_mem_append.1 hsites
    exact h.trans (statement.search_passes h (some statement.span.start) hstatement s t)
      (searchStmts_passes h rest hrest _ _)

end

/-- What the steps do, the search of an expression does. -/
theorem Expr.search_passes (h : Passage first second Site E S) (statement? : Option Nat)
    (e : Expr) (hsites : ∀ site ∈ e.calls, Site site) (s t : Search) :
    E (s, t) (e.search first statement? s, e.search second statement? t) :=
  (e.search_passesX h statement? hsites s t).1

end ComponentApi.Script
