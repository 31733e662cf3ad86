import ComponentApi.Proofs.Script.Passage

/-!
# Two searches of one tree

A relation between the states of two searches that every single step keeps is kept by the search of
a whole tree. The steps are those of `Simulation`: a call, the names of a binding, a declaration,
and the way into a function and out of it. The searches may read different excerpts. A property of
one search is the case in which the second search plays no part.
-/

namespace ComponentApi.Script

/-- The relation is kept when both searches take the same step. -/
structure Simulation (first second : Excerpt) (R : Search → Search → Prop) : Prop where
  call : ∀ {s t}, R s t → ∀ statement? span callee arguments,
    R (s.call first statement? span callee arguments)
      (t.call second statement? span callee arguments)
  bind : ∀ {s t}, R s t → ∀ pattern init, R (s.bind pattern init) (t.bind pattern init)
  declare : ∀ {s t}, R s t → ∀ name declaration,
    R (s.declare name declaration) (t.declare name declaration)
  enter : ∀ {s t}, R s t → ∀ params, R (s.enter params) (t.enter params)
  leave : ∀ {s t}, R s t → R s.leave t.leave

/-- What one pair of states has, another pair has too. -/
abbrev Keeps (R : Search → Search → Prop) (p q : Search × Search) : Prop :=
  R p.1 p.2 → R q.1 q.2

variable {first second : Excerpt} {R : Search → Search → Prop}

/-- A relation that is kept is a passage, whatever the calls are. -/
lemma Simulation.passage (sim : Simulation first second R) :
    Passage first second (fun _ => True) (Keeps R) (Keeps R) where
  refl := fun _ h => h
  next := fun hfirst hnext h => hnext (hfirst h)
  trans := fun hfirst hnext h => hnext (hfirst h)
  ofExpr := fun h => h
  call := fun _ _ _ statement? h => sim.call h statement? _ _ _
  bind := fun _ _ pattern init h => sim.bind h pattern init
  declare := fun _ _ name declaration h => sim.declare h name declaration
  function := fun params hbody h => sim.leave (hbody (sim.enter h params))

/-- The search of an expression keeps the relation. -/
theorem Expr.search_simulated (sim : Simulation first second R) (statement? : Option Nat)
    (e : Expr) {s t : Search} (h : R s t) :
    R (e.search first statement? s) (e.search second statement? t) :=
  e.search_passes sim.passage statement? (fun _ _ => trivial) s t h

/-- The search of a statement keeps the relation. -/
theorem Stmt.search_simulated (sim : Simulation first second R) (statement? : Option Nat)
    (statement : Stmt) {s t : Search} (h : R s t) :
    R (statement.search first statement? s) (statement.search second statement? t) :=
  statement.search_passes sim.passage statement? (fun _ _ => trivial) s t h

/-- The search of a function keeps the relation. -/
theorem Function.search_simulated (sim : Simulation first second R) (definition : Function)
    {s t : Search} (h : R s t) : R (definition.search first s) (definition.search second t) :=
  definition.search_passes sim.passage (fun _ _ => trivial) s t h

end ComponentApi.Script
