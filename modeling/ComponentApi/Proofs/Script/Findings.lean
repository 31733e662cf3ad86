import ComponentApi.Proofs.Script.Outline
import ComponentApi.Script.Reading

/-!
# What reading adds

Every part of the reading of a script adds items to what was found before and touches nothing else
of it. The search for events adds nothing but dispatched events. `Shown` lists all items that a
script can add.
-/

namespace ComponentApi

namespace Script

open Extraction

/-! ### The search for events -/

/-- The search of an expression adds dispatched events only. -/
lemma Expr.searchTop_adding (excerpt : Excerpt) (statement? : Option Nat) (e : Expr) :
    Adding Item.IsDispatched (e.searchTop excerpt statement?) :=
  fun found => (e.search_finds excerpt statement? { found }).found.toAdds

/-- The search of a statement adds dispatched events only. -/
lemma Stmt.searchTop_adding (excerpt : Excerpt) (statement : Stmt) :
    Adding Item.IsDispatched (statement.searchTop excerpt) :=
  fun found => (statement.search_finds excerpt (some statement.span.start) { found }).found.toAdds

/-- The search of a function adds dispatched events only. -/
lemma Function.search_adding (excerpt : Excerpt) (definition : Function) :
    Adding Item.IsDispatched fun found => (definition.search excerpt { found }).found :=
  fun found => (definition.search_finds excerpt { found }).found.toAdds

/-! ### Scripts -/

/-- The item is one that a script can add: an event that it dispatches, or the item of a name that
it binds or exposes. -/
inductive Shown (excerpt : Excerpt) : Item → Prop
  | dispatched {item : Item} (h : item.IsDispatched) : Shown excerpt item
  | bound {name : Bound} {item : Item} (h : Introduces excerpt name item) : Shown excerpt item
  | exposed {statement : Stmt} {item : Item} (h : statement.Exposes excerpt item) :
      Shown excerpt item

/-- Whatever a script is read for, it adds such items. -/
lemma outline_adds (excerpt : Excerpt) :
    Outline excerpt (fun _ => True) (Shown excerpt) fun _ => Adds (Shown excerpt) where
  refl := .refl
  trans := .trans
  announce := fun h => (Adding.declare _ _).comp (.emit (.bound h))
  expose := fun h => Adding.emit h
  know := fun _ _ _ => .of_eq rfl rfl
  expr := fun {e} _ statement? => (e.searchTop_adding excerpt statement?).mono fun _ => .dispatched
  stmt := fun {statement} _ => (statement.searchTop_adding excerpt).mono fun _ => .dispatched
  function := fun {definition} _ =>
    (definition.search_adding excerpt).mono fun _ => .dispatched

end Script

namespace Extraction

open Script

variable {found next : Extraction}

/-- A script adds nothing but what scripts show. -/
lemma readScript_adds {block : ScriptBlock} (h : found.readScript block = .ok next) :
    Adds (Shown (.ofBlock block)) found next := by
  unfold readScript at h
  split at h
  · cases h
    exact (outline_adds _).statements (fun _ _ _ _ => trivial) (fun _ _ _ => .exposed) found
  · cases h

/-- What relates an extraction to what is found when a block is read too also relates it to what is
found when all blocks are read. -/
lemma readScripts_rel {R : Extraction → Extraction → Prop} (hrefl : ∀ found, R found found)
    (htrans : ∀ {first second third}, R first second → R second third → R first third)
    {blocks : List ScriptBlock}
    (hstep : ∀ block ∈ blocks, ∀ {found next}, found.readScript block = .ok next → R found next)
    (h : found.readScripts blocks = .ok next) : R found next := by
  unfold readScripts at h
  induction blocks generalizing found with
  | nil =>
    cases h
    exact hrefl _
  | cons block rest ih =>
    rw [List.foldlM_cons] at h
    cases hread : found.readScript block with
    | error failure =>
      rw [hread] at h
      cases h
    | ok middle =>
      rw [hread] at h
      refine htrans (hstep block List.mem_cons_self hread) (ih ?_ h)
      exact fun block hblock => hstep block (List.mem_cons_of_mem _ hblock)

/-- An expression of the markup is only searched. -/
lemma readInline_searched {expression : List Char} {offset : Nat}
    (h : found.readInline expression offset = .ok next) : Searched found next := by
  unfold readInline at h
  dsimp only at h
  split at h
  · cases h
    exact (Expr.search_finds _ none { found } _).found
  · cases h

end Extraction

end ComponentApi
