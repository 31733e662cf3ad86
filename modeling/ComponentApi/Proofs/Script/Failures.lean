import Mathlib.Tactic.Basic
import ComponentApi.Script.Reading

/-!
# First failures

Work that can fail in several places stops at the first of them. `StopsAt` says this of a result
and the failures that lie on the way: the result is that of the first failure, and if there is none
there is a result. Work that is done in steps meets the failures of the steps in their order.

Whether a script block or an expression of the markup can be read depends on its text alone.
-/

namespace ComponentApi

/-- The result of work on whose way the failures lie. -/
inductive StopsAt {α : Type} : List Failure → Except Failure α → Prop
  | ok (a : α) : StopsAt [] (.ok a)
  | error (failure : Failure) (rest : List Failure) : StopsAt (failure :: rest) (.error failure)

namespace StopsAt

variable {α β : Type} {failures more : List Failure} {result : Except Failure α}

/-- One step after the other stops at the first failure of both. -/
lemma bind {next : α → Except Failure β} (h : StopsAt failures result)
    (hnext : ∀ a, StopsAt more (next a)) : StopsAt (failures ++ more) (result >>= next) := by
  cases h with
  | ok a => exact hnext a
  | error failure rest => exact .error failure (rest ++ more)

/-- What is made of a result stops at the same failure. -/
lemma map (h : StopsAt failures result) (f : α → β) : StopsAt failures (result.map f) := by
  cases h with
  | ok a => exact .ok (f a)
  | error failure rest => exact .error failure rest

/-- Steps one after the other, each with a failure of its own or none. -/
lemma foldlM {step : α → β → Except Failure α} {own : β → Option Failure}
    (hstep : ∀ a x, StopsAt (own x).toList (step a x)) (list : List β) (a : α) :
    StopsAt (list.filterMap own) (list.foldlM step a) := by
  induction list generalizing a with
  | nil => exact .ok a
  | cons x rest ih =>
    have hrest : StopsAt ((own x).toList ++ rest.filterMap own) (step a x >>= rest.foldlM step) :=
      (hstep a x).bind ih
    rw [List.foldlM_cons, List.filterMap_cons]
    cases hx : own x with
    | none => simpa [hx] using hrest
    | some failure => simpa [hx] using hrest

/-- There is a result exactly if there is no failure. -/
lemma exists_ok_iff (h : StopsAt failures result) : (∃ a, result = .ok a) ↔ failures = [] := by
  cases h <;> simp

/-- The failure is the first one. -/
lemma eq_error_iff (h : StopsAt failures result) {failure : Failure} :
    result = .error failure ↔ failures.head? = some failure := by
  cases h <;> simp

end StopsAt

open Script

/-- Why the block cannot be read, if it cannot. -/
def ScriptBlock.failure? (block : ScriptBlock) : Option Failure :=
  if (parseModule? block.isTypeScript block.content.toList).isSome then none
  else some (.syntaxError block.scope block.offset)

/-- Why the expression of the markup, which starts at the offset, cannot be read, if it cannot. -/
def inlineFailure? (expression : List Char) (offset : Nat) : Option Failure :=
  if (parseExpression? ('(' :: (expression ++ [')']))).isSome then none
  else some (.syntaxError .inline offset)

namespace Extraction

/-- A script stops the reading exactly if it cannot be parsed. -/
lemma readScript_stopsAt (found : Extraction) (block : ScriptBlock) :
    StopsAt block.failure?.toList (found.readScript block) := by
  unfold readScript ScriptBlock.failure?
  cases parseModule? block.isTypeScript block.content.toList with
  | none => exact .error _ []
  | some statements => exact .ok _

/-- An expression stops the reading exactly if it cannot be parsed. -/
lemma readInline_stopsAt (found : Extraction) (expression : List Char) (offset : Nat) :
    StopsAt (inlineFailure? expression offset).toList (found.readInline expression offset) := by
  unfold readInline inlineFailure?
  dsimp only [Excerpt.ofInline]
  cases parseExpression? ('(' :: (expression ++ [')'])) with
  | none => exact .error _ []
  | some e => exact .ok _

/-- Scripts stop the reading at the first one that cannot be parsed. -/
lemma readScripts_stopsAt (found : Extraction) (blocks : List ScriptBlock) :
    StopsAt (blocks.filterMap ScriptBlock.failure?) (found.readScripts blocks) :=
  .foldlM readScript_stopsAt blocks found

end Extraction

end ComponentApi
