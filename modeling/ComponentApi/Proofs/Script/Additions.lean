import Mathlib.Tactic.Basic
import ComponentApi.Extraction

/-!
# What is added to an extraction

Reading goes on from what was found before: it appends items and does not touch the others. `Adds`
says which items can be added, and that the overview of the component stays as it is. A function on
extractions that adds such items to whatever was found is called `Adding`. Adding functions compose.
-/

namespace ComponentApi

/-- The item is an event that a script dispatches, which belongs to no tag. -/
def Item.IsDispatched (item : Item) : Prop :=
  item.detail = .event {}

namespace Extraction

/-- From the one extraction to the other, items with the property are added, and the overview stays
as it is. -/
structure Adds (P : Item → Prop) (found next : Extraction) : Prop where
  items : ∃ new, next.items = found.items ++ new ∧ ∀ item ∈ new, P item
  overview : next.overview? = found.overview?

namespace Adds

variable {P Q : Item → Prop} {first second third : Extraction}

/-- Where items and overview are the same, nothing was added. -/
lemma of_eq (hitems : second.items = first.items) (hoverview : second.overview? = first.overview?) :
    Adds P first second :=
  ⟨⟨[], by simp [hitems], by simp⟩, hoverview⟩

/-- An extraction adds nothing to itself. -/
lemma refl (found : Extraction) : Adds P found found := .of_eq rfl rfl

/-- What is added in two parts is added in one. -/
lemma trans (h : Adds P first second) (h' : Adds P second third) : Adds P first third := by
  obtain ⟨⟨new, hnew, hall⟩, hoverview⟩ := h
  obtain ⟨⟨more, hmore, hall'⟩, hoverview'⟩ := h'
  refine ⟨⟨new ++ more, by rw [hmore, hnew, List.append_assoc], ?_⟩, hoverview'.trans hoverview⟩
  intro item hitem
  exact (List.mem_append.1 hitem).elim (hall item) (hall' item)

/-- Items that have one property have a weaker one. -/
lemma mono (h : Adds P first second) (hPQ : ∀ item, P item → Q item) : Adds Q first second := by
  obtain ⟨⟨new, hnew, hall⟩, hoverview⟩ := h
  exact ⟨⟨new, hnew, fun item hitem => hPQ item (hall item hitem)⟩, hoverview⟩

/-- What holds of the items before and of the new ones holds of all. -/
lemma forall_mem (h : Adds P first second) (hfirst : ∀ item ∈ first.items, P item) :
    ∀ item ∈ second.items, P item := by
  obtain ⟨⟨new, hnew, hall⟩, _⟩ := h
  intro item hitem
  rw [hnew] at hitem
  exact (List.mem_append.1 hitem).elim (hfirst item) (hall item)

end Adds

/-- A function that adds items with the property to whatever was found before. -/
def Adding (P : Item → Prop) (f : Extraction → Extraction) : Prop :=
  ∀ found, Adds P found (f found)

namespace Adding

variable {P Q : Item → Prop} {f g : Extraction → Extraction}

/-- One addition after the other adds what both do. -/
lemma comp (hg : Adding P g) (hf : Adding P f) : Adding P fun found => g (f found) :=
  fun found => (hf found).trans (hg (f found))

/-- An addition of items with one property is one of items with a weaker one. -/
lemma mono (hf : Adding P f) (hPQ : ∀ item, P item → Q item) : Adding Q f :=
  fun found => (hf found).mono hPQ

/-- Doing nothing adds nothing. -/
lemma id : Adding P fun found => found := .refl

/-- Adding an item with the property is an addition. -/
lemma emit {item : Item} (h : P item) : Adding P (·.emit item) :=
  fun _ => ⟨⟨[item], rfl, by simpa using h⟩, rfl⟩

/-- A declaration adds no items. -/
lemma declare (name : String) (declaration : Declaration) :
    Adding P (·.declare name declaration) :=
  fun _ => .of_eq rfl rfl

/-- Of two additions, either may be made. -/
lemma ite (c : Prop) [Decidable c] (hf : Adding P f) (hg : Adding P g) :
    Adding P fun found => if c then f found else g found := by
  by_cases hc : c
  · simpa only [hc, if_true] using hf
  · simpa only [hc, if_false] using hg

end Adding

end Extraction

end ComponentApi
