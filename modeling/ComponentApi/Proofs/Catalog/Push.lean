import Mathlib.Data.List.Basic
import Mathlib.Data.List.Infix
import Mathlib.Tactic.Basic
import ComponentApi.Catalog

/-!
# What a push does to a catalog

An item that is pushed is merged into an item that stands in the catalog or put at the end, and a
new export may rename the item it merges into. The relation `Pushed` lists these four outcomes with
the look-ups that decide between them, and `pushed_push` shows that `push` has no other. What a push
preserves is proved from it by a case split. The first such fact, `WellIndexed`, says that the index
leads to items of the right category.
-/

namespace ComponentApi

namespace Item

/-- What an item is found by: its category and its name. -/
def key (item : Item) : Category × String :=
  (item.category, item.name)

/-- A merge keeps the name of the first item. -/
@[simp] lemma merge_name (target source : Item) : (target.merge source).name = target.name := rfl

/-- Merging keeps the category, whatever the source is. -/
@[simp] lemma merge_category (target source : Item) :
    (target.merge source).category = target.category := by
  obtain ⟨_, _, _, _, _, detail⟩ := target
  obtain ⟨_, _, _, _, _, other⟩ := source
  cases detail <;> cases other <;> rfl

/-- A merge keeps the key of the first item. -/
@[simp] lemma merge_key (target source : Item) : (target.merge source).key = target.key := by
  simp [key]

/-- Only data items have a local name. -/
lemma category_of_localName? {item : Item} {localName : String}
    (h : item.localName? = some localName) : item.category = .data := by
  obtain ⟨_, _, _, _, _, detail⟩ := item
  cases detail with
  | data => rfl
  | _ => cases h

end Item

namespace Catalog

/-- The ways in which a catalog takes in an item. -/
inductive Pushed (catalog : Catalog) (item : Item) : Catalog → Prop where
  /-- The item is merged into the one that stands under its name. -/
  | merged {i : Nat} :
    catalog.newExport? item = none →
    catalog.index.get? (item.category, catalog.listedName item) = some i →
    Pushed catalog item
      { catalog with items := catalog.items.modify i (·.merge item) }
  /-- Nothing stands under its name yet. -/
  | added :
    catalog.newExport? item = none →
    catalog.index.get? (item.category, catalog.listedName item) = none →
    Pushed catalog item
      { catalog with
        items := catalog.items ++ [item]
        index := catalog.index.put (item.category, catalog.listedName item) catalog.items.length }
  /-- The item exports a variable that has an item, which takes the exported name. -/
  | renamed {localName : String} {i : Nat} :
    catalog.newExport? item = some localName →
    catalog.index.get? (.data, localName) = some i →
    Pushed catalog item
      { items := catalog.items.modify i fun target => { target with name := item.name }.merge item
        index := (catalog.index.remove (.data, localName)).put (.data, item.name) i
        exported := catalog.exported.put localName item.name }
  /-- The item exports a variable that has no item yet. -/
  | exported {localName : String} :
    catalog.newExport? item = some localName →
    catalog.index.get? (.data, localName) = none →
    Pushed catalog item
      { items := catalog.items ++ [item]
        index := catalog.index.put (.data, item.name) catalog.items.length
        exported := catalog.exported.put localName item.name }

variable {catalog next : Catalog} {item : Item} {localName : String}

/-- When an item is a new export: it is data with a local name other than its own name, and
nothing stands under its own name. -/
lemma newExport?_eq_some :
    catalog.newExport? item = some localName ↔
      item.localName? = some localName ∧ localName ≠ item.name ∧
        catalog.index.get? (.data, item.name) = none := by
  simp [newExport?, contains, Option.filter_eq_some_iff]

/-- A new export is data. -/
lemma category_of_newExport? (h : catalog.newExport? item = some localName) :
    item.category = .data :=
  Item.category_of_localName? (newExport?_eq_some.1 h).1

/-- A push has one of the outcomes that `Pushed` lists. -/
theorem pushed_push (catalog : Catalog) (item : Item) :
    Pushed catalog item (catalog.push item) := by
  unfold push
  cases hnew : catalog.newExport? item with
  | none =>
    dsimp only
    unfold insertAs
    cases hat : catalog.index.get? (item.category, catalog.listedName item) with
    | none => exact .added hnew hat
    | some i => exact .merged hnew hat
  | some localName =>
    have hcat := category_of_newExport? hnew
    have hfree := (newExport?_eq_some.1 hnew).2.2
    dsimp only
    unfold recordExport
    cases hat : catalog.index.get? (.data, localName) with
    | none =>
      have h := Pushed.exported hnew hat
      simpa [insertAs, hcat, hfree] using h
    | some i =>
      have h := Pushed.renamed hnew hat
      simpa [insertAs, hcat, List.modify_modify_eq, Function.comp_def] using h

/-! ### Runs -/

/-- Without items, the catalog is empty. -/
@[simp] lemma ofItems_nil : ofItems [] = {} := rfl

/-- The catalog of a longer sequence is that of the shorter one with one more item. -/
@[simp] lemma ofItems_concat (items : List Item) (item : Item) :
    ofItems (items ++ [item]) = (ofItems items).push item := by
  simp [ofItems]

/-- What holds of the empty catalog and survives every push holds of every catalog of a
sequence. -/
lemma ofItems_induction {P : Catalog → Prop} (start : P {})
    (step : ∀ {catalog next item}, P catalog → Pushed catalog item next → P next)
    (items : List Item) : P (ofItems items) := by
  induction items using List.reverseRecOn with
  | nil => exact start
  | append_singleton items item ih =>
    rw [ofItems_concat]
    exact step ih (pushed_push _ _)

/-! ### The index -/

/-- The index leads to items of the category it is asked for. -/
def WellIndexed (catalog : Catalog) : Prop :=
  ∀ {category name i}, catalog.index.get? (category, name) = some i →
    ∃ item, catalog.items[i]? = some item ∧ item.category = category

/-- A modified list has the same items at all other places, and the changed one at this place. -/
lemma getElem?_modify_of_some {items : List Item} {i j : Nat} {f : Item → Item} {found : Item}
    (h : items[j]? = some found) :
    (items.modify i f)[j]? = some (if i = j then f found else found) := by
  rw [List.getElem?_modify, h]
  split <;> simp_all

/-- What stands in a list stands at the same place when more follows. -/
lemma getElem?_append_of_some {items more : List Item} {j : Nat} {found : Item}
    (h : items[j]? = some found) : (items ++ more)[j]? = some found := by
  obtain ⟨hlt, _⟩ := List.getElem?_eq_some_iff.1 h
  rw [List.getElem?_append_left hlt]
  exact h

/-- A push keeps the index leading to items of the right category. -/
lemma WellIndexed.push (h : WellIndexed catalog) (step : Pushed catalog item next) :
    WellIndexed next := by
  intro category name j hj
  cases step with
  | @merged i _ hat =>
    obtain ⟨found, hfound, hcat⟩ := h hj
    refine ⟨_, getElem?_modify_of_some hfound, ?_⟩
    split <;> simpa using hcat
  | added _ hat =>
    simp only [Assoc.get?_put] at hj
    split at hj
    case isTrue heq =>
      cases hj
      refine ⟨item, by simp, ?_⟩
      exact congrArg Prod.fst (eq_of_beq heq)
    case isFalse =>
      obtain ⟨found, hfound, hcat⟩ := h hj
      exact ⟨found, getElem?_append_of_some hfound, hcat⟩
  | @renamed localName i hnew hat =>
    simp only [Assoc.get?_put, Assoc.get?_remove] at hj
    split at hj
    case isTrue heq =>
      cases hj
      obtain ⟨found, hfound, hcat⟩ := h hat
      have hdata : Category.data = category := congrArg Prod.fst (eq_of_beq heq)
      refine ⟨_, getElem?_modify_of_some hfound, ?_⟩
      rw [if_pos rfl, Item.merge_category, ← hdata]
      exact hcat
    case isFalse =>
      split at hj
      · cases hj
      · obtain ⟨found, hfound, hcat⟩ := h hj
        refine ⟨_, getElem?_modify_of_some hfound, ?_⟩
        split
        · rw [Item.merge_category]
          exact hcat
        · exact hcat
  | exported hnew hat =>
    simp only [Assoc.get?_put] at hj
    split at hj
    case isTrue heq =>
      cases hj
      refine ⟨item, by simp, ?_⟩
      rw [category_of_newExport? hnew]
      exact congrArg Prod.fst (eq_of_beq heq)
    case isFalse =>
      obtain ⟨found, hfound, hcat⟩ := h hj
      exact ⟨found, getElem?_append_of_some hfound, hcat⟩

/-- The index of a catalog that is built by pushes leads to items of the right category. -/
theorem wellIndexed_ofItems (items : List Item) : WellIndexed (ofItems items) := by
  apply ofItems_induction
  · intro category name i h
    cases h
  · exact WellIndexed.push

end Catalog

end ComponentApi
