import ComponentApi.Proofs.Catalog.Distinct
import ComponentApi.Proofs.Item.Merging

/-!
# The members of an item of a catalog

Whatever exports under other names do to the names and to the index, nothing that is pushed is lost
and nothing is counted twice. Each pushed item has a home, the place in the catalog that it goes to,
and the item at a place is merged from those that have their home there (`gathered_ofItems`). The
items stay at their places, and what has been filled in of them stays as it is (`Retains`).

A push changes one place: `Pushed.items_cases` says how, and both are derived from it.
-/

namespace ComponentApi

namespace Item

/-- The bindings of a variable to properties of child elements. -/
def bindings (item : Item) : List Binding :=
  match item.detail with
  | .data detail => detail.bindings
  | _ => []

/-- A merge puts the bindings of both items one after the other. -/
lemma bindings_merge {target source : Item} (h : target.category = source.category) :
    (target.merge source).bindings = target.bindings ++ source.bindings := by
  obtain ⟨_, _, _, _, _, detail⟩ := target
  obtain ⟨_, _, _, _, _, other⟩ := source
  have halike : detail.Alike other := Detail.alike_of_category h
  cases halike <;> rfl

/-- The item is merged from the members, from first to last. It may have been renamed before each
of the merges. -/
inductive MergedFrom : List Item → Item → Prop
  | single (item : Item) : MergedFrom [item] item
  | concat {members : List Item} {merged : Item} (h : MergedFrom members merged) (name : String)
      {item : Item} (hcategory : merged.category = item.category) :
      MergedFrom (members ++ [item]) ({ merged with name }.merge item)

namespace MergedFrom

variable {members : List Item} {merged : Item}

/-- An item is merged from at least one member. -/
lemma ne_nil (h : MergedFrom members merged) : members ≠ [] := by
  cases h <;> simp

/-- All members have the category of the merged item. -/
lemma category_eq (h : MergedFrom members merged) {item : Item} (hitem : item ∈ members) :
    item.category = merged.category := by
  induction h with
  | single => rw [List.mem_singleton.1 hitem]
  | @concat members merged h name last hcategory ih =>
    have hmerged : ({ merged with name }.merge last).category = merged.category :=
      merge_category _ _
    rw [hmerged]
    rcases List.mem_append.1 hitem with hitem | hitem
    · exact ih hitem
    · rw [List.mem_singleton.1 hitem, hcategory]

/-- The locations of a merged item are those of its members, in their order. -/
lemma locations_eq (h : MergedFrom members merged) :
    merged.locations = members.flatMap (·.locations) := by
  induction h with
  | single => simp
  | @concat members merged h name last _ ih =>
    calc ({ merged with name }.merge last).locations
      _ = merged.locations ++ last.locations := rfl
      _ = (members ++ [last]).flatMap (·.locations) := by simp [ih]

/-- The bindings of a merged item are those of its members, in their order. -/
lemma bindings_eq (h : MergedFrom members merged) :
    merged.bindings = members.flatMap bindings := by
  induction h with
  | single => simp
  | @concat members merged h name last hcategory ih =>
    have hrenamed : Item.category { merged with name } = last.category := hcategory
    calc ({ merged with name }.merge last).bindings
      _ = merged.bindings ++ last.bindings := bindings_merge hrenamed
      _ = (members ++ [last]).flatMap bindings := by simp [ih]

end MergedFrom

end Item

namespace Catalog

variable {catalog next third : Catalog} {item : Item}

/-! ### Homes -/

/-- The place that a pushed item goes to: that of the item it is merged into, or the next one. -/
def home (catalog : Catalog) (item : Item) : Nat :=
  (catalog.landing? item).getD catalog.items.length

/-- The homes of items that are pushed one after the other. -/
def homesFrom (catalog : Catalog) : List Item → List Nat
  | [] => []
  | item :: rest => catalog.home item :: homesFrom (catalog.push item) rest

/-- The homes of the items of a sequence in its catalog. -/
def homes (items : List Item) : List Nat :=
  homesFrom {} items

/-- The items of a sequence that have their home at the place, in their order. -/
def members (items : List Item) (i : Nat) : List Item :=
  ((items.zip (homes items)).filter (·.2 == i)).map (·.1)

/-- Items behind others find their homes in the catalog that those lead to. -/
lemma homesFrom_append (catalog : Catalog) (items more : List Item) :
    homesFrom catalog (items ++ more) =
      homesFrom catalog items ++ homesFrom (items.foldl push catalog) more := by
  induction items generalizing catalog with
  | nil => rfl
  | cons item rest ih =>
    rw [List.cons_append, homesFrom, homesFrom, ih, List.foldl_cons, List.cons_append]

/-- Items that are pushed later do not change the homes of those before. -/
lemma homes_prefix (items more : List Item) : homes items <+: homes (items ++ more) := by
  rw [homes, homes, homesFrom_append]
  exact List.prefix_append _ _

/-- The last item has its home in the catalog of the items before it. -/
lemma homes_concat (items : List Item) (item : Item) :
    homes (items ++ [item]) = homes items ++ [(ofItems items).home item] :=
  homesFrom_append {} items [item]

/-- Every item has a home. -/
lemma length_homes (items : List Item) : (homes items).length = items.length := by
  induction items using List.reverseRecOn with
  | nil => rfl
  | append_singleton items item ih => simp [homes_concat, ih]

/-- One item more is a member of its home and of no other place. -/
lemma members_concat (items : List Item) (item : Item) (i : Nat) :
    members (items ++ [item]) i =
      members items i ++ if (ofItems items).home item = i then [item] else [] := by
  rw [members, homes_concat, List.zip_append (length_homes items).symm, List.filter_append,
    List.map_append, members]
  by_cases h : (ofItems items).home item = i <;> simp [h]

/-- An item is a member of its home. -/
lemma mem_members {items : List Item} {item : Item} {i k : Nat} (hitem : items[k]? = some item)
    (hhome : (homes items)[k]? = some i) : item ∈ members items i := by
  have hpair : (items.zip (homes items))[k]? = some (item, i) :=
    List.getElem?_zip_eq_some.2 ⟨hitem, hhome⟩
  exact List.mem_map.2 ⟨(item, i), List.mem_filter.2 ⟨List.mem_of_getElem? hpair, by simp⟩, rfl⟩

/-- The members of a place come from the sequence. -/
lemma members_subset (items : List Item) (i : Nat) : members items i ⊆ items := by
  intro item hitem
  obtain ⟨⟨_, home⟩, hpair, rfl⟩ := List.mem_map.1 hitem
  exact (List.of_mem_zip (List.mem_filter.1 hpair).1).1

/-! ### One push -/

/-- Modifying an item is putting its new value at its place. -/
lemma modify_eq_set {items : List Item} {i : Nat} {found : Item} (f : Item → Item)
    (h : items[i]? = some found) : items.modify i f = items.set i (f found) := by
  rw [List.modify_eq_set, h, Option.getD_some]

/-- A push puts the item at the end, or merges it into the item at its home, which may get another
name. -/
lemma Pushed.items_cases (hw : WellIndexed catalog) (step : Pushed catalog item next) :
    (catalog.home item = catalog.items.length ∧ next.items = catalog.items ++ [item]) ∨
    ∃ old name, catalog.items[catalog.home item]? = some old ∧ old.category = item.category ∧
      next.items = catalog.items.set (catalog.home item) ({ old with name }.merge item) := by
  cases step with
  | @merged i hnew hat =>
    right
    have hhome : catalog.home item = i := by simp [home, landing?, hnew, hat]
    obtain ⟨old, hold, hcategory⟩ := hw hat
    rw [hhome]
    exact ⟨old, old.name, hold, hcategory, modify_eq_set _ hold⟩
  | added hnew hat =>
    left
    exact ⟨by simp [home, landing?, hnew, hat], rfl⟩
  | @renamed localName i hnew hat =>
    right
    have hhome : catalog.home item = i := by simp [home, landing?, hnew, hat]
    obtain ⟨old, hold, hcategory⟩ := hw hat
    rw [hhome]
    exact ⟨old, item.name, hold, hcategory.trans (category_of_newExport? hnew).symm,
      modify_eq_set _ hold⟩
  | exported hnew hat =>
    left
    exact ⟨by simp [home, landing?, hnew, hat], rfl⟩

/-! ### Members -/

/-- What stands at a place is merged from the members of the place. -/
def Gathered (members : List Item) : Option Item → Prop
  | some merged => Item.MergedFrom members merged
  | none => members = []

/-- What stands at a place of a catalog is merged from the members of the place. -/
lemma gathered_ofItems (items : List Item) (i : Nat) :
    Gathered (members items i) (ofItems items).items[i]? := by
  induction items using List.reverseRecOn with
  | nil => rfl
  | append_singleton items item ih =>
    rw [ofItems_concat, members_concat]
    obtain ⟨hhome, hitems⟩ | ⟨old, name, hold, hcategory, hitems⟩ :=
      (pushed_push (ofItems items) item).items_cases (wellIndexed_ofItems items)
    · rw [hitems, hhome]
      by_cases hi : (ofItems items).items.length = i
      · -- Nothing had its home behind the last item.
        subst hi
        have hnone : members items (ofItems items).items.length = [] := by
          simpa [Gathered] using ih
        rw [if_pos rfl, List.getElem?_concat_length, hnone]
        exact .single item
      · rw [if_neg hi, List.append_nil, List.getElem?_append]
        split_ifs with hlt
        · exact ih
        · rw [List.getElem?_eq_none (by omega)] at ih
          rwa [List.getElem?_eq_none (by simp; omega)]
    · rw [hitems]
      by_cases hi : (ofItems items).home item = i
      · subst hi
        rw [hold] at ih
        rw [if_pos rfl, List.getElem?_set_self (List.getElem?_eq_some_iff.1 hold).1]
        exact .concat ih name hcategory
      · rw [if_neg hi, List.append_nil, List.getElem?_set_ne hi]
        exact ih

/-- An item of a catalog is merged from the members of its place. -/
lemma mergedFrom_members {items : List Item} {i : Nat} {merged : Item}
    (h : (ofItems items).items[i]? = some merged) : Item.MergedFrom (members items i) merged := by
  have hgathered := gathered_ofItems items i
  rwa [h] at hgathered

/-- There is an item at every home. -/
lemma exists_at_home {items : List Item} {item : Item} {k : Nat} (h : items[k]? = some item) :
    ∃ i merged, (homes items)[k]? = some i ∧ (ofItems items).items[i]? = some merged ∧
      merged.category = item.category := by
  have hlt : k < (homes items).length := by
    rw [length_homes]
    exact (List.getElem?_eq_some_iff.1 h).1
  obtain ⟨i, hi⟩ : ∃ i, (homes items)[k]? = some i := ⟨_, List.getElem?_eq_getElem hlt⟩
  have hmem := mem_members h hi
  cases hat : (ofItems items).items[i]? with
  | none =>
    have hgathered := gathered_ofItems items i
    rw [hat] at hgathered
    rw [show members items i = [] from hgathered] at hmem
    cases hmem
  | some merged =>
    exact ⟨i, merged, hi, hat, ((mergedFrom_members hat).category_eq hmem).symm⟩

/-! ### Places -/

/-- All items stay at their places and keep what has been filled in. -/
def Retains (catalog next : Catalog) : Prop :=
  ∀ (i : Nat) (old : Item), catalog.items[i]? = some old →
    ∃ new, next.items[i]? = some new ∧ old.Persists new

namespace Retains

/-- A catalog retains what it has. -/
lemma refl (catalog : Catalog) : Retains catalog catalog :=
  fun _ old h => ⟨old, h, .refl old⟩

/-- What is retained twice is retained. -/
lemma trans (h : Retains catalog next) (h' : Retains next third) : Retains catalog third := by
  intro i old hold
  obtain ⟨middle, hmiddle, hpersists⟩ := h i old hold
  obtain ⟨new, hnew, hpersists'⟩ := h' i middle hmiddle
  exact ⟨new, hnew, hpersists.trans hpersists'⟩

/-- A push retains the items of a catalog. -/
lemma push (hw : WellIndexed catalog) (step : Pushed catalog item next) :
    Retains catalog next := by
  intro i old hold
  obtain ⟨_, hitems⟩ | ⟨target, name, htarget, _, hitems⟩ := step.items_cases hw
  · exact ⟨old, hitems ▸ getElem?_append_of_some hold, .refl old⟩
  · rw [hitems]
    by_cases hi : catalog.home item = i
    · subst hi
      rw [hold] at htarget
      cases htarget
      refine ⟨_, List.getElem?_set_self (List.getElem?_eq_some_iff.1 hold).1, ?_⟩
      exact (Item.Persists.rename old name).trans (.merge _ _)
    · exact ⟨old, by rwa [List.getElem?_set_ne hi], .refl old⟩

end Retains

/-- Items that are pushed later retain what the earlier ones have filled in. -/
lemma retains_append (items more : List Item) :
    Retains (ofItems items) (ofItems (items ++ more)) := by
  induction more using List.reverseRecOn with
  | nil => simpa using Retains.refl (ofItems items)
  | append_singleton more item ih =>
    rw [← List.append_assoc, ofItems_concat]
    exact ih.trans (.push (wellIndexed_ofItems _) (pushed_push _ _))

/-- Whatever is pushed, in whatever order: each pushed item has one home, which is the place of an
item of its category and stays its home. The item at a place has the locations and the bindings of
those that have their home there, in the order of the pushes. When more is pushed, an item stays at
its place, its visibility does not decrease, and what has been filled in stays as it is. -/
theorem pushes_accounted (items more : List Item) :
    ((homes items).length = items.length ∧ homes items <+: homes (items ++ more)) ∧
    (∀ (k : Nat) (item : Item), items[k]? = some item → ∃ (i : Nat) (merged : Item),
      (homes items)[k]? = some i ∧ (ofItems items).items[i]? = some merged ∧
      merged.category = item.category) ∧
    (∀ (i : Nat) (merged : Item), (ofItems items).items[i]? = some merged →
      members items i ≠ [] ∧ merged.locations = (members items i).flatMap (·.locations) ∧
      merged.bindings = (members items i).flatMap (·.bindings)) ∧
    ∀ (i : Nat) (old : Item), (ofItems items).items[i]? = some old →
      ∃ new, (ofItems (items ++ more)).items[i]? = some new ∧ old.Persists new := by
  refine ⟨⟨length_homes items, homes_prefix items more⟩, ?_, ?_, ?_⟩
  · intro k item hitem
    exact exists_at_home hitem
  · intro i merged hmerged
    have hmembers := mergedFrom_members hmerged
    exact ⟨hmembers.ne_nil, hmembers.locations_eq, hmembers.bindings_eq⟩
  · exact retains_append items more

/-- Exports that make a chain: the variable that is pushed behind them finds no item under its
exported name, and a binding of it goes to where the variable went. -/
theorem pushes_accounted_chain :
    let exported (name localName : String) : Item :=
      { name, locations := [⟨0, 1⟩], detail := .data { localName? := some localName } }
    let declared : Item :=
      { name := "a", locations := [⟨2, 3⟩], detail := .data { kind? := some .let } }
    let bound : Item :=
      { name := "a", locations := [⟨4, 5⟩], detail := .data { bindings := [⟨"Child", "p"⟩] } }
    let items := [exported "b" "a", exported "c" "b", declared, bound]
    homes items = [0, 0, 1, 1] ∧ (members items 1).map (·.locations) = [[⟨2, 3⟩], [⟨4, 5⟩]] ∧
    (∀ merged : Item, (ofItems items).items[1]? = some merged →
      merged.locations = (members items 1).flatMap (·.locations)) ∧
    ∀ old : Item, (ofItems items).items[1]? = some old →
      ∃ new, (ofItems (items ++ [exported "d" "a"])).items[1]? = some new ∧ old.Persists new := by
  intro exported declared bound items
  obtain ⟨_, _, hmembers, hstays⟩ := pushes_accounted items [exported "d" "a"]
  exact ⟨by decide, by decide, fun merged h => (hmembers 1 merged h).2.1, hstays 1⟩

end Catalog

end ComponentApi
