import ComponentApi.Proofs.Catalog.Members

/-!
# Where exports under other names go

An item that exports a variable under another name belongs to the item of that variable, which takes
the exported name (`LandsOn`). A catalog finds the item of the variable by its local name, but only
while nothing is listed under the exported name. Otherwise the export counts as a mention of what is
listed there, which may be another variable.

If no exported name is the local name of another export, the index mirrors the items, and an alias
hides the name it stands for (`hides_ofItems`). Then the names alone decide where an export goes.
-/

namespace ComponentApi.Catalog

variable {catalog next : Catalog} {item found : Item} {localName : String} {i : Nat}

/-- The item belongs to the one at the place, which bears its name after the push, and the push
changes no other item. -/
structure LandsOn (catalog : Catalog) (item : Item) (i : Nat) : Prop where
  home_eq : catalog.home item = i
  items_eq : (catalog.push item).items =
    catalog.items.modify i fun target => { target with name := item.name }.merge item

/-! ### Look-ups -/

/-- The home of an item is the place of another item exactly if it lands there. -/
lemma home_eq_iff (h : catalog.items[i]? = some found) :
    catalog.home item = i ↔ catalog.landing? item = some i := by
  have hlt : i < catalog.items.length := (List.getElem?_eq_some_iff.1 h).1
  unfold home
  cases catalog.landing? item with
  | none => simpa using (Nat.ne_of_lt hlt).symm
  | some j => simp

/-- What a mention does to the item it lands on. -/
lemma items_push_of_mention (hnew : catalog.newExport? item = none)
    (hland : catalog.landing? item = some i) :
    (catalog.push item).items = catalog.items.modify i (·.merge item) := by
  rw [landing?, hnew] at hland
  have hstep := pushed_push catalog item
  generalize catalog.push item = next at hstep
  cases hstep with
  | merged _ hat =>
    cases hland.symm.trans hat
    rfl
  | added _ hat => cases hland.symm.trans hat
  | renamed hsome _ => cases hnew.symm.trans hsome
  | exported hsome _ => cases hnew.symm.trans hsome

/-- What a new export does to the item it lands on. -/
lemma items_push_of_export (hnew : catalog.newExport? item = some localName)
    (hland : catalog.landing? item = some i) :
    (catalog.push item).items =
      catalog.items.modify i fun target => { target with name := item.name }.merge item := by
  rw [landing?, hnew] at hland
  have hstep := pushed_push catalog item
  generalize catalog.push item = next at hstep
  cases hstep with
  | merged hnone _ => cases hnew.symm.trans hnone
  | added hnone _ => cases hnew.symm.trans hnone
  | renamed hsome hat =>
    cases hnew.symm.trans hsome
    cases hland.symm.trans hat
    rfl
  | exported hsome hat =>
    cases hnew.symm.trans hsome
    cases hland.symm.trans hat

/-- When an item with a local name is a new export. -/
lemma newExport?_of_localName? (catalog : Catalog) (hlocal : item.localName? = some localName) :
    catalog.newExport? item =
      if item.name ≠ localName ∧ catalog.index.get? (.data, item.name) = none then some localName
      else none := by
  split_ifs with h
  · exact newExport?_eq_some.2 ⟨hlocal, Ne.symm h.1, h.2⟩
  · cases hnew : catalog.newExport? item with
    | none => rfl
    | some other =>
      obtain ⟨hother, hne, hfree⟩ := newExport?_eq_some.1 hnew
      cases hlocal.symm.trans hother
      exact absurd ⟨Ne.symm hne, hfree⟩ h

/-- An export lands on the item of its variable if that is its home and nothing is indexed under the
exported name, and not otherwise. -/
lemma landsOn_iff (hfound : catalog.items[i]? = some found) (hname : found.name = localName)
    (hlocal : item.localName? = some localName) :
    catalog.LandsOn item i ↔ catalog.home item = i ∧
      (item.name = localName ∨ catalog.index.get? (.data, item.name) = none) := by
  have hnew := catalog.newExport?_of_localName? hlocal
  constructor
  · intro h
    refine ⟨h.home_eq, ?_⟩
    by_contra hneither
    rw [not_or] at hneither
    -- Then the push is an ordinary merge, and the item keeps its name.
    rw [if_neg fun hboth => hneither.2 hboth.2] at hnew
    have hitems := items_push_of_mention hnew ((home_eq_iff hfound).1 h.home_eq)
    have hkept := congrArg (fun items : List Item => items[i]?.map (·.name))
      (hitems.symm.trans h.items_eq)
    simp only [getElem?_modify_of_some hfound, if_pos, Option.map_some, Item.merge_name,
      Option.some.injEq] at hkept
    exact hneither.1 (hkept.symm.trans hname)
  · rintro ⟨hhome, hname'⟩
    have hland := (home_eq_iff hfound).1 hhome
    by_cases heq : item.name = localName
    · rw [if_neg fun hboth => hboth.1 heq] at hnew
      have hsame : { found with name := item.name } = found := by
        rw [heq, ← hname]
      refine ⟨hhome, ?_⟩
      rw [items_push_of_mention hnew hland, modify_eq_set _ hfound, modify_eq_set _ hfound, hsame]
    · rw [if_pos ⟨heq, hname'.resolve_left heq⟩] at hnew
      exact ⟨hhome, items_push_of_export hnew hland⟩

/-! ### Exports without chains -/

/-- Nothing is indexed under a name for which an alias stands. -/
def Hides (catalog : Catalog) : Prop :=
  ∀ localName name, catalog.exported.get? localName = some name →
    catalog.index.get? (.data, localName) = none

/-- A push keeps renamed variables hidden under their local names, where exports under other names
make no chains. -/
lemma Hides.push {names : List (String × String)} (h : Hides catalog)
    (hmirror : Mirrored names catalog) (step : Pushed catalog item next)
    (hexport : ∀ {pair}, item.reexport? = some pair → pair ∈ names)
    (hchain : ∀ first ∈ names, ∀ second ∈ names, first.2 ≠ second.1) : Hides next := by
  intro hidden name halias
  cases step with
  | merged _ _ => exact h hidden name halias
  | added _ hat =>
    have hkey : (item.category, catalog.listedName item) ≠ (.data, hidden) := by
      -- The alias would have led to an item.
      intro heq
      obtain ⟨hdata, hname⟩ := Prod.ext_iff.1 heq
      have hown : item.name = hidden := (hmirror.listedName_eq hat).symm.trans hname
      obtain ⟨i, hi⟩ := hmirror.listed halias
      have hlisted : catalog.listedName item = name := by
        rw [listedName, if_pos hdata, hown, halias, Option.getD_some]
      rw [hlisted, show item.category = .data from hdata, hi] at hat
      cases hat
    exact (Assoc.get?_put_of_ne _ _ hkey).trans (h hidden name halias)
  | @renamed localName i hnew hat =>
    obtain ⟨hlocal, hne, hfree⟩ := newExport?_eq_some.1 hnew
    have hpair := hexport (Item.reexport?_eq_some.2 ⟨hlocal, hne, rfl⟩)
    obtain ⟨rfl, rfl⟩ | hold := Assoc.eq_or_get?_of_get?_put halias
    · rw [Assoc.get?_put_of_ne _ _ (by simpa using Ne.symm hne)]
      simp [Assoc.get?_remove]
    · have hkeep : item.name ≠ hidden := hchain _ hpair _ (hmirror.recorded hold)
      rw [Assoc.get?_put_of_ne _ _ (by simpa using hkeep)]
      simp [Assoc.get?_remove, h hidden name hold]
  | @exported localName hnew hat =>
    obtain ⟨hlocal, hne, hfree⟩ := newExport?_eq_some.1 hnew
    have hpair := hexport (Item.reexport?_eq_some.2 ⟨hlocal, hne, rfl⟩)
    obtain ⟨rfl, rfl⟩ | hold := Assoc.eq_or_get?_of_get?_put halias
    · rw [Assoc.get?_put_of_ne _ _ (by simpa using Ne.symm hne)]
      exact hat
    · have hkeep : item.name ≠ hidden := hchain _ hpair _ (hmirror.recorded hold)
      rw [Assoc.get?_put_of_ne _ _ (by simpa using hkeep)]
      exact h hidden name hold

/-- Without chains of exports, aliases hide the names they stand for after every push. -/
lemma hides_ofItems {items seen : List Item} (h : Unchained items) (hseen : seen <+: items) :
    Hides (ofItems seen) := by
  induction seen using List.reverseRecOn with
  | nil =>
    intro localName name halias
    cases halias
  | append_singleton seen item ih =>
    have hprefix : seen <+: items := (List.prefix_append _ _).trans hseen
    rw [ofItems_concat]
    refine (ih hprefix).push (mirrored_ofItems h hprefix) (pushed_push _ _) ?_ h
    intro pair hpair
    exact mem_reexports.2 ⟨item, hseen.subset (by simp), hpair⟩

/-- What is indexed under its own name is found there by an item that is no new export. -/
lemma Hides.landing?_eq (h : Hides catalog) (hdata : item.category = .data)
    (hnew : catalog.newExport? item = none)
    (hat : catalog.index.get? (.data, item.name) = some i) : catalog.landing? item = some i := by
  have hlisted : catalog.listedName item = item.name := by
    rw [listedName, if_pos hdata]
    cases halias : catalog.exported.get? item.name with
    | none => rfl
    | some name => cases hat.symm.trans (h item.name name halias)
  rw [landing?, hnew, hdata]
  dsimp only
  rw [hlisted, hat]

/-- When an export goes to the item of its variable, which stands at a place of the catalog: exactly
if that is its home and nothing is indexed under the exported name. Where no exported name is the
local name of another export, this is so exactly if no variable is listed under the exported name,
or it is the local name itself; if another variable is listed under it, the export is merged into
that one, and no name changes. -/
theorem export_lands_iff (seen : List Item) (item found : Item) (localName : String) (i : Nat)
    (hfound : (ofItems seen).items[i]? = some found) (hkey : found.key = (.data, localName))
    (hlocal : item.localName? = some localName) :
    ((ofItems seen).LandsOn item i ↔ (ofItems seen).home item = i ∧
      (item.name = localName ∨ (ofItems seen).index.get? (.data, item.name) = none)) ∧
    (Unchained seen →
      ((ofItems seen).LandsOn item i ↔
        item.name = localName ∨ (.data, item.name) ∉ (ofItems seen).keys) ∧
      ∀ j, item.name ≠ localName → (ofItems seen).keys[j]? = some (.data, item.name) →
        (ofItems seen).home item = j ∧
        ((ofItems seen).push item).items = (ofItems seen).items.modify j (·.merge item)) := by
  have hname : found.name = localName := congrArg Prod.snd hkey
  have hdata := Item.category_of_localName? hlocal
  have hiff := landsOn_iff hfound hname hlocal
  refine ⟨hiff, fun hchain => ?_⟩
  have hmirror := mirrored_ofItems hchain List.prefix_rfl
  have hhides : Hides (ofItems seen) := hides_ofItems hchain List.prefix_rfl
  have hnew := (ofItems seen).newExport?_of_localName? hlocal
  have hindex : (ofItems seen).index.get? (.data, localName) = some i := by
    rw [hmirror.places, keys, List.getElem?_map, hfound, Option.map_some, hkey]
  refine ⟨?_, ?_⟩
  · rw [hiff, home_eq_iff hfound]
    constructor
    · rintro ⟨_, heq | hfree⟩
      · exact .inl heq
      · exact .inr (hmirror.notMem_keys hfree)
    · intro h
      by_cases heq : item.name = localName
      · rw [if_neg fun hboth => hboth.1 heq] at hnew
        exact ⟨hhides.landing?_eq hdata hnew (heq ▸ hindex), .inl heq⟩
      · have hfree : (ofItems seen).index.get? (.data, item.name) = none := by
          rw [Option.eq_none_iff_forall_ne_some]
          intro j hj
          exact h.resolve_left heq (List.mem_of_getElem? ((hmirror.places _ _).1 hj))
        rw [if_pos ⟨heq, hfree⟩] at hnew
        exact ⟨by rw [landing?, hnew]; exact hindex, .inr hfree⟩
  · intro j hne hj
    have hat := (hmirror.places _ _).2 hj
    rw [if_neg fun hboth => by cases hboth.2.symm.trans hat] at hnew
    have hland := hhides.landing?_eq hdata hnew hat
    exact ⟨by rw [home, hland]; rfl, items_push_of_mention hnew hland⟩

/-- A variable that is exported while no other variable has the exported name. -/
theorem export_lands_iff_free :
    let seen : List Item := [
      { name := "other", detail := .data {} },
      { name := "internal", description := "Counts.", detail := .data { kind? := some .let } }]
    let item : Item := { name := "external", detail := .data { localName? := some "internal" } }
    (ofItems seen).keys[1]? = some (.data, "internal") ∧ Unchained seen ∧
      (ofItems seen).LandsOn item 1 := by
  intro seen item
  have hchain : Unchained seen := by decide
  have hfree : (.data, item.name) ∉ (ofItems seen).keys := by decide
  obtain ⟨_, hlands⟩ := export_lands_iff seen item _ "internal" 1 rfl rfl rfl
  exact ⟨by decide, hchain, (hlands hchain).1.2 (.inr hfree)⟩

/-- Another variable has the exported name: the export is merged into that one. -/
theorem not_landsOn_taken :
    let seen : List Item := [
      { name := "external", detail := .data { kind? := some .let } },
      { name := "internal", detail := .data { kind? := some .let } }]
    let item : Item := { name := "external", detail := .data { localName? := some "internal" } }
    (ofItems seen).keys[1]? = some (.data, "internal") ∧ (ofItems seen).home item = 0 ∧
      ¬ (ofItems seen).LandsOn item 1 := by
  intro seen item
  have hhome : (ofItems seen).home item = 0 := by decide
  refine ⟨by decide, hhome, ?_⟩
  intro h
  cases hhome.symm.trans h.home_eq

end ComponentApi.Catalog
