import Mathlib.Data.List.Nodup
import ComponentApi.Proofs.Catalog.Push
import ComponentApi.Proofs.Report.Settings

/-!
# Distinct names in a catalog

A catalog should list each category and name once. The index alone does not ensure this: an alias
whose exported name has itself been exported under a third name leads nowhere, and an item that is
pushed through it is put at the end under its own name. `Clashes` says when a push gives an item a
name that another item bears already, and `distinct_iff_neverClashes` shows that nothing else makes
two items share a category and a name. When no exported name is the local name of another export
(`Unchained`), the index mirrors the items (`Mirrored`) and no push clashes.
-/

namespace ComponentApi

namespace Item

/-- The local and the exported name of an item that exports a variable under another name. -/
def reexport? (item : Item) : Option (String × String) :=
  (item.localName?.filter (· != item.name)).map fun localName => (localName, item.name)

/-- An item exports a variable under another name if its local name is given and differs from its
name. -/
lemma reexport?_eq_some {item : Item} {localName name : String} :
    item.reexport? = some (localName, name) ↔
      item.localName? = some localName ∧ localName ≠ name ∧ item.name = name := by
  simp only [reexport?, Option.map_eq_some_iff, Option.filter_eq_some_iff, bne_iff_ne, ne_eq,
    Prod.mk.injEq]
  constructor
  · rintro ⟨_, ⟨h, hne⟩, rfl, rfl⟩
    exact ⟨h, hne, rfl⟩
  · rintro ⟨h, hne, rfl⟩
    exact ⟨localName, ⟨h, hne⟩, rfl, rfl⟩

end Item

/-- The local and exported names of the exports under another name in a sequence of items. -/
def reexports (items : List Item) : List (String × String) :=
  items.filterMap Item.reexport?

/-- The exports under another name in a sequence are those of its items. -/
@[simp] lemma mem_reexports {items : List Item} {names : String × String} :
    names ∈ reexports items ↔ ∃ item ∈ items, item.reexport? = some names :=
  List.mem_filterMap

/-- No exported name is the local name of an export under another name. -/
def Unchained (items : List Item) : Prop :=
  ∀ first ∈ reexports items, ∀ second ∈ reexports items, first.2 ≠ second.1

instance (items : List Item) : Decidable (Unchained items) :=
  inferInstanceAs (Decidable (∀ first ∈ reexports items, ∀ second ∈ reexports items,
    first.2 ≠ second.1))

namespace Catalog

/-- The categories and names of the items, in their order. -/
def keys (catalog : Catalog) : List (Category × String) :=
  catalog.items.map Item.key

/-- Each category and name is listed once. -/
def Distinct (catalog : Catalog) : Prop :=
  catalog.keys.Nodup

instance (catalog : Catalog) : Decidable catalog.Distinct :=
  inferInstanceAs (Decidable catalog.keys.Nodup)

/-- Where the item stands that a push merges the pushed item into, if there is one. -/
def landing? (catalog : Catalog) (item : Item) : Option Nat :=
  match catalog.newExport? item with
  | some localName => catalog.index.get? (.data, localName)
  | none => catalog.index.get? (item.category, catalog.listedName item)

/-- Whether a push makes an item bear the name of the pushed one: a new export renames the item it
lands on, and an item that lands nowhere is put at the end. -/
def givesName (catalog : Catalog) (item : Item) : Bool :=
  (catalog.newExport? item).isSome || (catalog.landing? item).isNone

/-- A push gives an item a name that another item of the category bears already. -/
def Clashes (catalog : Catalog) (item : Item) : Prop :=
  catalog.givesName item ∧
    ∃ j < catalog.keys.length, catalog.keys[j]? = some item.key ∧ catalog.landing? item ≠ some j

instance (catalog : Catalog) (item : Item) : Decidable (catalog.Clashes item) :=
  inferInstanceAs (Decidable (_ ∧ ∃ j < catalog.keys.length, _ ∧ _))

/-- No push of the sequence clashes with what was pushed before it. -/
def NeverClashes (items : List Item) : Prop :=
  ∀ seen item, seen ++ [item] <+: items → ¬ (ofItems seen).Clashes item

variable {catalog next : Catalog} {item : Item}

/-! ### The keys after a push -/

/-- Changing an item without its key leaves the keys as they are. -/
lemma map_key_modify {items : List Item} {i : Nat} {f : Item → Item}
    (h : ∀ item, (f item).key = item.key) :
    (items.modify i f).map Item.key = items.map Item.key := by
  apply List.ext_getElem?
  intro j
  rw [List.getElem?_map, List.getElem?_map, List.getElem?_modify]
  cases items[j]? with
  | none => rfl
  | some found =>
    by_cases hij : i = j
    · simp [hij, h]
    · simp [hij]

/-- Renaming a data item changes its key only. -/
lemma map_key_rename {items : List Item} {i : Nat} {found : Item} (item : Item)
    (hdata : item.category = .data) (hfound : items[i]? = some found)
    (hcat : found.category = .data) :
    (items.modify i fun target => { target with name := item.name }.merge item).map Item.key =
      (items.map Item.key).set i item.key := by
  have hlt : i < items.length := (List.getElem?_eq_some_iff.1 hfound).1
  apply List.ext_getElem?
  intro j
  rw [List.getElem?_map, List.getElem?_modify, List.getElem?_set, List.getElem?_map]
  by_cases hij : i = j
  · subst hij
    rw [hfound]
    have hkey : ({ found with name := item.name }.merge item).key = item.key := by
      rw [Item.merge_key]
      exact Prod.ext (hcat.trans hdata.symm) rfl
    simp [hlt, hkey]
  · simp [hij]

/-- What a push does to the keys: nothing, a new key at the end, or a new key at the place of the
item that is renamed. -/
lemma keys_pushed (hw : WellIndexed catalog) (step : Pushed catalog item next) :
    (catalog.givesName item = false ∧ next.keys = catalog.keys) ∨
    (catalog.givesName item = true ∧ catalog.landing? item = none ∧
      next.keys = catalog.keys ++ [item.key]) ∨
    ∃ i < catalog.keys.length, catalog.givesName item = true ∧ catalog.landing? item = some i ∧
      next.keys = catalog.keys.set i item.key := by
  cases step with
  | @merged i hnew hat =>
    left
    have hland : catalog.landing? item = some i := by rw [landing?, hnew]; exact hat
    refine ⟨by simp [givesName, hnew, hland], ?_⟩
    exact map_key_modify fun _ => Item.merge_key _ _
  | added hnew hat =>
    right; left
    have hland : catalog.landing? item = none := by rw [landing?, hnew]; exact hat
    exact ⟨by simp [givesName, hland], hland, by simp [keys]⟩
  | @renamed localName i hnew hat =>
    right; right
    have hland : catalog.landing? item = some i := by rw [landing?, hnew]; exact hat
    obtain ⟨found, hfound, hcat⟩ := hw hat
    have hlt : i < catalog.items.length := (List.getElem?_eq_some_iff.1 hfound).1
    refine ⟨i, by simpa [keys] using hlt, by simp [givesName, hnew], hland, ?_⟩
    exact map_key_rename item (category_of_newExport? hnew) hfound hcat
  | exported hnew hat =>
    right; left
    have hland : catalog.landing? item = none := by rw [landing?, hnew]; exact hat
    exact ⟨by simp [givesName, hland], hland, by simp [keys]⟩

/-- A list without repetition stays one when a place is overwritten, exactly if the new element
stands nowhere else. -/
lemma nodup_set_iff {α : Type} {l : List α} {i : Nat} {a : α} (h : l.Nodup) (hi : i < l.length) :
    (l.set i a).Nodup ↔ ∀ j, l[j]? = some a → j = i := by
  constructor
  · intro hset j hj
    by_contra hne
    have hlen : i < (l.set i a).length := by simpa using hi
    have hsame : (l.set i a)[i]? = (l.set i a)[j]? := by
      rw [List.getElem?_set_self hi, List.getElem?_set_ne (Ne.symm hne), hj]
    exact hne ((List.getElem?_inj hlen hset).1 hsame).symm
  · intro hj
    rw [List.nodup_iff_getElem?_ne_getElem?]
    intro p q hpq hq heq
    have hq' : q < l.length := by simpa using hq
    have hp' : p < l.length := hpq.trans hq'
    by_cases hip : i = p
    · subst hip
      rw [List.getElem?_set_self hi, List.getElem?_set_ne hpq.ne] at heq
      exact hpq.ne (hj q heq.symm).symm
    · by_cases hiq : i = q
      · subst hiq
        rw [List.getElem?_set_self hi, List.getElem?_set_ne hpq.ne'] at heq
        exact hpq.ne (hj p heq)
      · rw [List.getElem?_set_ne hip, List.getElem?_set_ne hiq] at heq
        exact hpq.ne ((List.getElem?_inj hp' h).1 heq)

/-- From distinct names a push leads to distinct names, exactly if it does not clash. -/
lemma Distinct.push_iff (hw : WellIndexed catalog) (h : catalog.Distinct)
    (step : Pushed catalog item next) : next.Distinct ↔ ¬ catalog.Clashes item := by
  unfold Distinct at h ⊢
  unfold Clashes
  obtain ⟨hgive, hkeys⟩ | ⟨hgive, hland, hkeys⟩ | ⟨i, hi, hgive, hland, hkeys⟩ :=
    keys_pushed hw step
  · simpa [hgive, hkeys] using h
  · have hmem : item.key ∉ catalog.keys ↔
        ¬ ∃ j < catalog.keys.length, catalog.keys[j]? = some item.key := by
      rw [List.mem_iff_getElem?]
      constructor
      · rintro hno ⟨j, _, hj⟩
        exact hno ⟨j, hj⟩
      · rintro hno ⟨j, hj⟩
        exact hno ⟨j, (List.getElem?_eq_some_iff.1 hj).1, hj⟩
    simp only [hgive, hland, hkeys, List.nodup_append, List.nodup_singleton, true_and]
    constructor
    · rintro ⟨_, hno⟩ ⟨j, hlt, hj, _⟩
      exact hno _ (List.mem_of_getElem? hj) _ (List.mem_singleton_self _) rfl
    · intro hno
      refine ⟨h, ?_⟩
      intro a ha b hb hab
      rw [List.mem_singleton] at hb
      rw [hab, hb] at ha
      exact hmem.2 (fun ⟨j, hlt, hj⟩ => hno ⟨j, hlt, hj, by simp⟩) ha
  · rw [hkeys, nodup_set_iff h hi]
    simp only [hgive, hland, true_and]
    constructor
    · rintro hall ⟨j, _, hj, hne⟩
      exact hne (congrArg some (hall j hj).symm)
    · intro hno j hj
      by_contra hne
      refine hno ⟨j, (List.getElem?_eq_some_iff.1 hj).1, hj, ?_⟩
      intro e
      exact hne (Option.some.inj e).symm

/-- The catalog lists each category and name once after every push, exactly if no push clashes. -/
lemma distinct_iff_neverClashes (items : List Item) :
    (∀ seen, seen <+: items → (ofItems seen).Distinct) ↔ NeverClashes items := by
  constructor
  · intro h seen item hprefix
    have hseen := h seen ((List.prefix_append _ _).trans hprefix)
    have hnext := h _ hprefix
    rw [ofItems_concat] at hnext
    exact (hseen.push_iff (wellIndexed_ofItems seen) (pushed_push _ _)).1 hnext
  · intro h seen hprefix
    induction seen using List.reverseRecOn with
    | nil => exact List.nodup_nil
    | append_singleton seen item ih =>
      have hseen := ih ((List.prefix_append _ _).trans hprefix)
      rw [ofItems_concat]
      exact (hseen.push_iff (wellIndexed_ofItems seen) (pushed_push _ _)).2 (h seen item hprefix)

/-! ### Exports without chains -/

/-- The index holds each key at its place and nothing else, and the exported name of every alias is
listed. -/
structure Mirrored (names : List (String × String)) (catalog : Catalog) : Prop where
  places : ∀ key i, catalog.index.get? key = some i ↔ catalog.keys[i]? = some key
  recorded : ∀ {localName name}, catalog.exported.get? localName = some name →
    (localName, name) ∈ names
  listed : ∀ {localName name}, catalog.exported.get? localName = some name →
    ∃ i, catalog.index.get? (.data, name) = some i

namespace Mirrored

variable {names : List (String × String)}

/-- Names that the index mirrors are distinct. -/
lemma distinct (h : Mirrored names catalog) : catalog.Distinct := by
  rw [Distinct, List.nodup_iff_getElem?_ne_getElem?]
  intro i j hij hj heq
  obtain ⟨key, hkey⟩ : ∃ key, catalog.keys[j]? = some key := ⟨_, List.getElem?_eq_getElem hj⟩
  have hi := (h.places key i).2 (heq.trans hkey)
  rw [(h.places key j).2 hkey] at hi
  exact hij.ne (Option.some.inj hi).symm

/-- A key that the index lacks stands nowhere. -/
lemma ne_of_get?_eq_none (h : Mirrored names catalog) {key : Category × String} {i : Nat}
    (hnone : catalog.index.get? key = none) : catalog.keys[i]? ≠ some key := by
  intro hi
  rw [(h.places key i).2 hi] at hnone
  cases hnone

/-- A key without an entry in the index is no key of the catalog. -/
lemma notMem_keys (h : Mirrored names catalog) {key : Category × String}
    (hnone : catalog.index.get? key = none) : key ∉ catalog.keys := by
  intro hmem
  obtain ⟨i, hi⟩ := List.mem_iff_getElem?.1 hmem
  exact h.ne_of_get?_eq_none hnone hi

/-- A new key at the end, entered in the index, is mirrored. -/
lemma places_concat (h : Mirrored names catalog) {key : Category × String}
    (hnone : catalog.index.get? key = none) (other : Category × String) (i : Nat) :
    (catalog.index.put key catalog.keys.length).get? other = some i ↔
      (catalog.keys ++ [key])[i]? = some other := by
  have hother := h.places other i
  have hno := h.ne_of_get?_eq_none hnone (i := i)
  rw [Assoc.get?_put, List.getElem?_append]
  by_cases hi : i < catalog.keys.length
  · grind
  · grind

/-- A key that takes the place of another, in the index as well, is mirrored. -/
lemma places_set (h : Mirrored names catalog) {old key : Category × String} {i : Nat}
    (hold : catalog.index.get? old = some i) (hnone : catalog.index.get? key = none)
    (other : Category × String) (j : Nat) :
    ((catalog.index.remove old).put key i).get? other = some j ↔
      (catalog.keys.set i key)[j]? = some other := by
  have hi : catalog.keys[i]? = some old := (h.places old i).1 hold
  have hlt : i < catalog.keys.length := (List.getElem?_eq_some_iff.1 hi).1
  have hother := h.places other j
  have hno := h.ne_of_get?_eq_none hnone (i := j)
  rw [Assoc.get?_put, Assoc.get?_remove, List.getElem?_set]
  by_cases hij : i = j
  · subst hij
    grind
  · grind

/-- What stands under a name: an item whose listed name is missing in the index is listed under its
own name, since the exported names of aliases are not missing. -/
lemma listedName_eq (h : Mirrored names catalog)
    (hnone : catalog.index.get? (item.category, catalog.listedName item) = none) :
    catalog.listedName item = item.name := by
  unfold listedName at hnone ⊢
  split
  case isFalse => rfl
  case isTrue hdata =>
    cases halias : catalog.exported.get? item.name with
    | none => rfl
    | some name =>
      obtain ⟨i, hi⟩ := h.listed halias
      rw [if_pos hdata, halias, hdata, Option.getD_some, hi] at hnone
      cases hnone

/-- A push keeps the index in step with the items, where exports under other names make no chains.
-/
lemma push (h : Mirrored names catalog) (step : Pushed catalog item next)
    (hexport : ∀ {pair}, item.reexport? = some pair → pair ∈ names)
    (hchain : ∀ first ∈ names, ∀ second ∈ names, first.2 ≠ second.1) : Mirrored names next := by
  cases step with
  | @merged i _ hat =>
    have hkeys : keys { catalog with items := catalog.items.modify i (·.merge item) } =
        catalog.keys := map_key_modify fun _ => Item.merge_key _ _
    exact ⟨by rw [hkeys]; exact h.places, h.recorded, h.listed⟩
  | added hnew hat =>
    have hname := h.listedName_eq hat
    rw [hname] at hat ⊢
    have hplaces := h.places_concat hat
    refine ⟨by simpa [keys, Item.key] using hplaces, h.recorded, ?_⟩
    intro localName name halias
    obtain ⟨i, hi⟩ := h.listed halias
    exact ⟨i, Assoc.get?_put_of_get? hat hi⟩
  | @renamed localName i hnew hat =>
    obtain ⟨hlocal, hne, hfree⟩ := newExport?_eq_some.1 hnew
    have hdata := category_of_newExport? hnew
    have hpair : (localName, item.name) ∈ names :=
      hexport (Item.reexport?_eq_some.2 ⟨hlocal, hne, rfl⟩)
    have hkey : item.key = (.data, item.name) := Prod.ext hdata rfl
    have hplaces := h.places_set hat hfree
    have hat' := (h.places _ _).1 hat
    obtain ⟨found, hfound, hfoundKey⟩ : ∃ found, catalog.items[i]? = some found ∧
        found.key = (.data, localName) := by
      simpa [keys, List.getElem?_map, Option.map_eq_some_iff] using hat'
    refine ⟨?_, ?_, ?_⟩
    · intro key j
      have hkeys := map_key_rename item hdata hfound (congrArg Prod.fst hfoundKey)
      rw [hkey] at hkeys
      rw [hplaces key j, keys, keys, hkeys]
    · intro first second halias
      obtain ⟨rfl, rfl⟩ | hold := Assoc.eq_or_get?_of_get?_put halias
      · exact hpair
      · exact h.recorded hold
    · intro first second halias
      obtain ⟨rfl, rfl⟩ | hold := Assoc.eq_or_get?_of_get?_put halias
      · exact ⟨i, Assoc.get?_put_self _ _ _⟩
      · -- An exported name is never the local name that is removed.
        have hkeep : localName ≠ second := (hchain _ (h.recorded hold) _ hpair).symm
        obtain ⟨j, hj⟩ := h.listed hold
        refine ⟨j, Assoc.get?_put_of_get? ?_ ?_⟩
        · simp [Assoc.get?_remove, hfree]
        · simpa [Assoc.get?_remove, hkeep] using hj
  | @exported localName hnew hat =>
    obtain ⟨hlocal, hne, hfree⟩ := newExport?_eq_some.1 hnew
    have hkey : item.key = (.data, item.name) := Prod.ext (category_of_newExport? hnew) rfl
    have hplaces := h.places_concat hfree
    refine ⟨by simpa [keys, hkey] using hplaces, ?_, ?_⟩
    · intro first second halias
      obtain ⟨rfl, rfl⟩ | hold := Assoc.eq_or_get?_of_get?_put halias
      · exact hexport (Item.reexport?_eq_some.2 ⟨hlocal, hne, rfl⟩)
      · exact h.recorded hold
    · intro first second halias
      obtain ⟨rfl, rfl⟩ | hold := Assoc.eq_or_get?_of_get?_put halias
      · exact ⟨_, Assoc.get?_put_self _ _ _⟩
      · obtain ⟨j, hj⟩ := h.listed hold
        exact ⟨j, Assoc.get?_put_of_get? hfree hj⟩

end Mirrored

/-- Without chains of exports the index mirrors the items after every push. -/
lemma mirrored_ofItems {items seen : List Item} (h : Unchained items) (hseen : seen <+: items) :
    Mirrored (reexports items) (ofItems seen) := by
  induction seen using List.reverseRecOn with
  | nil => exact ⟨by simp [keys], by simp, by simp⟩
  | append_singleton seen item ih =>
    rw [ofItems_concat]
    refine (ih ((List.prefix_append _ _).trans hseen)).push (pushed_push _ _) ?_ h
    intro pair hpair
    exact mem_reexports.2 ⟨item, hseen.subset (by simp), hpair⟩

/-- Without chains of exports no push clashes. -/
lemma neverClashes_of_unchained {items : List Item} (h : Unchained items) : NeverClashes items :=
  (distinct_iff_neverClashes items).1 fun _ hseen => (mirrored_ofItems h hseen).distinct

/-! ### Documents -/

/-- A list of a document has distinct names, exactly if the items of the category that are not
ignored differ in their names. -/
lemma nodup_document_iff {settings : Settings} {overview? : Option DocComment}
    {name? : Option String} {category : Category} {list : List Item}
    (hlist : (catalog.document settings overview? name?).items? category = some list) :
    (list.map (·.name)).Nodup ↔ catalog.items.Pairwise fun a b =>
      (a.category = category ∧ settings.ignores a.visibility = false) →
      (b.category = category ∧ settings.ignores b.visibility = false) → a.name ≠ b.name := by
  simp only [Catalog.document, Option.ite_none_right_eq_some, Option.some.injEq] at hlist
  obtain ⟨_, rfl⟩ := hlist
  simp [List.Nodup, List.pairwise_map, List.pairwise_filter, Item.present]

/-- The lists of a document have distinct names if the catalog has. -/
lemma Distinct.document (h : catalog.Distinct) {settings : Settings} {overview? : Option DocComment}
    {name? : Option String} {category : Category} {list : List Item}
    (hlist : (catalog.document settings overview? name?).items? category = some list) :
    (list.map (·.name)).Nodup := by
  rw [nodup_document_iff hlist]
  have hkeys : catalog.items.Pairwise fun a b => a.key ≠ b.key := List.pairwise_map.1 h
  refine hkeys.imp ?_
  rintro a b hne ⟨ha, _⟩ ⟨hb, _⟩ hname
  exact hne (Prod.ext (ha.trans hb.symm) hname)

/-- A document that leaves nothing out shows whether the catalog has distinct names. -/
lemma distinct_of_document {settings : Settings} {overview? : Option DocComment}
    {name? : Option String} (hwants : ∀ category, settings.wants (.items category) = true)
    (hignores : ∀ visibility, settings.ignores visibility = false)
    (h : ∀ category list, (catalog.document settings overview? name?).items? category = some list →
      (list.map (·.name)).Nodup) : catalog.Distinct := by
  refine List.pairwise_map.2 (List.pairwise_iff_getElem.2 ?_)
  intro i j hi hj hij heq
  have hlist : ∃ list, (catalog.document settings overview? name?).items?
      catalog.items[i].category = some list := by
    simp [Catalog.document, hwants]
  obtain ⟨list, hlist⟩ := hlist
  have hpair := (nodup_document_iff hlist).1 (h _ _ hlist)
  exact List.pairwise_iff_getElem.1 hpair i j hi hj hij ⟨rfl, hignores _⟩
    ⟨(congrArg Prod.fst heq).symm, hignores _⟩ (congrArg Prod.snd heq)

/-- When the catalog of a sequence of items lists each category and name once. After every push it
does, exactly if no push of the sequence clashes, and none does if there are no chains of exports.
Where the sequence is what was found in a component, all lists of the document have distinct names
if no push clashes; a document that leaves nothing out has them exactly if the catalog of the whole
sequence lists each category and name once. -/
theorem names_distinct_iff (items : List Item) :
    ((∀ seen, seen <+: items → (ofItems seen).Distinct) ↔ NeverClashes items) ∧
    (Unchained items → NeverClashes items) ∧
    ∀ (source : Source) (options : Options) (settings : Settings) (found : Extraction)
      (report : Report), options.check = .ok settings → source.extract settings = .ok found →
      found.items = items → source.report options = .ok report →
      (NeverClashes items → ∀ category list,
        report.document.items? category = some list → (list.map (·.name)).Nodup) ∧
      ((∀ category, settings.wants (.items category) = true) →
        (∀ visibility, settings.ignores visibility = false) →
        ((∀ category list, report.document.items? category = some list →
          (list.map (·.name)).Nodup) ↔ (ofItems items).Distinct)) := by
  refine ⟨distinct_iff_neverClashes items, neverClashes_of_unchained, ?_⟩
  intro source options settings found report hcheck hextract hitems hreport
  obtain ⟨settings', found', hcheck', hextract', rfl⟩ := Source.report_eq_ok_iff.1 hreport
  rw [hcheck] at hcheck'
  cases hcheck'
  rw [hextract] at hextract'
  cases hextract'
  subst hitems
  have hsettings := Source.settings_of_extract hextract
  refine ⟨?_, ?_⟩
  · intro hclash category list hlist
    have hdistinct := (distinct_iff_neverClashes _).2 hclash _ List.prefix_rfl
    exact hdistinct.document hlist
  · intro hwants hignores
    constructor
    · exact distinct_of_document (by rwa [hsettings]) (by rwa [hsettings])
    · intro hdistinct category list hlist
      exact hdistinct.document hlist

/-- A variable that is declared, exported under another name and used has one entry. -/
theorem names_distinct_iff_reexport :
    let items : List Item := [
      { name := "a", detail := .data { kind? := some .let } },
      { name := "b", detail := .data { localName? := some "a" } },
      { name := "a", detail := .data {} }]
    Unchained items ∧ ∀ seen, seen <+: items → (ofItems seen).Distinct := by
  intro items
  have hchain : Unchained items := by decide
  obtain ⟨hdistinct, hclashes, _⟩ := names_distinct_iff items
  exact ⟨hchain, hdistinct.2 (hclashes hchain)⟩

/-- Two variables that are exported under each other's name before one of them is declared: the
declaration is listed a second time under a name that is taken. -/
theorem swapped_exports_not_distinct :
    ¬ (ofItems [
      { name := "b", detail := .data { localName? := some "a" } },
      { name := "a", detail := .data { localName? := some "b" } },
      { name := "a", detail := .data { kind? := some .let } }]).Distinct := by
  decide

end Catalog

end ComponentApi
