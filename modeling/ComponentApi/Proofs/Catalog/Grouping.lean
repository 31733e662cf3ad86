import ComponentApi.Proofs.Catalog.Distinct

/-!
# A catalog as groups of items

Where exports under other names do not interfere with each other (`PlainExports`), a catalog is what
grouping gives: the items are grouped by category and canonical name, in the order of the first
member of each group, and each group is merged from left to right. The canonical name of a variable
is its exported name, if it has one anywhere in the sequence, so it does not matter whether the
export comes before, between or after the other mentions of the variable.

The induction goes over the prefixes of the sequence. A push of a plain item adds a member to a
group or a group (`grouped_concat`); a new export renames one group (`grouped_rename`).
-/

namespace ComponentApi

/-! ### Grouping -/

/-- The items that have the key of the first one. -/
def alike (key : Item → Category × String) (first : Item) (rest : List Item) : List Item :=
  rest.filter (key · == key first)

/-- The items that have another key than the first one. -/
def unlike (key : Item → Category × String) (first : Item) (rest : List Item) : List Item :=
  rest.filter (key · != key first)

/-- The groups of items with the same key, in the order of their first members. Each group is merged
from left to right and is named by its key. -/
def grouped (key : Item → Category × String) : List Item → List Item
  | [] => []
  | first :: rest =>
    { (alike key first rest).foldl Item.merge first with name := (key first).2 } ::
      grouped key (unlike key first rest)
termination_by items => items.length
decreasing_by exact Nat.lt_succ_of_le (List.length_filter_le _ _)

/-- The items behind the first one that belong to its group are those with its key. -/
lemma mem_alike {key : Item → Category × String} {first item : Item} {rest : List Item} :
    item ∈ alike key first rest ↔ item ∈ rest ∧ key item = key first := by
  simp [alike]

/-- The items that are left for later groups are those with another key. -/
lemma mem_unlike {key : Item → Category × String} {first item : Item} {rest : List Item} :
    item ∈ unlike key first rest ↔ item ∈ rest ∧ key item ≠ key first := by
  simp [unlike]

/-- An item with another key does not join the first group. -/
lemma alike_concat {key : Item → Category × String} {first item : Item} {rest : List Item}
    (h : key item ≠ key first) : alike key first (rest ++ [item]) = alike key first rest := by
  simp [alike, h]

/-- An item with another key is left for a later group. -/
lemma unlike_concat {key : Item → Category × String} {first item : Item} {rest : List Item}
    (h : key item ≠ key first) :
    unlike key first (rest ++ [item]) = unlike key first rest ++ [item] := by
  simp [unlike, h]

/-- Merging from left to right keeps the category of the first item. -/
lemma category_foldl_merge (first : Item) (rest : List Item) :
    (rest.foldl Item.merge first).category = first.category := by
  induction rest generalizing first with
  | nil => rfl
  | cons item rest ih => rw [List.foldl_cons, ih, Item.merge_category]

/-- A group is found by the key of its first member. -/
lemma key_merged {key : Item → Category × String} (hkey : ∀ item, (key item).1 = item.category)
    (first : Item) (rest : List Item) :
    Item.key { rest.foldl Item.merge first with name := (key first).2 } = key first :=
  Prod.ext ((category_foldl_merge first rest).trans (hkey first).symm) rfl

/-- The keys of the groups, if the keys respect categories. -/
lemma key_grouped_cons {key : Item → Category × String}
    (hkey : ∀ item, (key item).1 = item.category) (first : Item) (rest : List Item) :
    (grouped key (first :: rest)).map Item.key =
      key first :: (grouped key (unlike key first rest)).map Item.key := by
  rw [grouped, List.map_cons, key_merged hkey]

/-- There is a group for each key that an item has. -/
lemma mem_key_grouped {key : Item → Category × String} (hkey : ∀ item, (key item).1 = item.category)
    {items : List Item} {k : Category × String} :
    k ∈ (grouped key items).map Item.key ↔ ∃ item ∈ items, key item = k := by
  induction items using grouped.induct key with
  | case1 => simp [grouped]
  | case2 first rest ih =>
    rw [key_grouped_cons hkey, List.mem_cons, ih]
    constructor
    · rintro (rfl | ⟨item, hitem, rfl⟩)
      · exact ⟨first, List.mem_cons_self, rfl⟩
      · exact ⟨item, List.mem_cons_of_mem _ (mem_unlike.1 hitem).1, rfl⟩
    · rintro ⟨item, hitem, rfl⟩
      by_cases heq : key item = key first
      · exact .inl heq
      · obtain rfl | hrest := List.mem_cons.1 hitem
        · exact absurd rfl heq
        · exact .inr ⟨item, mem_unlike.2 ⟨hrest, heq⟩, rfl⟩

/-- One more item with the key of a group is merged into that group. -/
lemma grouped_concat_of_getElem? {key : Item → Category × String}
    (hkey : ∀ item, (key item).1 = item.category) {items : List Item} {item : Item} {i : Nat}
    (hi : ((grouped key items).map Item.key)[i]? = some (key item)) :
    grouped key (items ++ [item]) = (grouped key items).modify i (·.merge item) := by
  induction items using grouped.induct key generalizing i with
  | case1 => simp [grouped] at hi
  | case2 first rest ih =>
    rw [key_grouped_cons hkey] at hi
    rw [List.cons_append, grouped, grouped]
    cases i with
    | zero =>
      have heq : key item = key first := by simpa using hi.symm
      have halike : alike key first (rest ++ [item]) = alike key first rest ++ [item] := by
        simp [alike, heq]
      have hunlike : unlike key first (rest ++ [item]) = unlike key first rest := by
        simp [unlike, heq]
      rw [halike, hunlike, List.foldl_append]
      rfl
    | succ i =>
      rw [List.getElem?_cons_succ] at hi
      -- The rest has no member with the key of the first group.
      obtain ⟨member, hmember, hsame⟩ := (mem_key_grouped hkey).1 (List.mem_of_getElem? hi)
      have hne : key item ≠ key first := hsame ▸ (mem_unlike.1 hmember).2
      rw [alike_concat hne, unlike_concat hne, List.modify_succ_cons, ih hi]

/-- One more item with a key that no group has makes a group of its own. -/
lemma grouped_concat_of_notMem {key : Item → Category × String}
    (hkey : ∀ item, (key item).1 = item.category) {items : List Item} {item : Item}
    (hno : key item ∉ (grouped key items).map Item.key) :
    grouped key (items ++ [item]) = grouped key items ++ [{ item with name := (key item).2 }] := by
  induction items using grouped.induct key with
  | case1 => simp [grouped, alike, unlike]
  | case2 first rest ih =>
    rw [key_grouped_cons hkey, List.mem_cons, not_or] at hno
    rw [List.cons_append, grouped, grouped, alike_concat hno.1, unlike_concat hno.1, ih hno.2]
    rfl

/-- A key that is replaced by one that no item has renames its group. -/
lemma grouped_rename {key key' : Item → Category × String} {old : Category × String}
    {category : Category} {name : String}
    (hkey : ∀ item, (key item).1 = item.category) {items : List Item}
    (hreplace : ∀ item ∈ items, key' item = if key item = old then (category, name) else key item)
    (hfree : ∀ item ∈ items, key item ≠ (category, name)) :
    grouped key' items = (grouped key items).map fun group =>
      if group.key = old then { group with name } else group := by
  induction items using grouped.induct key with
  | case1 => simp [grouped]
  | case2 first rest ih =>
    have hfirst := hreplace first List.mem_cons_self
    have hsame : ∀ item ∈ rest, (key' item == key' first) = (key item == key first) := by
      intro item hitem
      have hitem' := hreplace item (List.mem_cons_of_mem _ hitem)
      have hf := hfree first List.mem_cons_self
      have hi := hfree item (List.mem_cons_of_mem _ hitem)
      rw [Bool.eq_iff_iff, beq_iff_eq, beq_iff_eq]
      grind
    have halike : alike key' first rest = alike key first rest := List.filter_congr hsame
    have hunlike : unlike key' first rest = unlike key first rest := by
      apply List.filter_congr
      intro item hitem
      rw [bne, bne, hsame item hitem]
    have hrest := ih
      (fun item hitem => hreplace item (List.mem_cons_of_mem _ (mem_unlike.1 hitem).1))
      (fun item hitem => hfree item (List.mem_cons_of_mem _ (mem_unlike.1 hitem).1))
    rw [grouped, grouped, halike, hunlike, hrest, List.map_cons]
    congr 1
    rw [key_merged hkey, hfirst]
    split <;> rfl

/-- Changing what has a key that stands once changes one place. -/
lemma map_ite_key_eq_modify {items : List Item} {old : Category × String} {i : Nat}
    (hnodup : (items.map Item.key).Nodup) (hi : (items.map Item.key)[i]? = some old)
    (f : Item → Item) :
    (items.map fun item => if item.key = old then f item else item) = items.modify i f := by
  have hlt : i < (items.map Item.key).length := (List.getElem?_eq_some_iff.1 hi).1
  apply List.ext_getElem?
  intro j
  rw [List.getElem?_map, List.getElem?_modify]
  cases hj : items[j]? with
  | none => rfl
  | some item =>
    have hjkey : (items.map Item.key)[j]? = some item.key := by simp [hj]
    have hsame : item.key = old ↔ i = j := by
      constructor
      · rintro rfl
        exact (List.getElem?_inj hlt hnodup).1 (hi.trans hjkey.symm)
      · rintro rfl
        exact Option.some.inj (hjkey.symm.trans hi)
    by_cases hij : i = j
    · simp [hij, hsame.2 hij]
    · simp [hij, mt hsame.1 hij]

/-- Changing what has a key that stands nowhere changes nothing. -/
lemma map_ite_key_eq_self {items : List Item} {old : Category × String}
    (hno : old ∉ items.map Item.key) (f : Item → Item) :
    (items.map fun item => if item.key = old then f item else item) = items := by
  refine (List.map_congr_left ?_).trans (List.map_id' items)
  intro item hitem
  rw [if_neg]
  rintro rfl
  exact hno (List.mem_map_of_mem hitem)

/-! ### Visibility -/

/-- The visibility of items merged from left to right is the greatest of theirs. -/
lemma visibility_foldl_merge (first : Item) (rest : List Item) :
    (∀ item ∈ first :: rest,
      item.visibility.rank ≤ (rest.foldl Item.merge first).visibility.rank) ∧
    ∃ item ∈ first :: rest, item.visibility = (rest.foldl Item.merge first).visibility := by
  induction rest generalizing first with
  | nil => simp
  | cons second rest ih =>
    have hjoin : (first.merge second).visibility = first.visibility.join second.visibility := rfl
    obtain ⟨hmax, item, hitem, heq⟩ := ih (first.merge second)
    have hmerged := hmax _ List.mem_cons_self
    rw [hjoin] at hmerged
    rw [List.foldl_cons]
    refine ⟨?_, ?_⟩
    · intro item hitem
      rcases List.mem_cons.1 hitem with rfl | hitem
      · exact (Visibility.rank_le_join_left _ _).trans hmerged
      · rcases List.mem_cons.1 hitem with rfl | hitem
        · exact (Visibility.rank_le_join_right _ _).trans hmerged
        · exact hmax _ (List.mem_cons_of_mem _ hitem)
    · rcases List.mem_cons.1 hitem with rfl | hitem
      · rw [hjoin] at heq
        rcases Visibility.join_eq_or first.visibility second.visibility with hfirst | hsecond
        · exact ⟨first, by simp, hfirst.symm.trans heq⟩
        · exact ⟨second, by simp, hsecond.symm.trans heq⟩
      · exact ⟨item, by simp [hitem], heq⟩

/-- A group has the greatest visibility of its members. -/
lemma visibility_of_mem_grouped {key : Item → Category × String}
    (hkey : ∀ item, (key item).1 = item.category) {items : List Item} {group : Item}
    (hgroup : group ∈ grouped key items) :
    (∀ item ∈ items, key item = group.key → item.visibility.rank ≤ group.visibility.rank) ∧
    ∃ item ∈ items, key item = group.key ∧ item.visibility = group.visibility := by
  induction items using grouped.induct key with
  | case1 => simp [grouped] at hgroup
  | case2 first rest ih =>
    rw [grouped, List.mem_cons] at hgroup
    rcases hgroup with rfl | hgroup
    · rw [key_merged hkey]
      obtain ⟨hmax, item, hitem, heq⟩ := visibility_foldl_merge first (alike key first rest)
      refine ⟨?_, item, ?_, ?_, heq⟩
      · intro item hitem hsame
        apply hmax
        rcases List.mem_cons.1 hitem with rfl | hrest
        · exact List.mem_cons_self
        · exact List.mem_cons_of_mem _ (mem_alike.2 ⟨hrest, hsame⟩)
      · exact List.cons_subset_cons first (List.filter_subset_self _) hitem
      · rcases List.mem_cons.1 hitem with rfl | hrest
        · rfl
        · exact (mem_alike.1 hrest).2
    · obtain ⟨hmax, item, hitem, hsame, heq⟩ := ih hgroup
      have hitem' := mem_unlike.1 hitem
      refine ⟨?_, item, List.mem_cons_of_mem _ hitem'.1, hsame, heq⟩
      intro other hother hotherKey
      have hne : key other ≠ key first := by
        rw [hotherKey, ← hsame]
        exact hitem'.2
      rcases List.mem_cons.1 hother with rfl | hrest
      · exact absurd rfl hne
      · exact hmax other (mem_unlike.2 ⟨hrest, hne⟩) hotherKey

/-! ### Canonical names -/

/-- The exported name of a variable, or the name itself. -/
def canonicalName (names : List (String × String)) (item : Item) : String :=
  if item.category = .data then (names.lookup item.name).getD item.name else item.name

/-- What an item is grouped by. -/
def canonicalKey (names : List (String × String)) (item : Item) : Category × String :=
  (item.category, canonicalName names item)

/-- The canonical key of an item has the category of the item. -/
@[simp] lemma canonicalKey_fst (names : List (String × String)) (item : Item) :
    (canonicalKey names item).1 = item.category := rfl

/-- Exports under other names that do not interfere with each other: a variable has one exported
name, an exported name has one variable, no exported name is exported itself, and the only data
items under an exported name are exports of its variable. -/
structure PlainExports (items : List Item) : Prop where
  functional : ∀ first ∈ reexports items, ∀ second ∈ reexports items,
    first.1 = second.1 → first.2 = second.2
  injective : ∀ first ∈ reexports items, ∀ second ∈ reexports items,
    first.2 = second.2 → first.1 = second.1
  unchained : Unchained items
  reserved : ∀ pair ∈ reexports items, ∀ item ∈ items,
    item.category = .data → item.name = pair.2 → item.reexport? = some pair

/-- A name that is found for a local name is listed with it. -/
lemma mem_of_lookup {names : List (String × String)} {localName name : String}
    (h : names.lookup localName = some name) : (localName, name) ∈ names := by
  obtain ⟨before, after, rfl, _⟩ := List.lookup_eq_some_iff.1 h
  simp

/-- One item more adds its own export under another name, if it has one. -/
lemma reexports_concat (items : List Item) (item : Item) :
    reexports (items ++ [item]) = reexports items ++ item.reexport?.toList := by
  cases h : item.reexport? <;> simp [reexports, h]

/-- An export that is known already changes no exported name. -/
lemma lookup_concat_of_mem {names : List (String × String)} {pair : String × String}
    (h : pair ∈ names) (other : String) : (names ++ [pair]).lookup other = names.lookup other := by
  obtain ⟨localName, name⟩ := pair
  rw [List.lookup_append]
  by_cases heq : other = localName
  · subst heq
    have hsome : (names.lookup other).isSome := List.lookup_isSome_iff.2 ⟨_, h, by simp⟩
    obtain ⟨found, hfound⟩ := Option.isSome_iff_exists.1 hsome
    rw [hfound, Option.some_or]
  · simp [heq]

/-- Lists of names that give the same answers give the same canonical keys. -/
lemma canonicalKey_congr {names names' : List (String × String)}
    (h : ∀ other, names.lookup other = names'.lookup other) :
    canonicalKey names = canonicalKey names' := by
  funext item
  simp only [canonicalKey, canonicalName, h]

/-- An export replaces the local name, where it is still a canonical name, by the exported one. -/
lemma canonicalKey_concat {names : List (String × String)} {localName : String} (name : String)
    (hchain : ∀ pair ∈ names, pair.2 ≠ localName) (item : Item) :
    canonicalKey (names ++ [(localName, name)]) item =
      if canonicalKey names item = (.data, localName) then (.data, name)
      else canonicalKey names item := by
  simp only [canonicalKey, canonicalName, List.lookup_append, List.lookup_singleton]
  by_cases hdata : item.category = .data
  · obtain hlookup | ⟨found, hlookup⟩ := Option.eq_none_or_eq_some (names.lookup item.name)
    · by_cases heq : item.name = localName
      · subst heq
        simp [hdata, hlookup]
      · simp [hdata, hlookup, heq]
    · have hne : found ≠ localName := hchain _ (mem_of_lookup hlookup)
      simp [hdata, hlookup, hne]
  · simp [hdata]

namespace Catalog

variable {catalog next : Catalog} {items seen : List Item} {item : Item}

/-- A catalog is what grouping by canonical names gives, and it knows the exported names. -/
structure Groups (seen : List Item) (catalog : Catalog) : Prop where
  items_eq : catalog.items = grouped (canonicalKey (reexports seen)) seen
  exported_eq : ∀ localName, catalog.exported.get? localName = (reexports seen).lookup localName

namespace Groups

/-- Items are listed under their canonical names. -/
lemma listedName_eq (h : Groups seen catalog) (item : Item) :
    catalog.listedName item = canonicalName (reexports seen) item := by
  simp only [listedName, canonicalName, h.exported_eq]

/-- The keys of a catalog that groups what was seen are those of the groups. -/
lemma keys_eq (h : Groups seen catalog) :
    catalog.keys = (grouped (canonicalKey (reexports seen)) seen).map Item.key := by
  rw [keys, h.items_eq]

/-- The keys are the canonical keys of what was seen. -/
lemma mem_keys (h : Groups seen catalog) {key : Category × String} :
    key ∈ catalog.keys ↔ ∃ item ∈ seen, canonicalKey (reexports seen) item = key := by
  rw [h.keys_eq, mem_key_grouped (canonicalKey_fst _)]

/-- If something is listed under an exported name, the export was seen. -/
lemma mem_reexports_of_key (h : Groups seen catalog) (hplain : PlainExports items)
    (hseen : seen ⊆ items) {pair : String × String} (hpair : pair ∈ reexports items)
    (hkey : (.data, pair.2) ∈ catalog.keys) : pair ∈ reexports seen := by
  obtain ⟨member, hmember, heq⟩ := h.mem_keys.1 hkey
  have hdata : member.category = .data := congrArg Prod.fst heq
  have hname : canonicalName (reexports seen) member = pair.2 := congrArg Prod.snd heq
  rw [canonicalName, if_pos hdata] at hname
  cases hlookup : (reexports seen).lookup member.name with
  | none =>
    rw [hlookup, Option.getD_none] at hname
    have hre := hplain.reserved pair hpair member (hseen hmember) hdata hname
    exact mem_reexports.2 ⟨member, hmember, hre⟩
  | some name =>
    rw [hlookup, Option.getD_some] at hname
    have hmem := mem_of_lookup hlookup
    have hmem' : (member.name, name) ∈ reexports items := by
      obtain ⟨exporter, hexporter, hre⟩ := mem_reexports.1 hmem
      exact mem_reexports.2 ⟨exporter, hseen hexporter, hre⟩
    have hlocal := hplain.injective _ hmem' _ hpair hname
    have hsame : (member.name, name) = pair := Prod.ext hlocal hname
    exact hsame ▸ hmem

/-- A push that changes no exported name adds a member to a group, or a group. -/
lemma push_plain (h : Groups seen catalog) {names : List (String × String)}
    (hmirror : Mirrored names catalog) (step : Pushed catalog item next)
    (hnew : catalog.newExport? item = none)
    (hlookup : ∀ other, (reexports (seen ++ [item])).lookup other = (reexports seen).lookup other) :
    Groups (seen ++ [item]) next := by
  have hkey := canonicalKey_congr hlookup
  have hname := h.listedName_eq item
  cases step with
  | @merged i _ hat =>
    refine ⟨?_, fun localName => (h.exported_eq localName).trans (hlookup localName).symm⟩
    have hi := (hmirror.places _ _).1 hat
    rw [h.keys_eq, hname] at hi
    rw [hkey, grouped_concat_of_getElem? (canonicalKey_fst _) hi, h.items_eq]
  | added _ hat =>
    refine ⟨?_, fun localName => (h.exported_eq localName).trans (hlookup localName).symm⟩
    have hown : canonicalName (reexports seen) item = item.name :=
      hname.symm.trans (hmirror.listedName_eq hat)
    have hno := hmirror.notMem_keys hat
    rw [h.keys_eq, hname] at hno
    rw [hkey, grouped_concat_of_notMem (canonicalKey_fst _) hno, h.items_eq, canonicalKey, hown]
  | renamed hsome _ => rw [hnew] at hsome; cases hsome
  | exported hsome _ => rw [hnew] at hsome; cases hsome

/-- A new export renames the group of its variable, if there is one, and is merged into it. -/
lemma push_export (h : Groups seen catalog) {names : List (String × String)}
    (hmirror : Mirrored names catalog) (step : Pushed catalog item next) {localName : String}
    (hnew : catalog.newExport? item = some localName)
    (hunseen : (reexports seen).lookup localName = none)
    (hchain : Unchained (seen ++ [item])) : Groups (seen ++ [item]) next := by
  obtain ⟨hlocal, hne, hfree⟩ := newExport?_eq_some.1 hnew
  have hdata := category_of_newExport? hnew
  have hconcat : reexports (seen ++ [item]) = reexports seen ++ [(localName, item.name)] := by
    rw [reexports_concat, Item.reexport?_eq_some.2 ⟨hlocal, hne, rfl⟩, Option.toList_some]
  have hpair : (localName, item.name) ∈ reexports (seen ++ [item]) := by simp [hconcat]
  have hold : ∀ pair ∈ reexports seen, pair.2 ≠ localName := by
    intro pair hmem
    exact hchain pair (hconcat ▸ List.mem_append_left _ hmem) _ hpair
  -- The exported name is no local name, so the item itself is grouped by its own name.
  have hitem : canonicalKey (reexports (seen ++ [item])) item = (.data, item.name) := by
    have hnone : (reexports (seen ++ [item])).lookup item.name = none := by
      cases hfound : (reexports (seen ++ [item])).lookup item.name with
      | none => rfl
      | some name => exact absurd rfl (hchain _ hpair _ (mem_of_lookup hfound))
    rw [canonicalKey, canonicalName, if_pos hdata, hnone, hdata, Option.getD_none]
  have hreplace : ∀ other ∈ seen, canonicalKey (reexports (seen ++ [item])) other =
      if canonicalKey (reexports seen) other = (.data, localName) then (.data, item.name)
      else canonicalKey (reexports seen) other := by
    intro other _
    rw [hconcat]
    exact canonicalKey_concat item.name hold other
  have hunused : ∀ other ∈ seen, canonicalKey (reexports seen) other ≠ (.data, item.name) := by
    intro other hother heq
    exact hmirror.notMem_keys hfree (h.mem_keys.2 ⟨other, hother, heq⟩)
  have hgroups := grouped_rename (canonicalKey_fst _) hreplace hunused
  rw [← h.items_eq] at hgroups
  have hexported : ∀ other, (catalog.exported.put localName item.name).get? other =
      (reexports (seen ++ [item])).lookup other := by
    intro other
    rw [Assoc.get?_put, h.exported_eq, hconcat, List.lookup_append, List.lookup_singleton]
    by_cases heq : other = localName
    · simp [heq, hunseen]
    · simp [heq, Ne.symm heq]
  cases step with
  | merged hnone _ => rw [hnew] at hnone; cases hnone
  | added hnone _ => rw [hnew] at hnone; cases hnone
  | @renamed _ i hsome hat =>
    rw [hnew] at hsome
    cases hsome
    refine ⟨?_, hexported⟩
    have hi := (hmirror.places _ _).1 hat
    rw [map_ite_key_eq_modify hmirror.distinct hi] at hgroups
    have hi' : ((grouped (canonicalKey (reexports (seen ++ [item]))) seen).map Item.key)[i]? =
        some (canonicalKey (reexports (seen ++ [item])) item) := by
      obtain ⟨found, hfound, hkey⟩ : ∃ found, catalog.items[i]? = some found ∧
          found.key = (.data, localName) := by
        simpa [keys, List.getElem?_map, Option.map_eq_some_iff] using hi
      have hcat : found.category = .data := congrArg Prod.fst hkey
      rw [hgroups, hitem, List.getElem?_map, getElem?_modify_of_some hfound, if_pos rfl]
      exact congrArg some (Prod.ext hcat rfl)
    rw [grouped_concat_of_getElem? (canonicalKey_fst _) hi', hgroups, List.modify_modify_eq]
    rfl
  | exported hsome hat =>
    rw [hnew] at hsome
    cases hsome
    refine ⟨?_, hexported⟩
    rw [map_ite_key_eq_self (hmirror.notMem_keys hat)] at hgroups
    have hno := hmirror.notMem_keys hfree
    rw [keys, ← hgroups, ← hitem] at hno
    rw [grouped_concat_of_notMem (canonicalKey_fst _) hno, hgroups, hitem]

/-- A push keeps a catalog grouped, whatever the item is. -/
lemma push (h : Groups seen catalog) (hmirror : Mirrored (reexports items) catalog)
    (step : Pushed catalog item next) (hplain : PlainExports items)
    (hseen : seen ++ [item] <+: items) : Groups (seen ++ [item]) next := by
  have hsub : seen ++ [item] ⊆ items := hseen.subset
  have hall : ∀ pair ∈ reexports (seen ++ [item]), pair ∈ reexports items := by
    intro pair hpair
    obtain ⟨exporter, hexporter, hre⟩ := mem_reexports.1 hpair
    exact mem_reexports.2 ⟨exporter, hsub hexporter, hre⟩
  cases hnew : catalog.newExport? item with
  | none =>
    refine h.push_plain hmirror step hnew ?_
    cases hre : item.reexport? with
    | none => simp [reexports_concat, hre]
    | some pair =>
      -- An export that is not new finds its exported name listed, so it was seen before.
      obtain ⟨localName, name⟩ := pair
      obtain ⟨hlocal, hne, rfl⟩ := Item.reexport?_eq_some.1 hre
      have hpair : (localName, item.name) ∈ reexports items :=
        mem_reexports.2 ⟨item, hsub (by simp), hre⟩
      have hkey : (.data, item.name) ∈ catalog.keys := by
        cases hat : catalog.index.get? (.data, item.name) with
        | none => rw [newExport?_eq_some.2 ⟨hlocal, hne, hat⟩] at hnew; cases hnew
        | some i => exact List.mem_of_getElem? ((hmirror.places _ _).1 hat)
      have hmem := h.mem_reexports_of_key hplain
        (fun _ hmember => hsub (List.mem_append_left _ hmember)) hpair hkey
      rw [reexports_concat, hre, Option.toList_some]
      exact lookup_concat_of_mem hmem
  | some localName =>
    obtain ⟨hlocal, hne, hfree⟩ := newExport?_eq_some.1 hnew
    have hpair : (localName, item.name) ∈ reexports items :=
      mem_reexports.2 ⟨item, hsub (by simp), Item.reexport?_eq_some.2 ⟨hlocal, hne, rfl⟩⟩
    refine h.push_export hmirror step hnew ?_ ?_
    · -- If the variable had an exported name, it would be this one, and listed.
      cases hfound : (reexports seen).lookup localName with
      | none => rfl
      | some name =>
        rw [← h.exported_eq] at hfound
        have hsame : name = item.name :=
          hplain.functional _ (hmirror.recorded hfound) _ hpair rfl
        obtain ⟨i, hi⟩ := hmirror.listed hfound
        rw [hsame, hfree] at hi
        cases hi
    · intro first hfirst second hsecond
      exact hplain.unchained first (hall first hfirst) second (hall second hsecond)

end Groups

/-- With plain exports a catalog is grouped after every push. -/
lemma groups_ofItems (hplain : PlainExports items) (hseen : seen <+: items) :
    Groups seen (ofItems seen) := by
  induction seen using List.reverseRecOn with
  | nil => exact ⟨by simp [grouped], by simp [reexports]⟩
  | append_singleton seen item ih =>
    have hprefix : seen <+: items := (List.prefix_append _ _).trans hseen
    rw [ofItems_concat]
    exact (ih hprefix).push (mirrored_ofItems hplain.unchained hprefix) (pushed_push _ _) hplain
      hseen

/-- With plain exports a catalog holds the groups of items with the same category and canonical
name, in the order of their first members, each merged from left to right under its canonical name.
Each group has the greatest visibility of its members. -/
theorem items_eq_grouped (items : List Item) (hplain : PlainExports items) :
    (ofItems items).items = grouped (canonicalKey (reexports items)) items ∧
    ∀ group ∈ (ofItems items).items,
      (∀ item ∈ items, canonicalKey (reexports items) item = group.key →
        item.visibility.rank ≤ group.visibility.rank) ∧
      ∃ item ∈ items, canonicalKey (reexports items) item = group.key ∧
        item.visibility = group.visibility := by
  have heq := (groups_ofItems hplain List.prefix_rfl).items_eq
  refine ⟨heq, ?_⟩
  intro group hgroup
  rw [heq] at hgroup
  exact visibility_of_mem_grouped (canonicalKey_fst _) hgroup

/-- A variable that is used, exported under another name and declared in this order. -/
theorem items_eq_grouped_between :
    let items : List Item := [
      { name := "a", detail := .data {} },
      { name := "x", detail := .computed {} },
      { name := "b", visibility := .public, detail := .data { localName? := some "a" } },
      { name := "a", description := "Counts.", detail := .data { kind? := some .let } }]
    PlainExports items ∧ (ofItems items).items = grouped (canonicalKey (reexports items)) items ∧
      (ofItems items).items.map (fun item => (item.name, item.visibility)) =
        [("b", .public), ("x", .private)] := by
  intro items
  have hplain : PlainExports items := ⟨by decide, by decide, by decide, by decide⟩
  exact ⟨hplain, (items_eq_grouped items hplain).1, by decide⟩

end Catalog

end ComponentApi
