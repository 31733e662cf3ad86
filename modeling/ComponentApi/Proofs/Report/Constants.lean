import ComponentApi.Component
import ComponentApi.Proofs.Catalog.Members
import ComponentApi.Proofs.Markup.Adoption

/-!
# Constants

A variable that is declared as a constant cannot be assigned. Every mention of a variable in a
script or in the markup tells both alike (`Item.MarksConstant`): a declaration with `const` gives
the kind and the mark, and mentions without a kind, such as exports in braces, imports and bindings,
give neither.

When mentions are merged, the mark is that of the first one, and the kind is that of the first one
that has a kind. So the two differ exactly for a `LateConstant`: a variable that is first mentioned
without a kind and whose declaration, which comes later, is one of a constant.
-/

namespace ComponentApi

namespace Item

/-- The word that declares a variable. -/
def kind? (item : Item) : Option VariableKind :=
  match item.detail with
  | .data detail => detail.kind?
  | _ => none

/-- The item is marked as one that cannot be assigned exactly if it is a constant. -/
def MarksConstant (item : Item) : Prop :=
  item.readonly? = some true ↔ item.kind? = some .const

instance (item : Item) : Decidable item.MarksConstant :=
  inferInstanceAs (Decidable (_ ↔ _))

/-- Of the mentions of a variable, the first one has no kind, and the first kind is that of a
constant. -/
def LateConstant (mentions : List Item) : Prop :=
  mentions.head?.bind kind? = none ∧ mentions.findSome? kind? = some .const

instance (mentions : List Item) : Decidable (LateConstant mentions) :=
  inferInstanceAs (Decidable (_ ∧ _))

/-- An item that is no variable is not marked, and has no kind. -/
lemma marksConstant_of_category {item : Item} (h : item.category ≠ .data) :
    item.MarksConstant := by
  obtain ⟨_, _, _, _, _, detail⟩ := item
  cases detail with
  | data => exact absurd rfl h
  | _ => simp [MarksConstant, readonly?, Detail.readonly?, kind?]

/-- A variable is marked as a constant if its detail is. -/
lemma marksConstant_documented (name : String) {detail : DataDetail} (doc : DocComment)
    (location : Span) (h : detail.readonly = true ↔ detail.kind? = some .const) :
    (Item.documented name (.data detail) doc location).MarksConstant := by
  simpa [MarksConstant, documented, readonly?, Detail.readonly?, kind?] using h

/-- A dispatched event is no variable. -/
lemma IsDispatched.marksConstant {item : Item} (h : item.IsDispatched) : item.MarksConstant := by
  apply marksConstant_of_category
  have hdetail : item.detail = .event {} := h
  simp [category, hdetail, Detail.category]

/-- A variable is shown with its kind. -/
@[simp] lemma kind?_present (settings : Settings) (item : Item) :
    (item.present settings).kind? = item.kind? := by
  obtain ⟨_, _, _, _, _, detail⟩ := item
  cases detail <;> rfl

/-- A variable is shown with its mark. -/
@[simp] lemma readonly?_present (settings : Settings) (item : Item) :
    (item.present settings).readonly? = item.readonly? := by
  obtain ⟨_, _, _, _, _, detail⟩ := item
  cases detail <;> rfl

/-! ### Merged mentions -/

/-- Of two mentions of a variable, the first that has a kind gives it. -/
lemma kind?_merge {target source : Item} (h : target.category = source.category) :
    (target.merge source).kind? = target.kind?.or source.kind? := by
  obtain ⟨_, _, _, _, _, detail⟩ := target
  obtain ⟨_, _, _, _, _, other⟩ := source
  have halike : detail.Alike other := Detail.alike_of_category h
  cases halike with
  | data => exact Option.orElse_eq_or
  | _ => rfl

namespace MergedFrom

variable {members : List Item} {merged : Item}

/-- A merged variable has the mark of its first mention. -/
lemma readonly?_eq (h : MergedFrom members merged) :
    merged.readonly? = members.head?.bind readonly? := by
  induction h with
  | single => rfl
  | @concat members merged h name last _ ih =>
    obtain ⟨first, rest, rfl⟩ := List.exists_cons_of_ne_nil h.ne_nil
    calc ({ merged with name }.merge last).readonly?
      _ = merged.readonly? := Detail.readonly?_merge _ _
      _ = (first :: rest ++ [last]).head?.bind readonly? := ih

/-- A merged variable has the first kind that a mention has. -/
lemma kind?_eq (h : MergedFrom members merged) : merged.kind? = members.findSome? kind? := by
  induction h with
  | single item => simp
  | @concat members merged h name last hcategory ih =>
    have hrenamed : Item.category { merged with name } = last.category := hcategory
    calc ({ merged with name }.merge last).kind?
      _ = merged.kind?.or last.kind? := kind?_merge hrenamed
      _ = (members ++ [last]).findSome? kind? := by simp [ih, List.findSome?_append]

/-- An item that is merged from mentions that mark constants is marked only if it is a constant, and
a constant is not marked exactly if it is late. -/
lemma marksConstant_iff (h : MergedFrom members merged)
    (hmarks : ∀ mention ∈ members, mention.MarksConstant) :
    (merged.readonly? = some true → merged.kind? = some .const) ∧
      (merged.MarksConstant ↔ ¬ LateConstant members) := by
  obtain ⟨first, rest, rfl⟩ := List.exists_cons_of_ne_nil h.ne_nil
  have hfirst : first.readonly? = some true ↔ first.kind? = some .const :=
    hmarks first List.mem_cons_self
  have hreadonly : merged.readonly? = first.readonly? := h.readonly?_eq
  have hkind := h.kind?_eq
  rw [List.findSome?_cons] at hkind
  unfold MarksConstant LateConstant
  rw [hreadonly, hkind, hfirst, List.findSome?_cons, List.head?_cons, Option.bind_some]
  -- If the first mention has a kind, the mark and the kind are both its own.
  cases first.kind? with
  | none => simp
  | some kind => simp

end MergedFrom

/-- An export in braces in front of the declaration. -/
example :
    let mentions : List Item := [
      { name := "x", detail := .data { localName? := some "x" } },
      { name := "x", detail := .data { kind? := some .const, readonly := true } }]
    (∀ mention ∈ mentions, mention.MarksConstant) ∧ LateConstant mentions := by
  decide

end Item

/-! ### Mentions in scripts and in the markup -/

/-- A declaration or an import marks its variable as a constant exactly if it is one. -/
lemma Script.Introduces.marksConstant {excerpt : Excerpt} {name : Bound} {item : Item}
    (h : Introduces excerpt name item) : item.MarksConstant := by
  cases h with
  | «variable» kind => exact Item.marksConstant_documented _ _ _ (by simp)
  | method => exact Item.marksConstant_of_category nofun
  | imported path specifier =>
    unfold importDetail
    dsimp only
    split_ifs
    · exact Item.marksConstant_of_category nofun
    · exact Item.marksConstant_documented _ _ _ (by simp)

/-- What a script shows is marked as a constant exactly if it is one. -/
lemma Script.Shown.marksConstant {excerpt : Excerpt} {item : Item} (h : Shown excerpt item) :
    item.MarksConstant := by
  cases h with
  | dispatched h => exact h.marksConstant
  | bound h => exact h.marksConstant
  | exposed h =>
    cases h with
    | exported _ source? =>
      unfold exportItem
      cases source? <;> exact Item.marksConstant_documented _ _ _ (by simp)
    | assigned _ _ _ _ hcategory => exact Item.marksConstant_of_category (by simp [hcategory])

/-- What the markup shows is marked as a constant exactly if it is one. -/
lemma Markup.Shown.marksConstant {template : Template} {comment? : Option Span} {item : Item}
    (h : Shown template comment? item) : item.MarksConstant := by
  cases h with
  | dispatched h => exact h.marksConstant
  | documented _ h =>
    cases h with
    | data => exact Item.marksConstant_documented _ _ _ (by simp)
    | _ => exact Item.marksConstant_of_category nofun

namespace Extraction

variable {P : Item → Prop} {found next : Extraction}

/-- What holds of all items of scripts holds of what is found in them. -/
lemma forall_mem_readScripts (hP : ∀ excerpt item, Script.Shown excerpt item → P item)
    (hfound : ∀ item ∈ found.items, P item) {blocks : List ScriptBlock}
    (h : found.readScripts blocks = .ok next) : ∀ item ∈ next.items, P item := by
  have hadds : Adds P found next :=
    readScripts_rel .refl .trans (fun _ _ _ _ hread => (readScript_adds hread).mono (hP _)) h
  exact hadds.forall_mem hfound

/-- What holds of all items of the markup holds behind an event, if it held before. -/
lemma forall_mem_step {template : Markup.Template} {visit : Markup.Visit}
    (hP : ∀ comment? item, Markup.Shown template comment? item → P item)
    (h : ∀ item ∈ visit.found.items, P item) (event : Markup.Event) :
    ∀ item ∈ (Markup.Visit.step template visit event).found.items, P item := by
  obtain hquiet | ⟨_, hreads⟩ := Markup.step_cases template visit event
  · rwa [hquiet.found]
  · apply (hreads.found.mono (hP _)).forall_mem
    rwa [Markup.withOverview_items]

/-- What holds of all items of the markup holds behind events, if it held before. -/
lemma forall_mem_foldl {template : Markup.Template} {visit : Markup.Visit}
    (hP : ∀ comment? item, Markup.Shown template comment? item → P item)
    (h : ∀ item ∈ visit.found.items, P item) (events : List Markup.Event) :
    ∀ item ∈ (events.foldl (Markup.Visit.step template) visit).found.items, P item := by
  induction events generalizing visit with
  | nil => exact h
  | cons event events ih => exact ih (forall_mem_step hP h event)

/-- An item of a document is one of the catalog, as it stands in a document. -/
lemma exists_of_mem_document {name? : Option String} {category : Category} {items : List Item}
    (h : (found.document name?).items? category = some items) {item : Item} (hitem : item ∈ items) :
    ∃ (i : Nat) (merged : Item), (Catalog.ofItems found.items).items[i]? = some merged ∧
      item = merged.present found.settings := by
  simp only [document, Catalog.document] at h
  split_ifs at h
  cases h
  obtain ⟨merged, hmerged, rfl⟩ := List.mem_map.1 hitem
  obtain ⟨i, hi⟩ := List.mem_iff_getElem?.1 (List.mem_filter.1 hmerged).1
  exact ⟨i, merged, hi, rfl⟩

end Extraction

namespace Source

variable {source : Source} {settings : Settings} {found : Extraction}

/-- What is found in a component is found in its template, behind what is found in its scripts. -/
lemma exists_of_extract (h : source.extract settings = .ok found) :
    ∃ middle, Extraction.readScripts { settings } source.scripts = .ok middle ∧
      (middle.readMarkup source.template.toList source.templateOffset).1 = found := by
  unfold extract at h
  cases hscripts : Extraction.readScripts { settings } source.scripts with
  | error failure =>
    rw [hscripts] at h
    cases h
  | ok middle =>
    refine ⟨middle, rfl, ?_⟩
    simp only [hscripts, bind, Except.bind] at h
    split at h
    · next hmarkup =>
      rw [hmarkup]
      exact Except.ok.inj h
    · cases h

/-- Every mention of a variable in a component tells alike whether it is a constant. -/
lemma marksConstant_of_extract (h : source.extract settings = .ok found) :
    ∀ item ∈ found.items, item.MarksConstant := by
  obtain ⟨middle, hscripts, rfl⟩ := exists_of_extract h
  have hmiddle : ∀ item ∈ middle.items, item.MarksConstant :=
    Extraction.forall_mem_readScripts (fun _ _ => Script.Shown.marksConstant)
      (List.forall_mem_nil _) hscripts
  exact Extraction.forall_mem_foldl (fun _ _ => Markup.Shown.marksConstant) hmiddle _

/-- Whatever the order of the mentions that are merged into a variable of a report: each of them
tells alike whether it is a constant, the variable is marked only if it is a constant, and the two
agree exactly if it is not first mentioned without a kind and then declared as a constant. -/
theorem readonly_iff_constant (source : Source) (options : Options) (report : Report)
    (h : source.report options = .ok report) :
    ∃ settings found, options.check = .ok settings ∧ source.extract settings = .ok found ∧
      (∀ mention ∈ found.items, mention.MarksConstant) ∧
      ∀ items, report.document.items? .data = some items → ∀ item ∈ items,
        ∃ (i : Nat) (merged : Item), (Catalog.ofItems found.items).items[i]? = some merged ∧
          item = merged.present found.settings ∧
          (item.readonly? = some true → item.kind? = some .const) ∧
          (item.MarksConstant ↔ ¬ Item.LateConstant (Catalog.members found.items i)) := by
  obtain ⟨settings, found, hcheck, hextract, rfl⟩ := report_eq_ok_iff.1 h
  have hmarks := marksConstant_of_extract hextract
  refine ⟨settings, found, hcheck, hextract, hmarks, ?_⟩
  intro items hitems item hitem
  obtain ⟨i, merged, hi, rfl⟩ := Extraction.exists_of_mem_document hitems hitem
  refine ⟨i, merged, hi, rfl, ?_⟩
  have hmembers : ∀ mention ∈ Catalog.members found.items i, mention.MarksConstant :=
    fun mention hmention => hmarks mention (Catalog.members_subset found.items i hmention)
  simpa [Item.MarksConstant] using (Catalog.mergedFrom_members hi).marksConstant_iff hmembers

/-- Whether the variables of a report are marked, and their kinds. -/
def marks? (source : Source) (options : Options) :
    Option (List (Option Bool × Option VariableKind)) :=
  (source.report options).toOption.bind fun report =>
    (report.document.items? .data).map fun items =>
      items.map fun item => (item.readonly?, item.kind?)

/-- The marks and kinds are those of the variables of a report. -/
lemma exists_of_marks? {options : Options} {marks : List (Option Bool × Option VariableKind)}
    (h : source.marks? options = some marks) :
    ∃ report items, source.report options = .ok report ∧
      report.document.items? .data = some items ∧
      items.map (fun item => (item.readonly?, item.kind?)) = marks := by
  unfold marks? at h
  obtain ⟨report, hreport, h⟩ := Option.bind_eq_some_iff.1 h
  obtain ⟨items, hitems, rfl⟩ := Option.map_eq_some_iff.1 h
  refine ⟨report, items, ?_, hitems, rfl⟩
  cases hresult : source.report options with
  | error failure =>
    rw [hresult] at hreport
    cases hreport
  | ok result =>
    rw [hresult] at hreport
    cases hreport
    rfl

/-- A component that exports a constant behind its declaration, and a variable in front of it. -/
def exportsBetween : Source :=
  { scripts := [{ content := "const x = 1; export \x7b x, y \x7d; let y = 2;" }] }

/-- The exports change neither of the marks. -/
theorem readonly_iff_constant_between :
    ∃ report items, exportsBetween.report {} = .ok report ∧
      report.document.items? .data = some items ∧
      items.map (fun item => (item.readonly?, item.kind?)) =
        [(some true, some .const), (some false, some .let)] ∧
      ∃ settings found, exportsBetween.extract settings = .ok found ∧
        ∀ item ∈ items, ∃ (i : Nat) (merged : Item),
          (Catalog.ofItems found.items).items[i]? = some merged ∧
          item = merged.present found.settings ∧ item.MarksConstant ∧
          ¬ Item.LateConstant (Catalog.members found.items i) := by
  have hmarks : exportsBetween.marks? {} =
      some [(some true, some .const), (some false, some .let)] := by decide +kernel
  obtain ⟨report, items, hreport, hitems, hpairs⟩ := exists_of_marks? hmarks
  obtain ⟨settings, found, _, hextract, _, hall⟩ := readonly_iff_constant _ _ _ hreport
  have hagree : ∀ pair ∈ items.map (fun item => (item.readonly?, item.kind?)),
      pair.1 = some true ↔ pair.2 = some .const := by
    rw [hpairs]
    decide
  refine ⟨report, items, hreport, hitems, hpairs, settings, found, hextract, ?_⟩
  intro item hitem
  obtain ⟨i, merged, hi, hpresent, _, hlate⟩ := hall items hitems item hitem
  have hmark : item.MarksConstant := hagree _ (List.mem_map_of_mem hitem)
  exact ⟨i, merged, hi, hpresent, hmark, hlate.1 hmark⟩

/-- A component that exports a constant in front of its declaration. -/
def exportsBefore : Source :=
  { scripts := [{ content := "export \x7b x \x7d; const x = 1;" }] }

/-- The constant is not marked, as its first mention has no kind. -/
theorem not_marksConstant_exported :
    ∃ report items, exportsBefore.report {} = .ok report ∧
      report.document.items? .data = some items ∧
      ∃ item ∈ items, item.kind? = some .const ∧ item.readonly? = some false ∧
        ¬ item.MarksConstant := by
  have hmarks : exportsBefore.marks? {} = some [(some false, some .const)] := by decide +kernel
  obtain ⟨report, items, hreport, hitems, hpairs⟩ := exists_of_marks? hmarks
  obtain ⟨item, hitem, hpair⟩ : ∃ item ∈ items,
      (item.readonly?, item.kind?) = (some false, some .const) :=
    List.mem_map.1 (hpairs ▸ List.mem_singleton_self _)
  obtain ⟨hreadonly, hkind⟩ := Prod.mk.inj hpair
  refine ⟨report, items, hreport, hitems, item, hitem, hkind, hreadonly, ?_⟩
  simp [Item.MarksConstant, hreadonly, hkind]

end Source

end ComponentApi
