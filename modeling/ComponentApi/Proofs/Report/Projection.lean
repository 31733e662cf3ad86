import ComponentApi.Proofs.Report.Settings

/-!
# Reports as projections

What is requested only cuts down what is shown. `Options.project` says how, in terms of the words of
the options: parts that are not requested are left out, items of an ignored visibility are dropped
from the lists, and places are removed unless they are asked for. `report_eq_project` shows that a
report is the projection of the report in which everything is requested, nothing is ignored and all
places are kept. So the order and the repetition of words in the options do not matter.

What there is to show is said apart from the projection: a document has the parts that are requested
and no others (`Options.HasParts`), and the one in which nothing is left out has the whole catalog
in its lists (`Source.IsWhole`).
-/

namespace ComponentApi

/-! ### Checked options -/

namespace Feature

/-- The word of a feature names it. -/
lemma ofWord?_word (feature : Feature) : ofWord? feature.word = some feature := by
  cases feature with
  | items category => cases category <;> decide
  | _ => decide

/-- All features are listed. -/
lemma mem_all (feature : Feature) : feature ∈ all := by
  cases feature with
  | items category => cases category <;> decide
  | _ => decide

/-- A feature is named by its word only. -/
lemma ofWord?_eq_some {word : String} {feature : Feature} :
    ofWord? word = some feature ↔ feature.word = word := by
  constructor
  · intro h
    simpa using List.find?_some h
  · rintro rfl
    exact ofWord?_word feature

end Feature

namespace Options

/-- Whether the options ask for a feature. -/
def requests (options : Options) (feature : Feature) : Bool :=
  options.features.contains feature.word

/-- Whether the options ask to leave out a visibility. -/
def ignores (options : Options) (visibility : Visibility) : Bool :=
  options.ignoredVisibilities.contains visibility.name

/-- The features that pass the check are those that the words name. -/
lemma mem_checkFeatures {words : List String} {features : List Feature}
    (h : checkFeatures words = .ok features) (feature : Feature) :
    feature ∈ features ↔ feature.word ∈ words := by
  induction words generalizing features with
  | nil =>
    cases h
    simp
  | cons word rest ih =>
    simp only [checkFeatures] at h
    cases hword : Feature.ofWord? word with
    | none => simp [hword] at h
    | some named =>
      rw [hword] at h
      cases hrest : checkFeatures rest with
      | error failure => simp [hrest, Except.map] at h
      | ok others =>
        simp only [hrest, Except.map, Except.ok.injEq] at h
        subst h
        have hsame : feature = named ↔ feature.word = word := by
          rw [← Feature.ofWord?_eq_some, hword, Option.some.injEq, eq_comm]
        rw [List.mem_cons, List.mem_cons, ih hrest, hsame]

/-- The visibilities that pass the check are those seen before and those that the words name. -/
lemma mem_checkVisibilities {words : List String} {seen visibilities : List Visibility}
    (h : checkVisibilities seen words = .ok visibilities) (visibility : Visibility) :
    visibility ∈ visibilities ↔ visibility ∈ seen ∨ visibility.name ∈ words := by
  induction words generalizing seen with
  | nil =>
    cases h
    simp
  | cons word rest ih =>
    simp only [checkVisibilities] at h
    cases hword : Visibility.ofName? word with
    | none => simp [hword] at h
    | some named =>
      rw [hword] at h
      have hsame : visibility = named ↔ visibility.name = word := by
        rw [← Visibility.ofName?_eq_some, hword, Option.some.injEq, eq_comm]
      rw [ih h, List.mem_cons, ← hsame]
      by_cases hseen : seen.contains named = true
      · rw [if_pos hseen]
        rw [List.contains_iff_mem] at hseen
        constructor
        · rintro (hmem | hrest)
          · exact .inl hmem
          · exact .inr (.inr hrest)
        · rintro (hmem | rfl | hrest)
          · exact .inl hmem
          · exact .inl hseen
          · exact .inr hrest
      · rw [if_neg hseen, List.mem_append, List.mem_singleton]
        exact or_assoc

/-- What the check makes of options: the requests and the ignored visibilities are those that the
words name. -/
lemma check_eq_ok {options : Options} {settings : Settings} (h : options.check = .ok settings) :
    (∀ feature, settings.wants feature = options.requests feature) ∧
    (∀ visibility, settings.ignores visibility = options.ignores visibility) ∧
    settings.includeLocations = options.includeLocations := by
  unfold check at h
  cases hfeatures : checkFeatures options.features with
  | error failure => simp [hfeatures, bind, Except.bind] at h
  | ok features =>
    cases hignored : checkVisibilities [] options.ignoredVisibilities with
    | error failure => simp [hfeatures, hignored, bind, Except.bind] at h
    | ok ignored =>
      simp only [hfeatures, hignored, bind, Except.bind, pure, Except.pure, Except.ok.injEq] at h
      subst h
      refine ⟨?_, ?_, rfl⟩
      · intro feature
        rw [Bool.eq_iff_iff]
        simp [Settings.wants, requests, Feature.mem_all, mem_checkFeatures hfeatures]
      · intro visibility
        rw [Bool.eq_iff_iff]
        simp [Settings.ignores, ignores, mem_checkVisibilities hignored]

/-! ### Projections -/

/-- What the options show of an item. -/
def projectItem (options : Options) (item : Item) : Item :=
  { item with locations := if options.includeLocations then item.locations else [] }

/-- What the options show of a document: the parts they request, without the items they ignore. -/
def project (options : Options) (document : Document) : Document :=
  { name? := if options.requests .name then document.name? else none
    description? := if options.requests .description then document.description? else none
    keywords? := if options.requests .keywords then document.keywords? else none
    items? := fun category =>
      if options.requests (.items category) then
        (document.items? category).map fun items =>
          (items.filter fun item => !options.ignores item.visibility).map options.projectItem
      else none }

/-- Nothing is left out: all features are requested, no visibility is ignored, and all places are
kept. -/
structure Complete (options : Options) : Prop where
  features : ∀ feature, options.requests feature = true
  visibilities : ∀ visibility, options.ignores visibility = false
  locations : options.includeLocations = true

/-- The options with everything requested, nothing ignored and all places kept. -/
def everything (options : Options) : Options :=
  { options with
    features := Feature.all.map Feature.word
    includeLocations := true
    ignoredVisibilities := [] }

/-- With everything requested, nothing is left out. -/
lemma everything_complete (options : Options) : options.everything.Complete := by
  refine ⟨?_, fun _ => rfl, rfl⟩
  intro feature
  simp only [requests, everything, List.contains_iff_mem]
  exact List.mem_map_of_mem (Feature.mem_all feature)

/-- To ask for everything is always allowed, and changes no default visibility. -/
lemma check_everything {options : Options} {settings : Settings}
    (h : options.check = .ok settings) :
    ∃ all, options.everything.check = .ok all ∧ all.Alike settings := by
  refine ⟨_, rfl, ?_⟩
  unfold check at h
  cases hfeatures : checkFeatures options.features with
  | error failure => simp [hfeatures, bind, Except.bind] at h
  | ok features =>
    cases hignored : checkVisibilities [] options.ignoredVisibilities with
    | error failure => simp [hfeatures, hignored, bind, Except.bind] at h
    | ok ignored =>
      simp only [hfeatures, hignored, bind, Except.bind, pure, Except.pure, Except.ok.injEq] at h
      subst h
      exact ⟨rfl, rfl⟩

end Options

/-! ### The parts of a document -/

/-- The document has the parts that the options request, and no others. A component without a file
name has no name to show. -/
structure Options.HasParts (options : Options) (source : Source) (document : Document) : Prop where
  name : document.name?.isSome = true ↔ "name" ∈ options.features ∧ source.fileName?.isSome = true
  description : document.description?.isSome = true ↔ "description" ∈ options.features
  keywords : document.keywords?.isSome = true ↔ "keywords" ∈ options.features
  lists : ∀ category, (document.items? category).isSome = true ↔ category.name ∈ options.features

/-- The items of the catalog that have the category, in their order. A missing type is spelled
out. -/
def Catalog.listOf (catalog : Catalog) (category : Category) : List Item :=
  (catalog.items.filter (·.category = category)).map fun item =>
    { item with detail := item.detail.complete }

/-- Nothing of what was found in the component is left out of the document. -/
structure Source.IsWhole (source : Source) (found : Extraction) (document : Document) : Prop where
  name : document.name? = source.componentName?
  description : document.description? = some (found.overview?.elim "" DocComment.description)
  keywords : document.keywords? = some (found.overview?.elim [] DocComment.keywords)
  lists : ∀ category,
    document.items? category = some ((Catalog.ofItems found.items).listOf category)

section Parts

variable {source : Source} {options : Options} {settings : Settings} {found : Extraction}

/-- The document of what was found has the requested parts. -/
lemma Options.hasParts_document (hcheck : options.check = .ok settings)
    (hsettings : found.settings = settings) :
    options.HasParts source (found.document source.componentName?) := by
  have hwants := (Options.check_eq_ok hcheck).1
  constructor
  · by_cases hname : "name" ∈ options.features <;>
      simp [Extraction.document, Catalog.document, hsettings, hwants, Options.requests,
        Feature.word, Source.componentName?, hname]
  all_goals
    simp [Extraction.document, Catalog.document, hsettings, hwants, Options.requests, Feature.word]

/-- The document of what was found has the whole catalog in its lists, if nothing is left out. -/
lemma Source.isWhole_document (hcheck : options.check = .ok settings)
    (hcomplete : options.Complete) (hsettings : found.settings = settings) :
    source.IsWhole found (found.document source.componentName?) := by
  obtain ⟨hwants, hignores, hlocations⟩ := Options.check_eq_ok hcheck
  have hpresent : ∀ item : Item,
      item.present settings = { item with detail := item.detail.complete } := by
    intro item
    rw [Item.present, hlocations, hcomplete.locations, if_pos rfl]
  have hdocument : found.document source.componentName? =
      (Catalog.ofItems found.items).document settings found.overview? source.componentName? := by
    rw [Extraction.document, hsettings]
  rw [hdocument]
  constructor
  · simp [Catalog.document, hwants, hcomplete.features]
  · cases hoverview : found.overview? <;>
      simp [Catalog.document, hwants, hcomplete.features, DocComment.empty]
  · cases hoverview : found.overview? <;>
      simp [Catalog.document, hwants, hcomplete.features, DocComment.empty]
  · intro category
    simp [Catalog.document, Catalog.listOf, hwants, hignores, hpresent, hcomplete.features,
      hcomplete.visibilities]

end Parts

/-! ### Reports -/

/-- The document under some options is what they show of the document in which nothing is left
out. -/
lemma Catalog.document_eq_project (catalog : Catalog) {options complete : Options}
    {settings all : Settings} (hcheck : options.check = .ok settings)
    (hall : complete.check = .ok all) (hcomplete : complete.Complete)
    (overview? : Option DocComment) (name? : Option String) :
    catalog.document settings overview? name? =
      options.project (catalog.document all overview? name?) := by
  obtain ⟨hwants, hignores, hlocations⟩ := Options.check_eq_ok hcheck
  obtain ⟨hwants', hignores', hlocations'⟩ := Options.check_eq_ok hall
  simp only [Catalog.document, Options.project, hwants, hwants', hcomplete.features, if_true]
  congr 1
  funext category
  split
  · simp only [Option.map_some, Option.some.injEq]
    rw [List.filter_map, List.map_map, List.filter_filter]
    have hkeep : ∀ item : Item,
        (decide (item.category = category) && !settings.ignores item.visibility) =
        (((fun item : Item => !options.ignores item.visibility) ∘ (·.present all)) item &&
          (decide (item.category = category) && !all.ignores item.visibility)) := by
      intro item
      simp [Item.present, hignores, hignores', hcomplete.visibilities, Bool.and_comm]
    have hshow : ∀ item : Item,
        item.present settings = (options.projectItem ∘ (·.present all)) item := by
      intro item
      simp [Item.present, Options.projectItem, hlocations, hlocations', hcomplete.locations]
    simp only [hkeep]
    exact List.map_congr_left fun item _ => hshow item
  · rfl

namespace Source

/-- A report under some options is what they show of a report in which nothing is left out. -/
lemma report_eq_project (source : Source) {options complete : Options} {settings all : Settings}
    (hcheck : options.check = .ok settings) (hall : complete.check = .ok all)
    (halike : all.Alike settings) (hcomplete : complete.Complete) :
    source.report options =
      (source.report complete).map fun report =>
        ⟨options.project report.document, report.diagnostics⟩ := by
  unfold report reportWith
  rw [hcheck, hall]
  simp only [bind, Except.bind, pure, Except.pure]
  rw [source.extract_alike halike]
  cases hfound : source.extract all with
  | error failure => rfl
  | ok found =>
    have hsettings := settings_of_extract hfound
    simp only [Except.map, Extraction.document, Extraction.withSettings]
    rw [hsettings, Catalog.document_eq_project _ hcheck hall hcomplete]

/-- Under alike settings a component fails alike, or is documented with the same diagnostics. -/
lemma diagnostics_alike (source : Source) {first second : Options} {settings settings' : Settings}
    (hfirst : first.check = .ok settings) (hsecond : second.check = .ok settings')
    (halike : settings.Alike settings') :
    (source.report first).map Report.diagnostics =
      (source.report second).map Report.diagnostics := by
  unfold report reportWith
  rw [hfirst, hsecond]
  simp only [bind, Except.bind, pure, Except.pure]
  rw [source.extract_alike halike]
  cases source.extract settings <;> rfl

/-- Options that ask for the same parts, ignore the same visibilities and agree on places give the
same report. -/
lemma report_congr (source : Source) {first second : Options} {settings settings' : Settings}
    (hfirst : first.check = .ok settings) (hsecond : second.check = .ok settings')
    (halike : settings.Alike settings')
    (hfeatures : ∀ word, word ∈ first.features ↔ word ∈ second.features)
    (hignored : ∀ word, word ∈ first.ignoredVisibilities ↔ word ∈ second.ignoredVisibilities)
    (hlocations : first.includeLocations = second.includeLocations) :
    source.report first = source.report second := by
  obtain ⟨all, hall, halike'⟩ := Options.check_everything hfirst
  have hcomplete := first.everything_complete
  have hboth : all.Alike settings' :=
    ⟨halike'.method.trans halike.method, halike'.action.trans halike.action⟩
  have hrequests : first.requests = second.requests := by
    funext feature
    rw [Bool.eq_iff_iff]
    simp [Options.requests, hfeatures]
  have hignores : first.ignores = second.ignores := by
    funext visibility
    rw [Bool.eq_iff_iff]
    simp [Options.ignores, hignored]
  have hitem : first.projectItem = second.projectItem := by
    funext item
    rw [Options.projectItem, Options.projectItem, hlocations]
  have hproject : first.project = second.project := by
    funext document
    rw [Options.project, Options.project, hrequests, hignores, hitem]
  rw [source.report_eq_project hfirst hall halike' hcomplete,
    source.report_eq_project hsecond hall hboth hcomplete, hproject]

/-- No item of an ignored visibility is shown. -/
lemma visibility_of_report {source : Source} {options : Options} {report : Report}
    (h : source.report options = .ok report) {category : Category} {items : List Item}
    (hitems : report.document.items? category = some items) {item : Item} (hitem : item ∈ items) :
    options.ignores item.visibility = false := by
  obtain ⟨settings, found, hcheck, hfound, rfl⟩ := report_eq_ok_iff.1 h
  have hsettings := settings_of_extract hfound
  have hignores := (Options.check_eq_ok hcheck).2.1
  simp only [Extraction.document, Catalog.document, Option.ite_none_right_eq_some,
    Option.some.injEq] at hitems
  obtain ⟨_, rfl⟩ := hitems
  obtain ⟨original, horiginal, rfl⟩ := List.mem_map.1 hitem
  have hkept := (List.mem_filter.1 horiginal).2
  rw [hsettings] at hkept
  simp only [hignores, Bool.and_eq_true, Bool.not_eq_true'] at hkept
  exact hkept.2

/-- A report shows the parts that are requested. -/
lemma hasParts_of_report {source : Source} {options : Options} {report : Report}
    (h : source.report options = .ok report) : options.HasParts source report.document := by
  obtain ⟨settings, found, hcheck, hfound, rfl⟩ := report_eq_ok_iff.1 h
  exact Options.hasParts_document hcheck (settings_of_extract hfound)

/-- A report that leaves nothing out shows all that was found. -/
lemma isWhole_of_report {source : Source} {options : Options} {settings : Settings}
    {report : Report} (hcheck : options.check = .ok settings) (hcomplete : options.Complete)
    (h : source.report options = .ok report) :
    ∃ found, source.extract settings = .ok found ∧ source.IsWhole found report.document := by
  obtain ⟨checked, found, hchecked, hfound, rfl⟩ := report_eq_ok_iff.1 h
  obtain rfl : checked = settings := Except.ok.inj (hchecked.symm.trans hcheck)
  exact ⟨found, hfound, isWhole_document hcheck hcomplete (settings_of_extract hfound)⟩

/-- What is requested only cuts down what is shown. Under options that pass their check and agree
on the visibilities of methods and actions, a component fails alike or is documented with the same
diagnostics; each report is what its options show of the report that leaves nothing out, which has
the whole catalog in its lists; a report has the requested parts and no others; and only which words
the options hold matters, not their order or how often they occur. No item of an ignored visibility
is shown. -/
theorem report_projection (source : Source) {first second : Options}
    {settings settings' : Settings} (hfirst : first.check = .ok settings)
    (hsecond : second.check = .ok settings')
    (hmethod : settings.methodVisibility = settings'.methodVisibility)
    (haction : settings.actionVisibility = settings'.actionVisibility) :
    (source.report first).map Report.diagnostics =
      (source.report second).map Report.diagnostics ∧
    (second.Complete →
      source.report first = (source.report second).map (fun report =>
        ⟨first.project report.document, report.diagnostics⟩) ∧
      ∀ report, source.report second = .ok report →
        ∃ found, source.extract settings' = .ok found ∧ source.IsWhole found report.document) ∧
    (∀ report, source.report first = .ok report → first.HasParts source report.document) ∧
    ((∀ word, word ∈ first.features ↔ word ∈ second.features) →
      (∀ word, word ∈ first.ignoredVisibilities ↔ word ∈ second.ignoredVisibilities) →
      first.includeLocations = second.includeLocations →
      source.report first = source.report second) ∧
    ∀ report category items item, source.report first = .ok report →
      report.document.items? category = some items → item ∈ items →
      item.visibility.name ∉ first.ignoredVisibilities := by
  have halike : settings.Alike settings' := ⟨hmethod, haction⟩
  refine ⟨?_, ?_, ?_, ?_, ?_⟩
  · exact source.diagnostics_alike hfirst hsecond halike
  · intro hcomplete
    exact ⟨source.report_eq_project hfirst hsecond ⟨hmethod.symm, haction.symm⟩ hcomplete,
      fun _ => isWhole_of_report hsecond hcomplete⟩
  · exact fun _ => hasParts_of_report
  · exact source.report_congr hfirst hsecond halike
  · intro report category items item hreport hitems hitem
    have hshown := visibility_of_report hreport hitems hitem
    simpa [Options.ignores] using hshown

/-- The list of a category in the report, if there is one. -/
def list? (source : Source) (options : Options) (category : Category) : Option (List Item) :=
  (source.report options).toOption.bind (·.document.items? category)

/-- A list is that of a report. -/
lemma exists_of_list? {source : Source} {options : Options} {category : Category}
    {items : List Item} (h : source.list? options category = some items) :
    ∃ report, source.report options = .ok report ∧
      report.document.items? category = some items := by
  unfold list? at h
  cases hreport : source.report options with
  | error failure =>
    rw [hreport] at h
    cases h
  | ok report =>
    rw [hreport] at h
    exact ⟨report, rfl, h⟩

/-- A component with a slot that forwards an event which is private and one which is not. -/
def forwardsTwo : Source :=
  { fileName? := some "Pair.js", template := "<!--@private--><A on:x/><B on:y/><slot/>" }

/-- The events alone are asked for, and that twice, and private items are ignored. Of the two events
in the whole report one is shown, without its place, and there is no list of slots. -/
theorem report_projection_forwarded :
    let options : Options :=
      { features := ["events", "events"], ignoredVisibilities := ["private"] }
    let everything := ({} : Options).everything
    options.check = .ok { features := [.items .events], ignored := [.private] } ∧
    everything.check = .ok { includeLocations := true } ∧ everything.Complete ∧
    ∃ report whole found shown listed,
      forwardsTwo.report options = .ok report ∧ forwardsTwo.report everything = .ok whole ∧
      report = ⟨options.project whole.document, whole.diagnostics⟩ ∧
      options.HasParts forwardsTwo report.document ∧ forwardsTwo.IsWhole found whole.document ∧
      report.document.items? .events = some shown ∧ report.document.items? .slots = none ∧
      whole.document.items? .events = some listed ∧
      shown.map (fun item => (item.name, item.locations)) = [("y", [])] ∧
      listed.map (fun item => (item.name, item.locations)) =
        [("x", [⟨18, 22⟩]), ("y", [⟨27, 31⟩])] := by
  intro options everything
  have hoptions : options.check = .ok { features := [.items .events], ignored := [.private] } := rfl
  have heverything : everything.check = .ok { includeLocations := true } := rfl
  have hcomplete : everything.Complete := Options.everything_complete _
  have hshown : (forwardsTwo.list? options .events).map
      (·.map fun item => (item.name, item.locations)) = some [("y", [])] := by decide +kernel
  have hlisted : (forwardsTwo.list? everything .events).map
      (·.map fun item => (item.name, item.locations)) =
        some [("x", [⟨18, 22⟩]), ("y", [⟨27, 31⟩])] := by decide +kernel
  obtain ⟨shown, hlist, hshown⟩ := Option.map_eq_some_iff.1 hshown
  obtain ⟨listed, hlist', hlisted⟩ := Option.map_eq_some_iff.1 hlisted
  obtain ⟨report, hreport, hevents⟩ := exists_of_list? hlist
  obtain ⟨whole, hwhole, hevents'⟩ := exists_of_list? hlist'
  obtain ⟨-, hcut, hparts, -⟩ := report_projection forwardsTwo hoptions heverything rfl rfl
  obtain ⟨hproject, hfull⟩ := hcut hcomplete
  obtain ⟨found, -, hfound⟩ := hfull whole hwhole
  have hslots : report.document.items? .slots = none := by
    rw [← Option.not_isSome_iff_eq_none, (hparts report hreport).lists]
    decide
  rw [hreport, hwhole] at hproject
  exact ⟨hoptions, heverything, hcomplete, report, whole, found, shown, listed, hreport, hwhole,
    Except.ok.inj hproject, hparts report hreport, hfound, hevents, hslots, hevents', hshown,
    hlisted⟩

end Source

end ComponentApi
