import ComponentApi.Proofs.Markup.Continuation
import ComponentApi.Proofs.Markup.Failures

/-!
# Text behind a template

A visit looks at a template only where the spans that it was told stand. With more text behind the
template these spans have the same text, so the events that both have in common are visited alike
(`foldl_step_extend`). Behind those no tag ends in the shorter one. So if reading a template fails,
it has failed in the common events, and it fails alike whatever stands behind
(`readMarkup_append_of_failure`).
-/

namespace ComponentApi.Markup

open Text

/-! ### Spans inside -/

/-- The span stops inside the first so many bytes. -/
def Inside (limit : Nat) (span : Span) : Prop :=
  span.stop ≤ limit

/-- The spans of an attribute stop inside. -/
structure Attribute.Inside (limit : Nat) (attr : Attribute) : Prop where
  name : Markup.Inside limit attr.name
  value : ∀ value ∈ attr.value?, Markup.Inside limit value

/-- The spans of a tag stop inside. -/
structure Tag.Inside (limit : Nat) (tag : Tag) : Prop where
  name : Markup.Inside limit tag.name
  attributes : ∀ attr ∈ tag.attributes, attr.Inside limit

/-- The spans that a visit keeps stop inside. -/
structure Visit.Inside (limit : Nat) (visit : Visit) : Prop where
  comment : ∀ span ∈ visit.comment?, Markup.Inside limit span
  tag : ∀ tag ∈ visit.tag?, tag.Inside limit
  pending : ∀ attr ∈ visit.pending?, attr.Inside limit

/-- What is missing has every property. -/
lemma forall_mem_none {α : Type} {p : α → Prop} : ∀ x ∈ (none : Option α), p x :=
  fun x h => absurd h (Option.not_mem_none x)

/-- The template with more text behind it. -/
def Template.extend (template : Template) (more : List Char) : Template :=
  ⟨template.text ++ more, template.offset⟩

/-- What stops inside a text is the same with more behind the text. -/
lemma slice_append {span : Span} {text : List Char} (h : Inside (byteLength text) span)
    (more : List Char) : span.slice (text ++ more) = span.slice text := by
  have hslice : span.slice? (text ++ more) = span.slice? text := by
    refine Option.ext fun part => ?_
    rw [slice?_eq_some_iff, slice?_eq_some_iff]
    constructor
    · rintro ⟨before, after, htext, hstart, hstop⟩
      have hle : byteLength (before ++ part) ≤ byteLength text := by
        rw [byteLength_append, ← hstop]
        exact h
      have hsplit : (before ++ part) ++ after = text ++ more := by
        rw [htext, List.append_assoc]
      obtain ⟨rest, hrest⟩ := prefix_of_byteLength_le hsplit hle
      exact ⟨before, rest, by rw [hrest, List.append_assoc], hstart, hstop⟩
    · rintro ⟨before, after, rfl, hstart, hstop⟩
      exact ⟨before, after ++ more, by simp, hstart, hstop⟩
  rw [Span.slice, hslice]
  rfl

/-! ### Tags -/

section Tags

variable {template : Template} {comment? : Option Span} {tag : List Char} {attr : Attribute}
  (more : List Char)

/-- What a span inside the template gives is the same with more text behind it. -/
lemma extend_slice {span : Span} (h : Inside (byteLength template.text) span) :
    (template.extend more).slice span = template.slice span :=
  slice_append h more

/-- A comment inside the template says the same with more text behind it. -/
lemma extend_comment (h : ∀ span ∈ comment?, Inside (byteLength template.text) span)
    (default : Visibility) :
    (template.extend more).comment comment? default = template.comment comment? default := by
  cases comment? with
  | none => rfl
  | some span => rw [Template.comment, Template.comment, extend_slice more (h span rfl)]

/-- The variable at the root of a value is the same with more text behind the template. -/
lemma valueRoot?_extend (hattr : attr.Inside (byteLength template.text)) :
    valueRoot? (template.extend more) attr = valueRoot? template attr := by
  unfold valueRoot?
  cases hvalue : attr.value? with
  | none => rfl
  | some value =>
    rw [Option.map_some, Option.map_some, extend_slice more (hattr.value value hvalue)]

/-- The handler in a value is the same with more text behind the template. -/
lemma handler?_extend {value : Span} (hvalue : Inside (byteLength template.text) value)
    (quote : Quote) :
    handler? (template.extend more) value quote = handler? template value quote := by
  rw [handler?, handler?, extend_slice more hvalue]

/-- What is found in an attribute does not depend on what stands behind the template. -/
lemma extractAttribute_extend (hcomment : ∀ span ∈ comment?, Inside (byteLength template.text) span)
    (hattr : attr.Inside (byteLength template.text)) (found : Extraction) :
    extractAttribute (template.extend more) comment? tag found attr =
      extractAttribute template comment? tag found attr := by
  unfold extractAttribute
  rw [extend_slice more hattr.name]
  cases Directive.ofName? (template.slice attr.name) with
  | none => rfl
  | some directive =>
    cases directive with
    | reference =>
      dsimp only [extractReference]
      rw [valueRoot?_extend more hattr, extend_comment more hcomment]
      rfl
    | bind property =>
      dsimp only [extractBinding]
      rw [valueRoot?_extend more hattr, extend_comment more hcomment]
      rfl
    | on event =>
      cases hvalue : attr.value? with
      | none =>
        dsimp only [extractForwarded]
        rw [extend_comment more hcomment]
        rfl
      | some value =>
        dsimp only [extractHandler]
        rw [handler?_extend more (hattr.value value hvalue)]
        rfl
    | use action =>
      dsimp only [extractAction]
      rw [extend_comment more hcomment]
      rfl

/-- What attributes give is the same with more text behind the template. -/
lemma extractAttributes_extend
    (hcomment : ∀ span ∈ comment?, Inside (byteLength template.text) span)
    {attributes : List Attribute}
    (hattributes : ∀ attr ∈ attributes, attr.Inside (byteLength template.text))
    (found : Extraction) :
    extractAttributes (template.extend more) comment? tag found attributes =
      extractAttributes template comment? tag found attributes := by
  induction attributes generalizing found with
  | nil => rfl
  | cons attr rest ih =>
    obtain ⟨hattr, hrest⟩ := List.forall_mem_cons.1 hattributes
    rw [extractAttributes, extractAttributes, extractAttribute_extend more hcomment hattr]
    cases extractAttribute template comment? tag found attr with
    | error failure => rfl
    | ok found => exact ih hrest found

/-- The name of a slot is the same with more text behind the template. -/
lemma slotName_extend {attributes : List Attribute}
    (hattributes : ∀ attr ∈ attributes, attr.Inside (byteLength template.text)) :
    slotName (template.extend more) attributes = slotName template attributes := by
  unfold slotName
  refine List.foldl_ext _ _ _ fun name attr hattr => ?_
  obtain ⟨hname, hvalue⟩ := hattributes attr hattr
  cases hattrValue : attr.value? with
  | none => rfl
  | some value =>
    dsimp only
    rw [extend_slice more hname, extend_slice more (hvalue value hattrValue)]

/-- The parameters of a slot are the same with more text behind the template. -/
lemma slotParameters_extend (doc : DocComment) {attributes : List Attribute}
    (hattributes : ∀ attr ∈ attributes, attr.Inside (byteLength template.text)) :
    slotParameters (template.extend more) doc attributes =
      slotParameters template doc attributes := by
  have hnames : (attributes.map fun attr => (template.extend more).slice attr.name) =
      attributes.map fun attr => template.slice attr.name :=
    List.map_congr_left fun attr hattr => extend_slice more (hattributes attr hattr).name
  rw [slotParameters, hnames]
  rfl

/-- What a tag gives is the same with more text behind the template. -/
lemma extractTag_extend (hcomment : ∀ span ∈ comment?, Inside (byteLength template.text) span)
    {tag : Tag} (htag : tag.Inside (byteLength template.text)) (stop : Nat) (found : Extraction) :
    extractTag (template.extend more) comment? tag stop found =
      extractTag template comment? tag stop found := by
  have hslot : slotItem (template.extend more) comment? tag stop =
      slotItem template comment? tag stop := by
    unfold slotItem
    dsimp only
    rw [slotName_extend more htag.attributes, extend_comment more hcomment,
      slotParameters_extend more _ htag.attributes]
    rfl
  unfold extractTag
  rw [extend_slice more htag.name, hslot]
  exact extractAttributes_extend more hcomment htag.attributes _

/-- Reading a tag is the same with more text behind the template. -/
lemma readTag_extend (visit : Visit)
    (hcomment : ∀ span ∈ visit.comment?, Inside (byteLength template.text) span) {tag : Tag}
    (htag : tag.Inside (byteLength template.text)) (stop : Nat) :
    visit.readTag (template.extend more) tag stop = visit.readTag template tag stop := by
  have hoverview : extractOverview (template.extend more) visit.comment? visit.found =
      extractOverview template visit.comment? visit.found := by
    rw [extractOverview, extend_comment more hcomment]
    rfl
  unfold Visit.readTag
  dsimp only
  rw [hoverview, extractTag_extend more hcomment htag]

/-- The end of a tag does the same with more text behind the template. -/
lemma endTag_extend {visit : Visit} (hvisit : visit.Inside (byteLength template.text))
    (stop : Nat) (selfClosing : Bool) :
    visit.endTag (template.extend more) stop selfClosing =
      visit.endTag template stop selfClosing := by
  unfold Visit.endTag
  cases hopen : visit.tag? with
  | none => rfl
  | some tag =>
    have htag := hvisit.tag tag hopen
    let reading : Visit :=
      { visit with
        tag? := none
        inRawText := visit.inRawText || (isRawTextTag (template.slice tag.name) && !selfClosing) }
    have hread : reading.readTag (template.extend more) tag stop =
        reading.readTag template tag stop := readTag_extend more reading hvisit.comment htag stop
    dsimp only
    rw [extend_slice more htag.name, hread]

end Tags

/-! ### Visits -/

section Visits

variable {template : Template} (more : List Char) {visit : Visit} {event : Event}

/-- An event does the same to a visit with more text behind the template. -/
lemma step_extend (hvisit : visit.Inside (byteLength template.text))
    (hevent : ∀ span ∈ event.extent?, Inside (byteLength template.text) span) :
    Visit.step (template.extend more) visit event = Visit.step template visit event := by
  cases event with
  | text span | close span =>
    rw [Visit.step, Visit.step, extend_slice more (hevent span rfl)]
  | openEnd position => exact endTag_extend more hvisit position false
  | selfClose position => exact endTag_extend more hvisit position true
  | _ => rfl

/-- What is being gathered is not touched when a tag is read. -/
lemma readTag_gathered (template : Template) (visit : Visit) (tag : Tag) (stop : Nat) :
    (visit.readTag template tag stop).tag? = visit.tag? ∧
      (visit.readTag template tag stop).pending? = visit.pending? := by
  unfold Visit.readTag
  split_ifs <;> exact ⟨rfl, rfl⟩

/-- Where a tag ends, what the visit keeps still stops inside. -/
lemma endTag_inside {limit : Nat} (hvisit : visit.Inside limit) (stop : Nat) (selfClosing : Bool) :
    (visit.endTag template stop selfClosing).Inside limit := by
  have ⟨hcomment, _, hpending⟩ := hvisit
  unfold Visit.endTag
  split
  · exact hvisit
  · next tag _ =>
    dsimp only
    split_ifs
    · exact ⟨hcomment, by simp, hpending⟩
    · let reading : Visit :=
        { visit with
          tag? := none
          inRawText :=
            visit.inRawText || (isRawTextTag (template.slice tag.name) && !selfClosing) }
      obtain ⟨htag, hattr⟩ := readTag_gathered template reading tag stop
      refine ⟨by simp, ?_, ?_⟩
      · intro tag hopen
        cases htag.symm.trans hopen
      · intro attr hmem
        exact hpending attr (hattr.symm.trans hmem)

/-- A value that stops inside leaves its attribute inside. -/
lemma Attribute.Inside.extend {limit : Nat} {attr : Attribute} {part : Span}
    (h : attr.Inside limit) (hpart : Markup.Inside limit part) :
    (attr.extend part).Inside limit := by
  refine ⟨h.name, ?_⟩
  unfold Attribute.extend
  cases attr.value? with
  | none =>
    rintro _ ⟨⟩
    exact hpart
  | some value =>
    rintro _ ⟨⟩
    exact hpart

/-- A visit keeps spans of events, and of parts that they delimit. -/
lemma step_inside {limit : Nat} (hvisit : visit.Inside limit)
    (hevent : ∀ span ∈ event.extent?, Inside limit span) :
    (Visit.step template visit event).Inside limit := by
  have ⟨hcomment, htag, hpending⟩ := hvisit
  cases event with
  | text span =>
    simp only [Visit.step]
    split_ifs
    · exact ⟨forall_mem_none, htag, hpending⟩
    · exact hvisit
  | mustache span => exact ⟨forall_mem_none, htag, hpending⟩
  | comment span => exact ⟨hevent, htag, hpending⟩
  | openName span =>
    refine ⟨hcomment, ?_, hpending⟩
    rintro _ ⟨⟩
    exact ⟨hevent span rfl, List.forall_mem_nil _⟩
  | attributeName span =>
    refine ⟨hcomment, htag, ?_⟩
    rintro _ ⟨⟩
    exact ⟨hevent span rfl, forall_mem_none⟩
  | attributeValue span =>
    refine ⟨hcomment, htag, ?_⟩
    intro attr hattr
    obtain ⟨pending, hmem, rfl⟩ := Option.map_eq_some_iff.1 hattr
    exact (hpending pending hmem).extend (hevent span rfl)
  | attributeEnd quote position =>
    simp only [Visit.step]
    split
    · next attr hmem =>
      refine ⟨hcomment, ?_, forall_mem_none⟩
      intro tag hopen
      obtain ⟨gathered, hgathered, rfl⟩ := Option.map_eq_some_iff.1 hopen
      obtain ⟨hname, hattributes⟩ := htag gathered hgathered
      refine ⟨hname, ?_⟩
      intro other hother
      rcases List.mem_append.1 hother with hother | hother
      · exact hattributes other hother
      · cases List.mem_singleton.1 hother
        exact ⟨(hpending attr hmem).name, (hpending attr hmem).value⟩
    · exact hvisit
  | openEnd position => exact endTag_inside hvisit position false
  | selfClose position => exact endTag_inside hvisit position true
  | close span =>
    simp only [Visit.step]
    split_ifs
    · exact ⟨hcomment, htag, hpending⟩
    · exact hvisit
    · exact ⟨forall_mem_none, htag, hpending⟩
  | finish => exact hvisit

/-- Events inside a template are visited alike with more behind the template. -/
lemma foldl_step_extend (hvisit : visit.Inside (byteLength template.text)) {events : List Event}
    (hevents : ∀ event ∈ events, ∀ span ∈ event.extent?, Inside (byteLength template.text) span) :
    events.foldl (Visit.step (template.extend more)) visit =
      events.foldl (Visit.step template) visit := by
  induction events generalizing visit with
  | nil => rfl
  | cons event rest ih =>
    obtain ⟨hevent, hrest⟩ := List.forall_mem_cons.1 hevents
    rw [List.foldl_cons, List.foldl_cons, step_extend more hvisit hevent]
    exact ih (step_inside hvisit hevent) hrest

/-- Behind a failure, nothing is found any more. -/
lemma foldl_of_failure {failure : Failure} (h : visit.failure? = some failure)
    (events : List Event) :
    (events.foldl (Visit.step template) visit).found = visit.found ∧
      (events.foldl (Visit.step template) visit).failure? = some failure := by
  induction events generalizing visit with
  | nil => exact ⟨rfl, h⟩
  | cons event rest ih =>
    obtain hquiet | ⟨_, hreads⟩ := step_cases template visit event
    · obtain ⟨hfound, hfailure⟩ := ih (hquiet.failure.trans h)
      exact ⟨hfound.trans hquiet.found, hfailure⟩
    · cases h.symm.trans hreads.failure

end Visits

/-- The events of a template stop inside of it. -/
lemma inside_of_mem_events {template : List Char} {event : Event} (h : event ∈ events template) :
    ∀ span ∈ event.extent?, Inside (byteLength template) span := by
  intro span hspan
  obtain ⟨reported, hreported, hbetween⟩ := events_between template
  rw [hreported] at h
  rcases List.mem_append.1 h with h | h
  · obtain ⟨covered, hcovers, _, hstop⟩ := hbetween.covers event h
    cases hcovers.extent.symm.trans hspan
    exact hstop
  · cases List.mem_singleton.1 h
    cases hspan

/-- If reading a template fails, it fails alike with more text behind the template. -/
lemma readMarkup_append_of_failure {found next : Extraction} {template : List Char} {offset : Nat}
    {failure : Failure} (h : found.readMarkup template offset = (next, some failure))
    (more : List Char) :
    found.readMarkup (template ++ more) offset = (next, some failure) := by
  obtain ⟨common, own, later, hevents, hmore, hown⟩ := exists_common_events template more
  -- No tag ends behind the common events, so the failure lies in them.
  simp only [Extraction.readMarkup] at h ⊢
  rw [hevents, List.foldl_append, found_foldl_of_not_endsTag hown,
    failure_foldl_of_not_endsTag hown, Prod.mk.injEq] at h
  obtain ⟨rfl, hfailure⟩ := h
  have hinside : ∀ event ∈ common, ∀ span ∈ event.extent?, Inside (byteLength template) span := by
    intro event hevent
    refine inside_of_mem_events ?_
    rw [hevents]
    exact List.mem_append_left _ hevent
  have hstart : Visit.Inside (byteLength template) { found } :=
    ⟨forall_mem_none, forall_mem_none, forall_mem_none⟩
  have hcommon : common.foldl (Visit.step (Template.extend ⟨template, offset⟩ more)) { found } =
      common.foldl (Visit.step ⟨template, offset⟩) { found } :=
    foldl_step_extend more hstart hinside
  rw [Template.extend] at hcommon
  rw [hmore, List.foldl_append, hcommon]
  obtain ⟨hfound, hfailed⟩ := foldl_of_failure hfailure later
  rw [hfound, hfailed]

end ComponentApi.Markup
