import ComponentApi.Proofs.Markup.Sites
import ComponentApi.Proofs.Script.Failures

/-!
# Handlers that cannot be read

The handlers of a template stand in the tags that are complete. `tagsOf` finds these tags in the
events of the template by looking ahead, and `handlers` lists the expressions in them, each with
where it starts. Reading the template fails at the first handler that is no expression
(`readMarkup_failure`), and behind a failure nothing changes any more.
-/

namespace ComponentApi.Markup

open Text

/-! ### Complete tags -/

/-- Whether the event belongs to an attribute. -/
def Event.isOfAttribute : Event → Bool
  | .attributeName _ | .attributeValue _ | .attributeEnd _ _ => true
  | _ => false

/-- The attributes that the events start with. -/
def attributesOf : List Event → List Attribute
  | .attributeName name :: .attributeEnd quote _ :: rest => { name, quote } :: attributesOf rest
  | .attributeName name :: .attributeValue value :: .attributeEnd quote _ :: rest =>
    { name, value? := some value, quote } :: attributesOf rest
  | _ => []

/-- The tags that open and end in the events. -/
def tagsOf : List Event → List Tag
  | [] => []
  | .openName name :: rest =>
    if (rest.dropWhile Event.isOfAttribute).head?.any Event.endsTag then
      ⟨name, attributesOf rest⟩ :: tagsOf rest
    else tagsOf rest
  | _ :: rest => tagsOf rest

/-- The attributes of a group are found in front of an event that belongs to none. -/
lemma attributesOf_append (attributes : List AttributeGroup) {event : Event} (rest : List Event)
    (h : event.isOfAttribute = false) :
    attributesOf (attributes.flatMap AttributeGroup.events ++ event :: rest) =
      attributes.map AttributeGroup.toAttribute := by
  induction attributes with
  | nil => cases event <;> first | rfl | cases h
  | cons attr attributes ih =>
    cases attr with
    | bare name quote stop plain =>
      simpa [AttributeGroup.events, attributesOf, AttributeGroup.toAttribute] using ih
    | valued name value quote stop delimited =>
      simpa [AttributeGroup.events, attributesOf, AttributeGroup.toAttribute] using ih

/-- The events of attributes belong to attributes. -/
lemma isOfAttribute_of_mem {attributes : List AttributeGroup} {event : Event}
    (h : event ∈ attributes.flatMap AttributeGroup.events) : event.isOfAttribute = true := by
  obtain ⟨attr, _, hevent⟩ := List.mem_flatMap.1 h
  cases attr with
  | bare =>
    simp only [AttributeGroup.events, List.mem_cons, List.not_mem_nil, or_false] at hevent
    rcases hevent with rfl | rfl <;> rfl
  | valued =>
    simp only [AttributeGroup.events, List.mem_cons, List.not_mem_nil, or_false] at hevent
    rcases hevent with rfl | rfl | rfl <;> rfl

/-- The events of attributes open no tags. -/
lemma tagsOf_of_isOfAttribute {front : List Event} (rest : List Event)
    (h : ∀ event ∈ front, event.isOfAttribute = true) : tagsOf (front ++ rest) = tagsOf rest := by
  induction front with
  | nil => rfl
  | cons event front ih =>
    obtain ⟨hevent, hfront⟩ := List.forall_mem_cons.1 h
    rw [← ih hfront]
    cases event <;> first | rfl | cases hevent

/-- The last event of a group ends its tag and belongs to no attribute. -/
lemma TagGroup.lastEvent_cases (tag : TagGroup) :
    tag.lastEvent.isOfAttribute = false ∧ tag.lastEvent.endsTag = true ∧
      ∀ rest, tagsOf (tag.lastEvent :: rest) = tagsOf rest := by
  unfold TagGroup.lastEvent
  cases tag.selfClosing <;> exact ⟨rfl, rfl, fun _ => rfl⟩

/-- Behind the attributes of a tag stands its last event. -/
lemma TagGroup.dropWhile_isOfAttribute (tag : TagGroup) (rest : List Event) :
    (tag.attributes.flatMap AttributeGroup.events ++ tag.lastEvent :: rest).dropWhile
      Event.isOfAttribute = tag.lastEvent :: rest := by
  rw [List.dropWhile_append_of_pos fun event => isOfAttribute_of_mem,
    List.dropWhile_cons_of_neg (by simp [tag.lastEvent_cases.1])]

/-- The tag of a group is complete. -/
lemma tagsOf_tag (tag : TagGroup) (rest : List Event) :
    tagsOf (tag.events ++ rest) = tag.toTag :: tagsOf rest := by
  obtain ⟨hlast, hends, htags⟩ := tag.lastEvent_cases
  rw [TagGroup.events, List.append_assoc, List.cons_append, List.singleton_append, tagsOf,
    if_pos (by simp [tag.dropWhile_isOfAttribute, hends]), attributesOf_append _ _ hlast,
    tagsOf_of_isOfAttribute _ fun event => isOfAttribute_of_mem, htags]
  rfl

/-- A group that is no tag has none. -/
lemma tagsOf_group {group : Group} (h : ∀ tag, group ≠ .tag tag) (rest : List Event) :
    tagsOf (group.events ++ rest) = tagsOf rest := by
  cases group with
  | tag opening => cases h opening rfl
  | _ => rfl

/-- Where no tag ends, none is complete. -/
lemma tagsOf_of_not_endsTag {events : List Event} (h : ∀ event ∈ events, event.endsTag = false) :
    tagsOf events = [] := by
  induction events with
  | nil => rfl
  | cons event rest ih =>
    obtain ⟨_, hrest⟩ := List.forall_mem_cons.1 h
    cases event with
    | openName name =>
      have hends : (rest.dropWhile Event.isOfAttribute).head?.any Event.endsTag = false := by
        cases hhead : (rest.dropWhile Event.isOfAttribute).head? with
        | none => rfl
        | some event =>
          have hmem := List.mem_of_mem_head? hhead
          exact hrest event ((List.dropWhile_sublist _).subset hmem)
      rw [tagsOf, hends]
      exact ih hrest
    | _ => exact ih hrest

/-! ### Handlers -/

/-- The handler in an attribute and where its expression starts: the value of a directive `on:`, if
it is an expression in braces with something in them. -/
def Attribute.handler? (template : Template) (attr : Attribute) : Option (List Char × Nat) :=
  match Directive.ofName? (template.slice attr.name), attr.value? with
  | some (.on _), some value => Markup.handler? template value attr.quote
  | _, _ => none

/-- The handlers in a tag. Scripts and styles have none. -/
def Tag.handlers (template : Template) (tag : Tag) : List (List Char × Nat) :=
  if Visit.isSkipped (template.slice tag.name) then []
  else tag.attributes.filterMap (Attribute.handler? template)

/-- The handlers of a template, in its order. -/
def handlers (template : Template) : List (List Char × Nat) :=
  (tagsOf (events template.text)).flatMap (Tag.handlers template)

/-- Why the handler cannot be read, if it cannot. -/
def handlerFailure? (template : Template) (handler : List Char × Nat) : Option Failure :=
  inlineFailure? handler.1 (template.offset + handler.2)

/-- The failures of the handlers in a tag. -/
def Tag.failures (template : Template) (tag : Tag) : List Failure :=
  (tag.handlers template).filterMap (handlerFailure? template)

/-- The failures of the handlers of a template. -/
def failures (template : Template) : List Failure :=
  (handlers template).filterMap (handlerFailure? template)

/-- The failures of a template are those of its tags, in their order. -/
lemma failures_eq (template : Template) :
    failures template = (tagsOf (events template.text)).flatMap (Tag.failures template) := by
  unfold failures handlers
  rw [List.filterMap_flatMap]
  rfl

section Reading

variable {template : Template} {comment? : Option Span} {name : List Char} {found : Extraction}

/-- Only a handler can fail. -/
lemma extractAttribute_stopsAt (attr : Attribute) :
    StopsAt ((attr.handler? template).bind (handlerFailure? template)).toList
      (extractAttribute template comment? name found attr) := by
  unfold extractAttribute Attribute.handler?
  cases Directive.ofName? (template.slice attr.name) with
  | none => exact .ok _
  | some directive =>
    cases directive with
    | on event =>
      cases attr.value? with
      | none => exact .ok _
      | some value =>
        dsimp only [extractHandler]
        cases Markup.handler? template value attr.quote with
        | none => exact .ok _
        | some handler => exact found.readInline_stopsAt handler.1 (template.offset + handler.2)
    | _ => exact .ok _

/-- Attributes fail with the first of their handlers that cannot be read. -/
lemma extractAttributes_failure (attributes : List Attribute) :
    (extractAttributes template comment? name found attributes).2 =
      ((attributes.filterMap (Attribute.handler? template)).filterMap
        (handlerFailure? template)).head? := by
  rw [List.filterMap_filterMap]
  induction attributes generalizing found with
  | nil => rfl
  | cons attr rest ih =>
    have hattr : StopsAt _ (extractAttribute template comment? name found attr) :=
      extractAttribute_stopsAt attr
    rw [extractAttributes, List.filterMap_cons]
    generalize extractAttribute template comment? name found attr = result at hattr
    cases hown : (attr.handler? template).bind (handlerFailure? template) with
    | none =>
      rw [hown] at hattr
      cases hattr
      exact ih
    | some failure =>
      rw [hown] at hattr
      cases hattr
      rfl

/-- A tag that is read fails with the first of its handlers that cannot be read. -/
lemma extractTag_failure {tag : Tag} (stop : Nat)
    (h : Visit.isSkipped (template.slice tag.name) = false) :
    (extractTag template comment? tag stop found).2 = (tag.failures template).head? := by
  unfold extractTag Tag.failures Tag.handlers
  rw [if_neg (by simp [h])]
  exact extractAttributes_failure tag.attributes

/-- Behind a tag that is read, there is the failure from before or the first of the tag. -/
lemma readTag_failure {visit : Visit} {tag : Tag} (stop : Nat)
    (h : Visit.isSkipped (template.slice tag.name) = false) :
    (visit.readTag template tag stop).failure? =
      visit.failure?.or (tag.failures template).head? := by
  unfold Visit.readTag
  cases hfailure : visit.failure? with
  | some failure => simp [hfailure]
  | none => exact extractTag_failure stop h

/-- Behind a tag there is the failure that was there before it, or the first of its own. -/
lemma failure_foldl_tag (tag : TagGroup) (visit : Visit) :
    (tag.events.foldl (Visit.step template) visit).failure? =
      visit.failure?.or (tag.toTag.failures template).head? := by
  cases hskipped : Visit.isSkipped (template.slice tag.name) with
  | true =>
    obtain ⟨pending?, htag⟩ := foldl_step_skipped template visit tag hskipped
    have hnone : tag.toTag.failures template = [] := by
      simp [Tag.failures, Tag.handlers, TagGroup.toTag, hskipped]
    rw [htag, hnone]
    simp
  | false =>
    obtain ⟨pending?, htag⟩ := foldl_step_read template visit tag hskipped
    rw [htag]
    exact readTag_failure tag.stop hskipped

/-- Where no tag ends, nothing fails. -/
lemma failure_foldl_of_not_endsTag {events : List Event}
    (h : ∀ event ∈ events, event.endsTag = false) (visit : Visit) :
    (events.foldl (Visit.step template) visit).failure? = visit.failure? := by
  induction events generalizing visit with
  | nil => rfl
  | cons event rest ih =>
    obtain ⟨hevent, hrest⟩ := List.forall_mem_cons.1 h
    obtain hquiet | ⟨hends, _⟩ := step_cases template visit event
    · exact (ih hrest _).trans hquiet.failure
    · cases hevent.symm.trans hends

/-- Behind groups, there is the failure from before or the first of their tags. -/
lemma failure_foldl_groups (groups : List Group) {rest : List Event}
    (hrest : ∀ event ∈ rest, event.endsTag = false) (visit : Visit) :
    ((groups.flatMap Group.events ++ rest).foldl (Visit.step template) visit).failure? =
      visit.failure?.or ((tagsOf (groups.flatMap Group.events ++ rest)).flatMap
        (Tag.failures template)).head? := by
  induction groups generalizing visit with
  | nil =>
    rw [List.flatMap_nil, List.nil_append, failure_foldl_of_not_endsTag hrest,
      tagsOf_of_not_endsTag hrest]
    simp
  | cons group groups ih =>
    rw [List.flatMap_cons, List.append_assoc, List.foldl_append, ih]
    cases group with
    | tag opening =>
      rw [Group.events, failure_foldl_tag, tagsOf_tag, List.flatMap_cons, List.head?_append,
        Option.or_assoc]
    | text | mustache | comment | close =>
      rw [failure_foldl_of_not_endsTag (by simp [Group.events, Event.endsTag]),
        tagsOf_group (by simp)]

/-- Reading a template fails at the first handler that cannot be read. -/
lemma readMarkup_failure (found : Extraction) (template : Template) :
    (found.readMarkup template.text template.offset).2 = (failures template).head? := by
  obtain ⟨groups, rest, hevents, hloose⟩ :=
    exists_groups (List.append_nil (events template.text)).symm
  have hrest : ∀ event ∈ rest, event.endsTag = false :=
    fun event hevent => Event.not_endsTag_of_isLoose (hloose event hevent)
  rw [failures_eq, hevents, Extraction.readMarkup, hevents]
  exact failure_foldl_groups groups hrest { found }

end Reading

end ComponentApi.Markup
