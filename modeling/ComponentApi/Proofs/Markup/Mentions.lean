import ComponentApi.Proofs.Markup.Pending

/-!
# Events that a template forwards

A directive `on:` without a value mentions an event that the component forwards. `occurrences` finds
these mentions in the events of a template: the attributes of the tags that are read, in their
order, each with the comment that is pending in front of its tag, up to the first handler that
cannot be read. A visit of the template meets exactly these (`mentions_eq_occurrences`).
-/

namespace ComponentApi.Markup

open Text

/-! ### Mentions in attributes -/

/-- The item for an event that is forwarded: the text of the directive up to the first bar names it.
-/
def forwardedItem? (template : Template) (comment? : Option Span) (tag : List Char)
    (attr : Attribute) (directive : List Char) : Option Item :=
  match Text.pieces '|' directive with
  | [] | [] :: _ => none
  | event :: modifiers =>
    let detail : EventDetail :=
      { parent? := some (String.ofList tag)
        modifiers := (modifiers.filter (!·.isEmpty)).map String.ofList }
    some (attributeItem template attr event (.event detail) (template.comment comment? .public))

/-- The item for the event that an attribute mentions, if it is a directive `on:` without a value.
-/
def Attribute.mention? (template : Template) (comment? : Option Span) (tag : List Char)
    (attr : Attribute) : Option Item :=
  match Directive.ofName? (template.slice attr.name), attr.value? with
  | some (.on directive), none => forwardedItem? template comment? tag attr directive
  | _, _ => none

/-- Whether the attribute holds no handler that cannot be read. -/
def Attribute.isReadable (template : Template) (attr : Attribute) : Bool :=
  ((attr.handler? template).bind (handlerFailure? template)).isNone

/-- What attributes mention, up to the first handler that cannot be read. -/
def mentionsOf (template : Template) (comment? : Option Span) (tag : List Char)
    (attributes : List Attribute) : List Item :=
  (attributes.takeWhile (Attribute.isReadable template)).filterMap
    (Attribute.mention? template comment? tag)

/-! ### Occurrences in events -/

/-- An attribute with the name of its tag, and the comment that is pending in front of the tag. -/
structure PlacedAttribute where
  comment? : Option Span
  tag : List Char
  attr : Attribute

/-- The attributes of the part, if it is a tag that is read. The parts in front of it are listed
from the last to the first. -/
def Part.placed (template : Template) (earlier : List Part) : Part → List PlacedAttribute
  | .tag opening _ =>
    let name := template.slice opening.name
    if Visit.isSkipped name then []
    else opening.attributes.map (⟨pendingBehind template earlier, name, ·⟩)
  | _ => []

/-- The attributes of the parts that come next behind the earlier ones. -/
def placedFrom (template : Template) (earlier : List Part) : List Part → List PlacedAttribute
  | [] => []
  | part :: rest => part.placed template earlier ++ placedFrom template (part :: earlier) rest

/-- What the attributes mention, up to the first handler that cannot be read. -/
def mentionsIn (template : Template) (placed : List PlacedAttribute) : List Item :=
  (placed.takeWhile (·.attr.isReadable template)).filterMap fun here =>
    here.attr.mention? template here.comment? here.tag

/-- The events that the tags in the events mention as forwarded. -/
def occurrences (template : Template) (events : List Event) : List Item :=
  mentionsIn template (placedFrom template [] (partsOf events))

/-! ### Mentions in a visit -/

/-- What the tag mentions that the event ends, if the visit reads it. -/
def Visit.mentionsAt (template : Template) (visit : Visit) (event : Event) : List Item :=
  match visit.tag? with
  | some tag =>
    if event.endsTag && !Visit.isSkipped (template.slice tag.name) && visit.failure?.isNone then
      mentionsOf template visit.comment? (template.slice tag.name) tag.attributes
    else []
  | none => []

/-- What a visit meets in events. -/
def Visit.mentions (template : Template) (visit : Visit) : List Event → List Item
  | [] => []
  | event :: rest =>
    visit.mentionsAt template event ++ (Visit.step template visit event).mentions template rest

/-- What the events of a template mention. -/
def mentions (template : Template) (events : List Event) : List Item :=
  Visit.mentions template { found := default } events

section Visits

variable {template : Template} {visit : Visit}

/-- Behind attributes, the later ones are looked at only if no handler before them fails. -/
lemma mentionsIn_append (front rest : List PlacedAttribute) :
    mentionsIn template (front ++ rest) = mentionsIn template front ++
      if front.all (·.attr.isReadable template) then mentionsIn template rest else [] := by
  induction front with
  | nil => rfl
  | cons here front ih =>
    unfold mentionsIn at ih ⊢
    cases h : here.attr.isReadable template with
    | false => simp [h]
    | true =>
      cases hmention : here.attr.mention? template here.comment? here.tag <;>
        simpa [h, hmention] using ih

/-- The attributes of one tag mention what they mention wherever the tag stands. -/
lemma mentionsIn_map (comment? : Option Span) (tag : List Char) (attributes : List Attribute) :
    mentionsIn template (attributes.map (⟨comment?, tag, ·⟩)) =
      mentionsOf template comment? tag attributes := by
  rw [mentionsIn, List.takeWhile_map, List.filterMap_map]
  rfl

/-- A visit meets in events behind others what it meets from where they have led it. -/
lemma mentions_append (visit : Visit) (front rest : List Event) :
    visit.mentions template (front ++ rest) = visit.mentions template front ++
      (front.foldl (Visit.step template) visit).mentions template rest := by
  induction front generalizing visit with
  | nil => rfl
  | cons event front ih =>
    rw [List.cons_append, Visit.mentions, Visit.mentions, ih, List.append_assoc]
    rfl

/-- Where no tag ends, nothing is mentioned. -/
lemma mentions_of_not_endsTag {events : List Event} (h : ∀ event ∈ events, event.endsTag = false)
    (visit : Visit) : visit.mentions template events = [] := by
  induction events generalizing visit with
  | nil => rfl
  | cons event rest ih =>
    obtain ⟨hevent, hrest⟩ := List.forall_mem_cons.1 h
    rw [Visit.mentions, ih hrest, List.append_nil, Visit.mentionsAt]
    cases visit.tag? <;> simp [hevent]

/-- The events of a tag mention what its attributes do, if the tag is read. -/
lemma mentions_tag (visit : Visit) (tag : TagGroup) :
    visit.mentions template tag.events =
      if Visit.isSkipped (template.slice tag.name) || visit.failure?.isSome then []
      else mentionsOf template visit.comment? (template.slice tag.name) tag.toTag.attributes := by
  have hfront : ∀ event ∈ .openName tag.name :: tag.attributes.flatMap AttributeGroup.events,
      event.endsTag = false := by
    intro event hevent
    obtain rfl | hevent := List.mem_cons.1 hevent
    · rfl
    · obtain ⟨attr, _, hattr⟩ := List.mem_flatMap.1 hevent
      exact Event.not_endsTag_of_isLoose (AttributeGroup.isLoose hattr)
  obtain ⟨pending?, hgathered⟩ :=
    foldl_step_attributes template visit { name := tag.name } tag.attributes
  have hends : tag.lastEvent.endsTag = true := tag.lastEvent_cases.2.1
  rw [TagGroup.events, mentions_append, mentions_of_not_endsTag hfront, List.foldl_cons, Visit.step,
    hgathered, List.nil_append, Visit.mentions, Visit.mentions, List.append_nil, Visit.mentionsAt]
  cases hskipped : Visit.isSkipped (template.slice tag.name) <;>
    cases hfailure : visit.failure? <;> simp [hends, hskipped, TagGroup.toTag]

/-- A handler in a tag that is read fails exactly if not all of its attributes can be read. -/
lemma isSome_head?_failures {tag : Tag} (h : Visit.isSkipped (template.slice tag.name) = false) :
    (tag.failures template).head?.isSome =
      !tag.attributes.all (Attribute.isReadable template) := by
  rw [Tag.failures, Tag.handlers, h, if_neg Bool.false_ne_true, List.filterMap_filterMap]
  induction tag.attributes with
  | nil => rfl
  | cons attr rest ih =>
    rw [List.filterMap_cons, List.all_cons, Attribute.isReadable]
    cases (attr.handler? template).bind (handlerFailure? template) with
    | none => exact ih
    | some failure => rfl

/-- From past some parts on, a visit meets in groups what their parts mention, unless it has failed.
-/
lemma mentions_groups {earlier : List Part} (hpast : visit.IsPast template earlier)
    (groups : List Group) :
    visit.mentions template (groups.flatMap Group.events) =
      if visit.failure?.isSome then []
      else mentionsIn template (placedFrom template earlier (groups.map Group.part)) := by
  induction groups generalizing visit earlier with
  | nil => exact (ite_self _).symm
  | cons group groups ih =>
    rw [List.flatMap_cons, mentions_append, ih (hpast.group group), List.map_cons, placedFrom,
      mentionsIn_append]
    cases group with
    | tag opening =>
      rw [Group.events, mentions_tag, failure_foldl_tag, hpast.comment]
      cases hskipped : Visit.isSkipped (template.slice opening.name) with
      | true =>
        have hplaced : (Group.tag opening).part.placed template earlier = [] := if_pos hskipped
        have hfailures : opening.toTag.failures template = [] := by
          simp [Tag.failures, Tag.handlers, TagGroup.toTag, hskipped]
        simp [hplaced, hfailures, mentionsIn]
      | false =>
        have hplaced : (Group.tag opening).part.placed template earlier =
            opening.toTag.attributes.map
              (⟨pendingBehind template earlier, template.slice opening.name, ·⟩) :=
          if_neg (Bool.eq_false_iff.1 hskipped)
        rw [hplaced, mentionsIn_map, List.all_map, Option.isSome_or, isSome_head?_failures hskipped]
        -- Both sides go on behind the tag exactly if all of its attributes can be read.
        cases hfailure : visit.failure? with
        | some failure => rfl
        | none =>
          cases hall : opening.toTag.attributes.all (Attribute.isReadable template) <;>
            simp [hall, Function.comp_def]
    | text | mustache | comment | close =>
      rw [mentions_of_not_endsTag (by simp [Group.events, Event.endsTag]),
        failure_foldl_of_not_endsTag (by simp [Group.events, Event.endsTag])]
      simp [Group.part, Part.placed, mentionsIn]

end Visits

/-- Wherever a visit of a template stands, it has met the occurrences in the events so far. -/
lemma mentions_eq_occurrences {template : Template} {earlier later : List Event}
    (h : events template.text = earlier ++ later) :
    mentions template earlier = occurrences template earlier := by
  obtain ⟨groups, rest, rfl, hrest⟩ := exists_groups h
  have hends : ∀ event ∈ rest, event.endsTag = false :=
    fun event hevent => Event.not_endsTag_of_isLoose (hrest event hevent)
  have hstart : ({ found := default } : Visit).IsPast template [] := ⟨rfl, rfl⟩
  rw [mentions, mentions_append, mentions_of_not_endsTag hends, List.append_nil, occurrences,
    partsOf_groups groups hrest]
  exact mentions_groups hstart groups

end ComponentApi.Markup
