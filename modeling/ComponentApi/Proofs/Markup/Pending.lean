import ComponentApi.Proofs.Markup.Failures

/-!
# The comment that is pending

Behind some events of a template, a comment may be pending: the next tag takes it for its own.
`partsOf` finds the texts, comments and tags in the events by looking ahead, and `pendingComment`
looks back from the last of them: the pending comment is the last one, unless something behind it
does not let it pass. A visit comes to the same comment on its way forward, with a flag of its own
(`comment_eq_pendingComment`), and so does `Adopted`, where closing tags are plain
(`pendingComment_eq_some_iff`).
-/

namespace ComponentApi.Markup

open Text

/-! ### Parts -/

/-- What events report when they are taken together. -/
inductive Part where
  | text (span : Span)
  | mustache (span : Span)
  | comment (span : Span)
  | close (span : Span)
  | tag (opening : Tag) (selfClosing : Bool)

/-- Whether the event ends a tag that closes itself. -/
def Event.isSelfClose : Event → Bool
  | .selfClose _ => true
  | _ => false

/-- The parts in the events. A tag that does not end is none. -/
def partsOf : List Event → List Part
  | [] => []
  | .text span :: rest => .text span :: partsOf rest
  | .mustache span :: rest => .mustache span :: partsOf rest
  | .comment span :: rest => .comment span :: partsOf rest
  | .close span :: rest => .close span :: partsOf rest
  | .openName name :: rest =>
    match (rest.dropWhile Event.isOfAttribute).head? with
    | some event =>
      if event.endsTag then .tag ⟨name, attributesOf rest⟩ event.isSelfClose :: partsOf rest
      else partsOf rest
    | none => partsOf rest
  | _ :: rest => partsOf rest

/-- The part that a group reports. -/
def Group.part : Group → Part
  | .text span => .text span
  | .mustache span => .mustache span
  | .comment span => .comment span
  | .close span => .close span
  | .tag opening => .tag opening.toTag opening.selfClosing

/-- The events of attributes are no parts. -/
lemma partsOf_of_isOfAttribute {front : List Event} (rest : List Event)
    (h : ∀ event ∈ front, event.isOfAttribute = true) :
    partsOf (front ++ rest) = partsOf rest := by
  induction front with
  | nil => rfl
  | cons event front ih =>
    obtain ⟨hevent, hfront⟩ := List.forall_mem_cons.1 h
    rw [← ih hfront]
    cases event <;> first | rfl | cases hevent

/-- The tag of a group is one part. -/
lemma partsOf_tag (tag : TagGroup) (rest : List Event) :
    partsOf (tag.events ++ rest) = .tag tag.toTag tag.selfClosing :: partsOf rest := by
  obtain ⟨hattribute, hends, _⟩ := tag.lastEvent_cases
  have hlast : tag.lastEvent.isSelfClose = tag.selfClosing ∧
      partsOf (tag.lastEvent :: rest) = partsOf rest := by
    unfold TagGroup.lastEvent
    cases tag.selfClosing <;> exact ⟨rfl, rfl⟩
  obtain ⟨hself, hrest⟩ := hlast
  rw [TagGroup.events, List.append_assoc, List.cons_append, List.singleton_append, partsOf,
    tag.dropWhile_isOfAttribute, attributesOf_append _ _ hattribute,
    partsOf_of_isOfAttribute _ fun event => isOfAttribute_of_mem, hrest]
  simp only [List.head?_cons, hends, hself, if_true]
  rfl

/-- A group is one part. -/
lemma partsOf_group (group : Group) (rest : List Event) :
    partsOf (group.events ++ rest) = group.part :: partsOf rest := by
  cases group with
  | tag opening => exact partsOf_tag opening rest
  | _ => rfl

/-- Loose events are no parts. -/
lemma partsOf_of_isLoose {events : List Event} (h : ∀ event ∈ events, event.isLoose = true) :
    partsOf events = [] := by
  induction events with
  | nil => rfl
  | cons event rest ih =>
    obtain ⟨hevent, hrest⟩ := List.forall_mem_cons.1 h
    cases event with
    | openName name =>
      rw [partsOf, ih hrest]
      split
      · next last hlast =>
        have hmem := (List.dropWhile_sublist _).subset (List.mem_of_mem_head? hlast)
        rw [Event.not_endsTag_of_isLoose (hrest last hmem)]
        rfl
      · rfl
    | text | mustache | comment | close | openEnd | selfClose => cases hevent
    | _ => exact ih hrest

/-- The parts of groups, with loose events behind them. -/
lemma partsOf_groups (groups : List Group) {rest : List Event}
    (h : ∀ event ∈ rest, event.isLoose = true) :
    partsOf (groups.flatMap Group.events ++ rest) = groups.map Group.part := by
  induction groups with
  | nil => exact partsOf_of_isLoose h
  | cons group groups ih =>
    rw [List.flatMap_cons, List.append_assoc, partsOf_group, ih, List.map_cons]

/-! ### Looking back -/

/-- What a part says of the text behind it, if it says anything: whether that is raw text. -/
def Part.rawText? (template : Template) : Part → Option Bool
  | .tag opening selfClosing =>
    if isRawTextTag (template.slice opening.name) && !selfClosing then some true
    else if Visit.isSkipped (template.slice opening.name) then some false
    else none
  | .close span => if isRawTextTag (template.slice span) then some false else none
  | _ => none

/-- Whether text behind the parts is raw text: the last part that says so decides. The parts are
listed from the last to the first. -/
def rawTextBehind (template : Template) (earlier : List Part) : Bool :=
  (earlier.findSome? (Part.rawText? template)).getD false

/-- Whether a comment that is pending in front of the part is still pending behind it. Blanks, raw
text, the tags of scripts and styles and the closing tags of raw text let it pass. -/
def Part.isPassed (template : Template) (raw : Bool) : Part → Bool
  | .text span => raw || isMarkupBlankText (template.slice span)
  | .close span => raw || isRawTextTag (template.slice span)
  | .tag opening _ => Visit.isSkipped (template.slice opening.name)
  | .mustache _ | .comment _ => false

/-- The comment that is pending behind the parts, which are listed from the last to the first: the
last comment, if all the parts behind it let it pass. -/
def pendingBehind (template : Template) : List Part → Option Span
  | [] => none
  | .comment span :: _ => some span
  | part :: earlier =>
    if part.isPassed template (rawTextBehind template earlier) then pendingBehind template earlier
    else none

/-- The comment that is pending behind the events. -/
def pendingComment (template : Template) (events : List Event) : Option Span :=
  pendingBehind template (partsOf events).reverse

section Visits

variable {template : Template}

/-- A group says of the text behind it what its part says. -/
lemma Group.rawText?_part (group : Group) :
    group.part.rawText? template = group.rawText? template := by
  cases group <;> rfl

/-- One part more decides whether the text behind it is raw text, if it says anything. -/
lemma rawTextBehind_cons (part : Part) (earlier : List Part) :
    rawTextBehind template (part :: earlier) =
      (part.rawText? template).getD (rawTextBehind template earlier) := by
  cases h : part.rawText? template <;> simp [rawTextBehind, h]

/-- The visit has come past the parts: its flag and its comment are those that they leave behind. -/
structure Visit.IsPast (template : Template) (visit : Visit) (earlier : List Part) : Prop where
  inRawText : visit.inRawText = rawTextBehind template earlier
  comment : visit.comment? = pendingBehind template earlier

/-- What the events of a group do to the pending comment. -/
lemma comment_foldl_group (visit : Visit) (group : Group) :
    (group.events.foldl (Visit.step template) visit).comment? =
      match group with
      | .comment span => some span
      | _ => if group.part.isPassed template visit.inRawText then visit.comment? else none := by
  cases group with
  | tag opening =>
    have hpassed : (Group.tag opening).part.isPassed template visit.inRawText =
        Visit.isSkipped (template.slice opening.name) := rfl
    dsimp only
    rw [hpassed, Group.events]
    cases hskipped : Visit.isSkipped (template.slice opening.name) with
    | true => exact comment_foldl_skipped hskipped
    | false => exact comment_foldl_read hskipped
  | text span =>
    cases hraw : visit.inRawText <;>
      cases hblank : isMarkupBlankText (template.slice span) <;>
        simp [Group.events, Group.part, Part.isPassed, Visit.step, hraw, hblank]
  | close span =>
    cases hname : isRawTextTag (template.slice span) <;>
      cases hraw : visit.inRawText <;>
        simp [Group.events, Group.part, Part.isPassed, Visit.step, hraw, hname]
  | mustache | comment => rfl

/-- A group takes a visit past its part. -/
lemma Visit.IsPast.group {visit : Visit} {earlier : List Part} (h : visit.IsPast template earlier)
    (group : Group) :
    (group.events.foldl (Visit.step template) visit).IsPast template (group.part :: earlier) := by
  refine ⟨?_, ?_⟩
  · rw [inRawText_foldl_group, rawTextBehind_cons, group.rawText?_part, h.inRawText]
  · rw [comment_foldl_group, h.comment, h.inRawText]
    cases group <;> rfl

/-- Groups take a visit past their parts. -/
lemma Visit.IsPast.groups {visit : Visit} {earlier : List Part} (h : visit.IsPast template earlier)
    (groups : List Group) :
    ((groups.flatMap Group.events).foldl (Visit.step template) visit).IsPast template
      ((groups.map Group.part).reverse ++ earlier) := by
  induction groups generalizing visit earlier with
  | nil => exact h
  | cons group groups ih =>
    rw [List.flatMap_cons, List.foldl_append, List.map_cons, List.reverse_cons, List.append_assoc]
    exact ih (h.group group)

/-- Loose events do not touch the pending comment. -/
lemma comment_foldl_of_isLoose {events : List Event} (h : ∀ event ∈ events, event.isLoose = true)
    (visit : Visit) : (events.foldl (Visit.step template) visit).comment? = visit.comment? := by
  induction events generalizing visit with
  | nil => rfl
  | cons event rest ih =>
    obtain ⟨hevent, hrest⟩ := List.forall_mem_cons.1 h
    refine (ih hrest _).trans ?_
    cases event with
    | attributeEnd =>
      simp only [Visit.step]
      split <;> rfl
    | text | mustache | comment | close | openEnd | selfClose => cases hevent
    | _ => rfl

/-- Wherever a visit of a template stands, the comment that it keeps is the one that is pending. -/
lemma comment_eq_pendingComment (found : Extraction) {earlier later : List Event}
    (h : events template.text = earlier ++ later) :
    (Visit.of template found earlier).comment? = pendingComment template earlier := by
  obtain ⟨groups, rest, rfl, hrest⟩ := exists_groups h
  have hstart : ({ found } : Visit).IsPast template [] := ⟨rfl, rfl⟩
  rw [Visit.of_append, comment_foldl_of_isLoose hrest, pendingComment, partsOf_groups groups hrest,
    ← List.append_nil (List.reverse _)]
  exact (hstart.groups groups).comment

/-- If the closing tags of elements with raw text are plain, a comment is pending in front of a tag
exactly if the tag adopts it. -/
lemma pendingComment_eq_some_iff {earlier later : List Event} {tag : TagGroup} {comment : Span}
    (hplain : PlainClosings template (events template.text))
    (h : events template.text = earlier ++ tag.events ++ later) :
    pendingComment template earlier = some comment ↔ Adopted template earlier comment := by
  have hsplit : events template.text = earlier ++ (tag.events ++ later) := by
    rw [h, List.append_assoc]
  rw [← comment_eq_pendingComment default hsplit]
  exact comment_eq_some_iff hplain h

end Visits

end ComponentApi.Markup
