import ComponentApi.Proofs.Markup.RawText
import ComponentApi.Proofs.Script.Findings

/-!
# Comments in front of tags

A comment documents the tag that it stands in front of. `Adopted` says when it does: nothing stands
between them but texts of blanks, scripts and styles. In a visit, the comment that is pending in
front of a tag is the one that the tag adopts (`comment_eq_some_iff`). This needs closing tags that
leave no doubt about where raw text ends (`PlainClosings`).

An event either changes nothing that was found or ends a tag, which is read: `step_cases` says so,
and what is said here of items, of the first tag and of the overview is derived from it.
-/

namespace ComponentApi

/-- The item says what the comment says. -/
def Item.Carries (item : Item) (doc : DocComment) : Prop :=
  item.description = doc.description ∧ item.keywords = doc.keywords

/-- The item belongs to a tag: it is not an event, or it is an event that the tag forwards. -/
def Item.IsOfTag (item : Item) : Prop :=
  item.category ≠ .events ∨ item.parent? ≠ none

/-- An event that a script dispatches belongs to no tag. -/
lemma Item.IsDispatched.not_isOfTag {item : Item} (h : item.IsDispatched) : ¬ item.IsOfTag := by
  have hdetail : item.detail = .event {} := h
  simp [Item.IsOfTag, Item.category, Item.parent?, hdetail, Detail.category]

namespace Markup

open Text Extraction

/-! ### The items of a tag -/

/-- The detail is one that the markup gives. All that it tells of a variable is how it is bound. -/
inductive IsOfMarkup : Detail → Prop
  | data (bindings : List Binding) : IsOfMarkup (.data { bindings })
  | event (detail : EventDetail) : IsOfMarkup (.event detail)
  | slot (parameters : List SlotParameter) : IsOfMarkup (.slot parameters)
  | ref (parent? : Option String) : IsOfMarkup (.ref parent?)
  | action (parent? : Option String) : IsOfMarkup (.action parent?)

/-- The item is one that a tag can add: an event that a handler dispatches, or an item of the tag
that the comment documents. -/
inductive Shown (template : Template) (comment? : Option Span) : Item → Prop
  | dispatched {item : Item} (h : item.IsDispatched) : Shown template comment? item
  | documented (name : String) {detail : Detail} (h : IsOfMarkup detail) (visibility : Visibility)
      (location : Span) :
      Shown template comment?
        (.documented name detail (template.comment comment? visibility) location)

section Items

variable (template : Template) (comment? : Option Span) (tag : List Char) (attr : Attribute)

/-- What a comment says does not depend on the visibility that it has if it names none. -/
lemma comment_alike (first second : Visibility) :
    (template.comment comment? first).description =
        (template.comment comment? second).description ∧
      (template.comment comment? first).keywords = (template.comment comment? second).keywords := by
  cases comment? with
  | none => exact ⟨rfl, rfl⟩
  | some span => simp [Template.comment, Comment.parse]

/-- The comment documents the items of a tag, unless they are events that a handler dispatches. -/
lemma Shown.carries {template : Template} {comment? : Option Span} {item : Item}
    (h : Shown template comment? item) :
    item.IsDispatched ∨ ∀ default, item.Carries (template.comment comment? default) := by
  cases h with
  | dispatched h => exact .inl h
  | documented _ _ visibility => exact .inr (comment_alike template comment? visibility)

/-- A binding adds at most an item that the comment documents. -/
lemma extractBinding_adding (property : List Char) :
    Adding (Shown template comment?) (extractBinding template comment? tag attr property) := by
  unfold extractBinding
  exact .ite _ .id (.emit (.documented _ (.data _) _ _))

/-- A reference adds at most an item that the comment documents. -/
lemma extractReference_adding :
    Adding (Shown template comment?) (extractReference template comment? tag attr) := by
  unfold extractReference
  cases valueRoot? template attr with
  | none => exact .id
  | some target => exact .emit (.documented _ (.ref _) _ _)

/-- An action adds at most an item that the comment documents. -/
lemma extractAction_adding (action : List Char) :
    Adding (Shown template comment?) (extractAction template comment? tag attr action) := by
  unfold extractAction
  exact .ite _ .id fun found => Adding.emit (.documented _ (.action _) _ _) found

/-- A forwarded event adds at most an item that the comment documents. -/
lemma extractForwarded_adding (directive : List Char) :
    Adding (Shown template comment?)
      (extractForwarded template comment? tag attr directive) := by
  intro found
  unfold extractForwarded
  split
  · exact .refl found
  · exact .refl found
  · dsimp only
    split_ifs
    · exact .refl found
    · refine ⟨⟨[_], rfl, ?_⟩, rfl⟩
      rw [List.forall_mem_singleton]
      exact .documented _ (.event _) _ _

variable {template comment? tag attr} {found next : Extraction}

/-- A handler can add dispatched events, and all else in an attribute is documented by the comment.
-/
lemma extractAttribute_adds (h : extractAttribute template comment? tag found attr = .ok next) :
    Adds (Shown template comment?) found next := by
  unfold extractAttribute at h
  split at h
  · cases h
    exact extractReference_adding template comment? tag attr found
  · cases h
    exact extractBinding_adding template comment? tag attr _ found
  · split at h
    · unfold extractHandler at h
      split at h
      · exact (readInline_searched h).toAdds.mono fun _ => .dispatched
      · cases h
        exact .refl _
    · cases h
      exact extractForwarded_adding template comment? tag attr _ found
  · cases h
    exact extractAction_adding template comment? tag attr _ found
  · cases h
    exact .refl _

/-- The attributes of a tag add nothing but dispatched events and items that the comment documents.
-/
lemma extractAttributes_adds (attributes : List Attribute) :
    Adds (Shown template comment?) found
      (extractAttributes template comment? tag found attributes).1 := by
  induction attributes generalizing found with
  | nil => exact .refl found
  | cons attr rest ih =>
    unfold extractAttributes
    split
    · next hattr => exact (extractAttribute_adds hattr).trans ih
    · exact .refl found

/-- A tag adds nothing but dispatched events and items that the comment documents. -/
lemma extractTag_adds (tag : Tag) (stop : Nat) :
    Adds (Shown template comment?) found (extractTag template comment? tag stop found).1 := by
  unfold extractTag
  dsimp only
  refine Adds.trans ?_ (extractAttributes_adds tag.attributes)
  split_ifs
  · exact Adding.emit (.documented _ (.slot _) _ _) found
  · exact .refl found

end Items

/-! ### The overview -/

section Overview

variable {template : Template} {visit : Visit}

/-- What is found when the comment in front of the first tag has been read. -/
def Visit.withOverview (visit : Visit) (template : Template) : Extraction :=
  if visit.beforeFirst then extractOverview template visit.comment? visit.found else visit.found

/-- The overview is no item. -/
lemma withOverview_items (visit : Visit) :
    (visit.withOverview template).items = visit.found.items := by
  unfold Visit.withOverview extractOverview
  split_ifs <;> rfl

/-- An overview that is there is kept. -/
lemma withOverview_of_some {doc : DocComment} (h : visit.found.overview? = some doc) :
    (visit.withOverview template).overview? = some doc := by
  simp [Visit.withOverview, extractOverview, h]

/-- Behind the first tag, a comment gives no overview. -/
lemma withOverview_of_not_beforeFirst (h : visit.beforeFirst = false) :
    visit.withOverview template = visit.found := by
  simp [Visit.withOverview, h]

/-- In front of the first tag, a comment gives the overview, if there is none. -/
lemma withOverview_of_beforeFirst (hfirst : visit.beforeFirst = true)
    (h : visit.found.overview? = none) :
    (visit.withOverview template).overview? =
      visit.comment?.map fun span => Comment.parse (template.slice span) .public := by
  cases hcomment : visit.comment? <;>
    simp [Visit.withOverview, extractOverview, hfirst, h, hcomment, Template.comment]

/-- The visit goes on without reading a tag. -/
structure Visit.Quiet (visit next : Visit) : Prop where
  found : next.found = visit.found
  beforeFirst : next.beforeFirst = visit.beforeFirst
  failure : next.failure? = visit.failure?

/-- The visit goes on by reading a tag, whose items the pending comment documents. -/
structure Visit.Reads (template : Template) (visit next : Visit) : Prop where
  failure : visit.failure? = none
  beforeFirst : next.beforeFirst = false
  found : Adds (Shown template visit.comment?) (visit.withOverview template) next.found

/-- Unless a failure came before, the tag is read. -/
lemma readTag_reads (tag : Tag) (stop : Nat) (h : visit.failure? = none) :
    visit.Reads template (visit.readTag template tag stop) := by
  unfold Visit.readTag
  simp only [h, Option.isSome_none, Bool.false_eq_true, if_false]
  exact ⟨h, rfl, extractTag_adds tag stop⟩

/-- Either nothing is read, because of a failure before, or the tag is. -/
lemma readTag_cases (template : Template) (visit : Visit) (tag : Tag) (stop : Nat) :
    visit.Quiet (visit.readTag template tag stop) ∨
      visit.Reads template (visit.readTag template tag stop) := by
  cases hfailure : visit.failure? with
  | none => exact .inr (readTag_reads tag stop hfailure)
  | some failure =>
    left
    simp only [Visit.readTag, hfailure, Option.isSome_some, if_true]
    exact ⟨rfl, rfl, rfl⟩

/-- The end of a tag either reads nothing or reads the tag. -/
lemma endTag_cases (template : Template) (visit : Visit) (stop : Nat) (selfClosing : Bool) :
    visit.Quiet (visit.endTag template stop selfClosing) ∨
      visit.Reads template (visit.endTag template stop selfClosing) := by
  unfold Visit.endTag
  cases visit.tag? with
  | none => exact .inl ⟨rfl, rfl, rfl⟩
  | some tag =>
    dsimp only
    split_ifs
    · exact .inl ⟨rfl, rfl, rfl⟩
    · let reading : Visit :=
        { visit with
          tag? := none
          inRawText :=
            visit.inRawText || (isRawTextTag (template.slice tag.name) && !selfClosing) }
      obtain hquiet | hreads := readTag_cases template reading tag stop
      · exact .inl ⟨hquiet.found, hquiet.beforeFirst, hquiet.failure⟩
      · exact .inr ⟨hreads.failure, hreads.beforeFirst, hreads.found⟩

/-- An event either reads nothing or ends a tag, which is read. -/
lemma step_cases (template : Template) (visit : Visit) (event : Event) :
    visit.Quiet (Visit.step template visit event) ∨
      (event.endsTag = true ∧ visit.Reads template (Visit.step template visit event)) := by
  cases event with
  | openEnd position => exact (endTag_cases template visit position false).imp_right (⟨rfl, ·⟩)
  | selfClose position => exact (endTag_cases template visit position true).imp_right (⟨rfl, ·⟩)
  | text span | close span =>
    left
    simp only [Visit.step]
    split_ifs <;> exact ⟨rfl, rfl, rfl⟩
  | attributeEnd quote position =>
    left
    simp only [Visit.step]
    split <;> exact ⟨rfl, rfl, rfl⟩
  | _ => exact .inl ⟨rfl, rfl, rfl⟩

/-- An event keeps an overview that is there. -/
lemma overview_step {doc : DocComment} (h : visit.found.overview? = some doc) (event : Event) :
    (Visit.step template visit event).found.overview? = some doc := by
  obtain hquiet | ⟨_, hreads⟩ := step_cases template visit event
  · rwa [hquiet.found]
  · rw [hreads.found.overview, withOverview_of_some h]

/-- Events keep an overview that is there. -/
lemma overview_foldl {doc : DocComment} (h : visit.found.overview? = some doc)
    (events : List Event) :
    (events.foldl (Visit.step template) visit).found.overview? = some doc := by
  induction events generalizing visit with
  | nil => exact h
  | cons event events ih => exact ih (overview_step h event)

/-- Behind the first tag, the overview stays as it is. -/
lemma foldl_of_not_beforeFirst (h : visit.beforeFirst = false) (events : List Event) :
    (events.foldl (Visit.step template) visit).beforeFirst = false ∧
      (events.foldl (Visit.step template) visit).found.overview? = visit.found.overview? := by
  induction events generalizing visit with
  | nil => exact ⟨h, rfl⟩
  | cons event events ih =>
    obtain hquiet | ⟨_, hreads⟩ := step_cases template visit event
    · obtain ⟨hfirst, hoverview⟩ := ih (hquiet.beforeFirst.trans h)
      exact ⟨hfirst, hoverview.trans (by rw [hquiet.found])⟩
    · obtain ⟨hfirst, hoverview⟩ := ih hreads.beforeFirst
      refine ⟨hfirst, hoverview.trans ?_⟩
      rw [hreads.found.overview, withOverview_of_not_beforeFirst h]

variable {found : Extraction}

/-- Before the first tag, there is neither a failure nor a new overview. -/
lemma of_beforeFirst {events : List Event}
    (h : (Visit.of template found events).beforeFirst = true) :
    (Visit.of template found events).failure? = none ∧
      (Visit.of template found events).found.overview? = found.overview? := by
  induction events using List.reverseRecOn with
  | nil => exact ⟨rfl, rfl⟩
  | append_singleton events event ih =>
    rw [Visit.of_append] at h ⊢
    obtain hquiet | ⟨_, hreads⟩ := step_cases template (Visit.of template found events) event
    · obtain ⟨hfailure, hoverview⟩ := ih (hquiet.beforeFirst.symm.trans h)
      exact ⟨hquiet.failure.trans hfailure, by rw [← hoverview, ← hquiet.found]; rfl⟩
    · cases h.symm.trans hreads.beforeFirst

/-- A tag that is read adds items that the pending comment documents. -/
lemma reads_tag {tag : TagGroup} {earlier : List Event}
    (htag : Visit.isSkipped (template.slice tag.name) = false)
    (h : (Visit.of template found earlier).failure? = none) :
    (Visit.of template found earlier).Reads template
      (Visit.of template found (earlier ++ tag.events)) := by
  obtain ⟨pending?, hvisit⟩ := foldl_step_read template (Visit.of template found earlier) tag htag
  let reading : Visit := { Visit.of template found earlier with
    inRawText := (Visit.of template found earlier).inRawText || tag.opensRaw template.text
    tag? := none
    pending? }
  have hreads : reading.Reads template (reading.readTag template tag.toTag tag.stop) :=
    readTag_reads tag.toTag tag.stop h
  rw [Visit.of_append, hvisit]
  exact ⟨h, hreads.beforeFirst, hreads.found⟩

/-! ### The first tag -/

/-- The only tags in the events are scripts and styles. -/
def OnlySkipped (template : Template) (events : List Event) : Prop :=
  ∀ opening : TagGroup, opening.events <:+: events →
    Visit.isSkipped (template.slice opening.name) = true

/-- What comes before the first tag comes before it in a shorter part of the events too. -/
lemma beforeFirst_of_append {events more : List Event}
    (h : (Visit.of template found (events ++ more)).beforeFirst = true) :
    (Visit.of template found events).beforeFirst = true := by
  by_contra hread
  rw [Visit.of_append] at h
  cases h.symm.trans (foldl_of_not_beforeFirst (Bool.eq_false_iff.2 hread) more).1

/-- Before the first tag that is read, there are only scripts and styles. -/
lemma onlySkipped_of_beforeFirst {events : List Event}
    (h : (Visit.of template found events).beforeFirst = true) : OnlySkipped template events := by
  rintro opening ⟨before, after, rfl⟩
  by_contra hopening
  have hopened := beforeFirst_of_append h
  have hfailure := (of_beforeFirst (beforeFirst_of_append hopened)).1
  cases hopened.symm.trans (reads_tag (Bool.eq_false_iff.2 hopening) hfailure).beforeFirst

/-- Where a tag has been read, there is a first one. -/
lemma exists_first_tag {reported rest : List Event} (h : events template.text = reported ++ rest)
    (hread : (Visit.of template found reported).beforeFirst = false) :
    ∃ (earlier : List Event) (tag : TagGroup) (later : List Event),
      reported = earlier ++ tag.events ++ later ∧
      Visit.isSkipped (template.slice tag.name) = false ∧
      (Visit.of template found earlier).beforeFirst = true := by
  induction reported using List.reverseRecOn generalizing rest with
  | nil => cases hread
  | append_singleton reported event ih =>
    rw [List.append_assoc, List.singleton_append] at h
    cases hbefore : (Visit.of template found reported).beforeFirst with
    | false =>
      obtain ⟨earlier, tag, later, rfl, htag, hearlier⟩ := ih h hbefore
      exact ⟨earlier, tag, later ++ [event], by simp, htag, hearlier⟩
    | true =>
      have hstep : (Visit.step template (Visit.of template found reported) event).beforeFirst =
          false := by rwa [Visit.of_append] at hread
      -- The event is the one that ends the first tag, and the events before it are that tag's.
      have hends : event.endsTag = true := by
        obtain hquiet | ⟨hends, _⟩ := step_cases template (Visit.of template found reported) event
        · cases hstep.symm.trans (hquiet.beforeFirst.trans hbefore)
        · exact hends
      have hevent : event ≠ .finish := by
        rintro rfl
        cases hends
      obtain ⟨place, mode, next, harranged, hnext⟩ := exists_arranged h hevent
      obtain ⟨blocks, tag, front, rfl, htag⟩ := harranged.endTag hnext hends
      have hearlier := beforeFirst_of_append hbefore
      have hfold : (tag.events.foldl (Visit.step template)
          (Visit.of template found (blocks.flatMap Block.events))).beforeFirst = false := by
        rw [htag, ← Visit.of_append, ← List.append_assoc]
        exact hread
      refine ⟨blocks.flatMap Block.events, tag, [], by simp [htag], ?_, hearlier⟩
      by_contra hskipped
      obtain ⟨pending?, hvisit⟩ := foldl_step_skipped template
        (Visit.of template found (blocks.flatMap Block.events)) tag (by simpa using hskipped)
      rw [hvisit] at hfold
      cases hfold.symm.trans hearlier

end Overview

/-! ### The pending comment -/

/-- Whether a comment in front of the block stays pending behind it: the block is a text of blanks,
or a script or a style. -/
def Block.IsPassed (template : Template) : Block → Prop
  | .single (.text span) => isMarkupBlankText (template.slice span) = true
  | .single (.tag opening) =>
    Visit.isSkipped (template.slice opening.name) = true ∧ opening.selfClosing = true
  | .element opening _ _ =>
    Visit.isSkipped (template.slice opening.name) = true ∧ opening.selfClosing = false
  | _ => False

/-- Behind the events, the comment stands in front of what comes next: it is the last one, and
nothing stands behind it but texts of blanks, scripts and styles. -/
def Adopted (template : Template) (events : List Event) (comment : Span) : Prop :=
  ∃ (before : List Event) (between : List Block),
    events = before ++ .comment comment :: between.flatMap Block.events ∧
      ∀ block ∈ between, block.IsPassed template

/-- The closing tags with the name of an element with raw text end such an element, and no closing
tag of such an element runs into a slash. -/
structure PlainClosings (template : Template) (events : List Event) : Prop where
  ends : ∀ earlier span later, events = earlier ++ .close span :: later →
    isRawTextTag (template.slice span) = true → EndsRaw template earlier
  plain : ∀ earlier span later, events = earlier ++ .close span :: later →
    EndsRaw template earlier → '/' ∉ template.slice span

/-- The closing tags of a part of the events are plain if all are. -/
lemma PlainClosings.of_append {template : Template} {events more : List Event}
    (h : PlainClosings template (events ++ more)) : PlainClosings template events := by
  constructor
  · intro earlier span later hevents
    exact h.ends earlier span (later ++ more) (by simp [hevents])
  · intro earlier span later hevents
    exact h.plain earlier span (later ++ more) (by simp [hevents])

section Comments

variable {template : Template} {found : Extraction} {visit : Visit} {tag : TagGroup}

/-- A script or a style does not touch the pending comment. -/
lemma comment_foldl_skipped (h : Visit.isSkipped (template.slice tag.name) = true) :
    (tag.events.foldl (Visit.step template) visit).comment? = visit.comment? := by
  obtain ⟨pending?, hvisit⟩ := foldl_step_skipped template visit tag h
  rw [hvisit]

/-- A tag that is read uses up the pending comment. -/
lemma comment_foldl_read (h : Visit.isSkipped (template.slice tag.name) = false) :
    (tag.events.foldl (Visit.step template) visit).comment? = none := by
  obtain ⟨pending?, hvisit⟩ := foldl_step_read template visit tag h
  rw [hvisit]

/-- The content of an element with raw text and its closing tag do not touch the comment. -/
lemma comment_foldl_element (content? : Option Span) (closing : Span)
    (h : tag.opensRaw template.text = true) :
    ((Block.element tag content? closing).events.foldl (Visit.step template) visit).comment? =
      (tag.events.foldl (Visit.step template) visit).comment? := by
  have hcontent := inRawText_foldl_content template visit content? h
  have hopened : (tag.events.foldl (Visit.step template) visit).inRawText = true := by
    simpa using inRawText_foldl_content template visit none h
  -- The flag is set from the opening tag on, so the text is not looked at.
  have hkept : ((tag.events ++ (content?.map Event.text).toList).foldl
      (Visit.step template) visit).comment? =
        (tag.events.foldl (Visit.step template) visit).comment? := by
    rw [List.foldl_append]
    cases content? with
    | none => rfl
    | some span => simp [Visit.step, hopened]
  rw [Block.events_element, List.foldl_append, ← hkept]
  simp only [List.foldl_cons, List.foldl_nil, Visit.step, hcontent]
  split_ifs <;> rfl

/-- A script or a style has raw text unless it closes itself. -/
lemma opensRaw_of_isSkipped (h : Visit.isSkipped (template.slice tag.name) = true) :
    tag.opensRaw template.text = !tag.selfClosing := by
  have hraw : isRawTextTag (tag.name.slice template.text) = true := isRawTextTag_of_isSkipped h
  simp [TagGroup.opensRaw, hraw]

/-- A block that lets a comment pass leaves the pending one as it is. -/
lemma comment_foldl_passed {block : Block} (h : block.IsPassed template) :
    (block.events.foldl (Visit.step template) visit).comment? = visit.comment? := by
  cases block with
  | element tag content? closing =>
    have hopens : tag.opensRaw template.text = true := by simp [opensRaw_of_isSkipped h.1, h.2]
    rw [comment_foldl_element content? closing hopens, comment_foldl_skipped h.1]
  | single group =>
    cases group with
    | tag opening =>
      rw [Block.events_single]
      exact comment_foldl_skipped h.1
    | text span =>
      have hblank : isMarkupBlankText (template.slice span) = true := h
      simp [Group.events, Visit.step, hblank]
    | _ => exact h.elim

/-- Outside of raw text, a comment is pending behind a block if the block is that comment, or if the
comment was pending before and the block lets it pass. -/
lemma of_comment_foldl_block {block : Block} {comment : Span} (hflag : visit.inRawText = false)
    (hfits : block.Fits template.text)
    (hclose : ∀ span, block = .single (.close span) → isRawTextTag (template.slice span) = false)
    (h : (block.events.foldl (Visit.step template) visit).comment? = some comment) :
    block = .single (.comment comment) ∨
      (block.IsPassed template ∧ visit.comment? = some comment) := by
  cases block with
  | element tag content? closing =>
    have hopens : tag.opensRaw template.text = true := hfits.1
    rw [comment_foldl_element content? closing hopens] at h
    cases hskipped : Visit.isSkipped (template.slice tag.name) with
    | false => cases (comment_foldl_read hskipped).symm.trans h
    | true =>
      rw [opensRaw_of_isSkipped hskipped, Bool.not_eq_true'] at hopens
      exact .inr ⟨⟨hskipped, hopens⟩, (comment_foldl_skipped hskipped).symm.trans h⟩
  | single group =>
    rw [Block.events_single] at h
    cases group with
    | tag opening =>
      have hopens : opening.opensRaw template.text = false := hfits
      cases hskipped : Visit.isSkipped (template.slice opening.name) with
      | false => cases (comment_foldl_read hskipped).symm.trans h
      | true =>
        rw [opensRaw_of_isSkipped hskipped, Bool.not_eq_false'] at hopens
        exact .inr ⟨⟨hskipped, hopens⟩, (comment_foldl_skipped hskipped).symm.trans h⟩
    | text span =>
      cases hblank : isMarkupBlankText (template.slice span) with
      | false => simp [Group.events, Visit.step, hflag, hblank] at h
      | true => exact .inr ⟨hblank, by simpa [Group.events, Visit.step, hblank] using h⟩
    | close span => simp [Group.events, Visit.step, hflag, hclose span rfl] at h
    | mustache span => cases h
    | comment span =>
      cases h
      exact .inl rfl

/-- Behind blocks, the flag is not set if the closing tags are plain. -/
lemma inRawText_of_plainClosings {blocks : List Block}
    (hfits : ∀ block ∈ blocks, block.Fits template.text)
    (hplain : PlainClosings template (blocks.flatMap Block.events)) :
    (Visit.of template found (blocks.flatMap Block.events)).inRawText = false := by
  by_contra hflag
  have hopen := leftOpen_of_inRawText blocks hfits (by simpa using hflag)
  obtain ⟨before, closing, after, hevents, hends, hslash⟩ := hopen.exists_slash
  exact hplain.plain before closing after hevents hends hslash

/-- A comment that is pending behind blocks stands in front of what comes next. -/
lemma adopted_of_comment {blocks : List Block} {comment : Span}
    (hfits : ∀ block ∈ blocks, block.Fits template.text)
    (hplain : PlainClosings template (blocks.flatMap Block.events))
    (h : (Visit.of template found (blocks.flatMap Block.events)).comment? = some comment) :
    Adopted template (blocks.flatMap Block.events) comment := by
  induction blocks using List.reverseRecOn with
  | nil => cases h
  | append_singleton blocks block ih =>
    have hblocks : ∀ b ∈ blocks, b.Fits template.text := fun b hb => hfits b (by simp [hb])
    rw [List.flatMap_append, List.flatMap_singleton] at hplain h ⊢
    rw [Visit.of_append] at h
    have hflag : (Visit.of template found (blocks.flatMap Block.events)).inRawText = false :=
      inRawText_of_plainClosings hblocks hplain.of_append
    have hclose : ∀ span, block = .single (.close span) →
        isRawTextTag (template.slice span) = false := by
      -- With such a name it would end an element with raw text, where the flag is set.
      rintro span rfl
      by_contra hraw
      have hends := hplain.ends _ span [] rfl (by simpa using hraw)
      cases hflag.symm.trans hends.inRawText
    obtain rfl | ⟨hpassed, hbefore⟩ := of_comment_foldl_block hflag (hfits block (by simp)) hclose h
    · exact ⟨_, [], rfl, by simp⟩
    · obtain ⟨before, between, hevents, hall⟩ := ih hblocks hplain.of_append hbefore
      refine ⟨before, between ++ [block], by simp [hevents], ?_⟩
      intro b hb
      rcases List.mem_append.1 hb with hb | hb
      · exact hall b hb
      · cases List.mem_singleton.1 hb
        exact hpassed

/-- Blocks that let a comment pass leave the pending one as it is. -/
lemma comment_foldl_blocks {blocks : List Block} (h : ∀ block ∈ blocks, block.IsPassed template) :
    ((blocks.flatMap Block.events).foldl (Visit.step template) visit).comment? =
      visit.comment? := by
  induction blocks generalizing visit with
  | nil => rfl
  | cons block blocks ih =>
    rw [List.flatMap_cons, List.foldl_append, ih fun b hb => h b (List.mem_cons_of_mem _ hb)]
    exact comment_foldl_passed (h block List.mem_cons_self)

/-- A comment that stands in front of what comes next is pending. -/
lemma comment_of_adopted {events : List Event} {comment : Span}
    (h : Adopted template events comment) :
    (Visit.of template found events).comment? = some comment := by
  obtain ⟨before, between, rfl, hpassed⟩ := h
  rw [Visit.of_append, List.foldl_cons, comment_foldl_blocks hpassed]
  rfl

/-- In front of a tag, the pending comment is the one that stands in front of it. -/
lemma comment_eq_some_iff {earlier later : List Event} {comment : Span}
    (hplain : PlainClosings template (events template.text))
    (h : events template.text = earlier ++ tag.events ++ later) :
    (Visit.of template found earlier).comment? = some comment ↔
      Adopted template earlier comment := by
  refine ⟨fun hcomment => ?_, comment_of_adopted⟩
  obtain ⟨blocks, hfits, rfl⟩ := exists_blocks h
  rw [h, List.append_assoc] at hplain
  exact adopted_of_comment hfits hplain.of_append hcomment

/-- The comment in front of the first tag gives the overview, if there is none. -/
lemma overview_of_first {earlier : List Event} (later : List Event)
    (hfirst : (Visit.of template found earlier).beforeFirst = true)
    (htag : Visit.isSkipped (template.slice tag.name) = false) (hnone : found.overview? = none) :
    (Visit.of template found (earlier ++ tag.events ++ later)).found.overview? =
      (Visit.of template found earlier).comment?.map fun comment =>
        Comment.parse (template.slice comment) .public := by
  obtain ⟨hfailure, hoverview⟩ := of_beforeFirst hfirst
  have hreads := reads_tag htag hfailure
  rw [Visit.of_append, (foldl_of_not_beforeFirst hreads.beforeFirst later).2,
    hreads.found.overview, withOverview_of_beforeFirst hfirst (hoverview.trans hnone)]

/-- Behind nothing but scripts and styles, no tag has been read. -/
lemma beforeFirst_of_onlySkipped {earlier rest : List Event}
    (h : events template.text = earlier ++ rest) (honly : OnlySkipped template earlier) :
    (Visit.of template found earlier).beforeFirst = true := by
  by_contra hread
  obtain ⟨before, opening, after, rfl, hopening, _⟩ :=
    exists_first_tag h (Bool.eq_false_iff.2 hread)
  cases hopening.symm.trans (honly opening ⟨before, after, rfl⟩)

/-- The items of a tag say what the comment in front of it says, and nothing if there is none. -/
lemma items_of_tag {earlier later : List Event}
    (hplain : PlainClosings template (events template.text))
    (hevents : events template.text = earlier ++ tag.events ++ later)
    (htag : Visit.isSkipped (template.slice tag.name) = false)
    (hfailure : (Visit.of template found earlier).failure? = none) :
    ∃ new, (Visit.of template found (earlier ++ tag.events)).found.items =
        (Visit.of template found earlier).found.items ++ new ∧
      ∀ item ∈ new, item.IsOfTag →
        (∀ comment, Adopted template earlier comment → ∀ default,
          item.Carries (Comment.parse (template.slice comment) default)) ∧
        ((∀ comment, ¬ Adopted template earlier comment) →
          item.description = "" ∧ item.keywords = []) := by
  obtain ⟨new, hnew, hshown⟩ := (reads_tag htag hfailure).found.items
  refine ⟨new, by rw [hnew, withOverview_items], ?_⟩
  intro item hitem hown
  have hcarries := (hshown item hitem).carries.resolve_left fun h => h.not_isOfTag hown
  refine ⟨?_, ?_⟩
  · intro comment hadopted default
    have hdoc := hcarries default
    rwa [comment_of_adopted hadopted] at hdoc
  · intro hnone
    have hcomment : (Visit.of template found earlier).comment? = none := by
      rw [Option.eq_none_iff_forall_ne_some]
      intro comment hcomment
      exact hnone comment ((comment_eq_some_iff hplain hevents).1 hcomment)
    have hdoc := hcarries .public
    rwa [hcomment] at hdoc

/-- Reading a template gives the component an overview exactly if a comment stands in front of its
first tag. -/
lemma overview_readMarkup_iff (hplain : PlainClosings template (events template.text))
    (hnone : found.overview? = none) (doc : DocComment) :
    (found.readMarkup template.text template.offset).1.overview? = some doc ↔
      ∃ (earlier : List Event) (tag : TagGroup) (later : List Event) (comment : Span),
        events template.text = earlier ++ tag.events ++ later ∧ OnlySkipped template earlier ∧
        Visit.isSkipped (template.slice tag.name) = false ∧ Adopted template earlier comment ∧
        doc = Comment.parse (template.slice comment) .public := by
  have hread : (found.readMarkup template.text template.offset).1 =
      (Visit.of template found (events template.text)).found := rfl
  rw [hread]
  constructor
  · intro hdoc
    cases hfirst : (Visit.of template found (events template.text)).beforeFirst with
    | true =>
      rw [(of_beforeFirst hfirst).2, hnone] at hdoc
      cases hdoc
    | false =>
      obtain ⟨earlier, tag, later, hevents, htag, hbefore⟩ :=
        exists_first_tag (List.append_nil _).symm hfirst
      rw [hevents, overview_of_first later hbefore htag hnone] at hdoc
      obtain ⟨comment, hcomment, rfl⟩ := Option.map_eq_some_iff.1 hdoc
      have hadopted := (comment_eq_some_iff hplain hevents).1 hcomment
      exact ⟨earlier, tag, later, comment, hevents, onlySkipped_of_beforeFirst hbefore, htag,
        hadopted, rfl⟩
  · rintro ⟨earlier, tag, later, comment, hevents, honly, htag, hadopted, rfl⟩
    have hsplit : events template.text = earlier ++ (tag.events ++ later) := by
      rw [hevents, List.append_assoc]
    rw [hevents, overview_of_first later (beforeFirst_of_onlySkipped hsplit honly) htag hnone,
      comment_of_adopted hadopted]
    rfl

end Comments

/-- If the closing tags of elements with raw text are plain, the comment in front of a tag, with
nothing but blanks, scripts and styles between them, documents the items of the tag, and if it is
the first tag it gives the component its overview. An overview once given stays. -/
theorem adopted_comment_documents (template : Template) (found : Extraction)
    (hplain : PlainClosings template (events template.text)) :
    (∀ (earlier : List Event) (tag : TagGroup) (later : List Event),
      events template.text = earlier ++ tag.events ++ later →
      Visit.isSkipped (template.slice tag.name) = false →
      (Visit.of template found earlier).failure? = none →
      ∃ new, (Visit.of template found (earlier ++ tag.events)).found.items =
          (Visit.of template found earlier).found.items ++ new ∧
        ∀ item ∈ new, item.IsOfTag →
          (∀ comment, Adopted template earlier comment → ∀ default,
            item.Carries (Comment.parse (template.slice comment) default)) ∧
          ((∀ comment, ¬ Adopted template earlier comment) →
            item.description = "" ∧ item.keywords = [])) ∧
    (found.overview? = none → ∀ doc,
      (found.readMarkup template.text template.offset).1.overview? = some doc ↔
        ∃ (earlier : List Event) (tag : TagGroup) (later : List Event) (comment : Span),
          events template.text = earlier ++ tag.events ++ later ∧ OnlySkipped template earlier ∧
          Visit.isSkipped (template.slice tag.name) = false ∧ Adopted template earlier comment ∧
          doc = Comment.parse (template.slice comment) .public) ∧
    (∀ doc, (∀ earlier later, (Visit.of template found earlier).found.overview? = some doc →
        (Visit.of template found (earlier ++ later)).found.overview? = some doc) ∧
      (found.overview? = some doc →
        (∀ text offset, (found.readMarkup text offset).1.overview? = some doc) ∧
        ∀ block next, found.readScript block = .ok next → next.overview? = some doc)) := by
  refine ⟨fun _ _ _ => items_of_tag hplain, overview_readMarkup_iff hplain, ?_⟩
  intro doc
  refine ⟨?_, ?_⟩
  · intro earlier later h
    rw [Visit.of_append]
    exact overview_foldl h later
  · intro h
    refine ⟨fun text offset => overview_foldl h _, ?_⟩
    intro block next hread
    rw [(readScript_adds hread).overview, h]

/-- A template with a style between a comment and a slot. -/
def styledSlot : Template :=
  ⟨"<!--a--><style></style>\n<slot/>".toList, 0⟩

/-- The events of the template with a style end with the tag of the slot. -/
lemma styledSlot_events : events styledSlot.text =
    [.comment ⟨4, 5⟩, .openName ⟨9, 14⟩, .openEnd 14, .close ⟨17, 22⟩, .text ⟨23, 24⟩] ++
      TagGroup.events ⟨⟨25, 29⟩, [], true, 30⟩ ++ [.finish] := by
  decide

/-- The only closing tag of the template with a style is plain. -/
lemma styledSlot_plainClosings : PlainClosings styledSlot (events styledSlot.text) := by
  have hclose : ∀ before span after, events styledSlot.text = before ++ .close span :: after →
      before = [.comment ⟨4, 5⟩, .openName ⟨9, 14⟩, .openEnd 14] ∧ span = ⟨17, 22⟩ := by
    rw [styledSlot_events]
    rintro (_ | ⟨_, _ | ⟨_, _ | ⟨_, _ | ⟨_, before⟩⟩⟩⟩) span after h
    · cases h
    · cases h
    · cases h
    · cases h
      exact ⟨rfl, rfl⟩
    · have htail : [.text ⟨23, 24⟩, .openName ⟨25, 29⟩, .selfClose 30, .finish] =
          before ++ .close span :: after := congrArg (List.drop 4) h
      have hmem : .close span ∈ before ++ .close span :: after := by simp
      simp [← htail] at hmem
  have hends : EndsRaw styledSlot [.comment ⟨4, 5⟩, .openName ⟨9, 14⟩, .openEnd 14] :=
    ⟨[.comment ⟨4, 5⟩], ⟨⟨9, 14⟩, [], false, 14⟩, none, rfl, by decide⟩
  constructor
  · intro before span after h _
    rwa [(hclose before span after h).1]
  · intro before span after h _
    rw [(hclose before span after h).2]
    decide

/-- The comment documents the slot and the component. -/
theorem adopted_comment_documents_slot :
    PlainClosings styledSlot (events styledSlot.text) ∧
    (∀ item ∈ (Visit.of styledSlot default (events styledSlot.text).dropLast).found.items,
      item.IsOfTag → item.Carries (Comment.parse ['a'] .public)) ∧
    ((default : Extraction).readMarkup styledSlot.text styledSlot.offset).1.overview? =
      some (Comment.parse ['a'] .public) := by
  have hadopted : Adopted styledSlot
      [.comment ⟨4, 5⟩, .openName ⟨9, 14⟩, .openEnd 14, .close ⟨17, 22⟩, .text ⟨23, 24⟩]
      ⟨4, 5⟩ := by
    have hstyle : (Block.element ⟨⟨9, 14⟩, [], false, 14⟩ none ⟨17, 22⟩).IsPassed styledSlot :=
      ⟨by decide, rfl⟩
    have hblank : (Block.single (.text ⟨23, 24⟩)).IsPassed styledSlot :=
      show isMarkupBlankText _ = true by decide
    exact ⟨[], [_, _], rfl, List.forall_mem_cons.2 ⟨hstyle, List.forall_mem_singleton.2 hblank⟩⟩
  have hslice : styledSlot.slice ⟨4, 5⟩ = ['a'] := by decide
  obtain ⟨hitems, hoverview, _⟩ :=
    adopted_comment_documents styledSlot default styledSlot_plainClosings
  refine ⟨styledSlot_plainClosings, ?_, ?_⟩
  · obtain ⟨new, hnew, hcarries⟩ := hitems _ _ _ styledSlot_events (by decide) (by decide)
    intro item hitem hown
    rw [styledSlot_events, List.dropLast_concat, hnew] at hitem
    rw [← hslice]
    exact (hcarries item hitem hown).1 ⟨4, 5⟩ hadopted .public
  · have hfirst : (Visit.of styledSlot default [.comment ⟨4, 5⟩, .openName ⟨9, 14⟩, .openEnd 14,
        .close ⟨17, 22⟩, .text ⟨23, 24⟩]).beforeFirst = true := by decide
    rw [← hslice]
    exact (hoverview rfl _).2 ⟨_, _, _, ⟨4, 5⟩, styledSlot_events,
      onlySkipped_of_beforeFirst hfirst, by decide, hadopted, rfl⟩

end Markup

end ComponentApi
