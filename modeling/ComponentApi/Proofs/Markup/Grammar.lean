import Mathlib.Data.List.Infix
import ComponentApi.Proofs.Markup.Places

/-!
# The grammar of events

The events of a template come in groups: a text, an expression in braces, a comment, a closing tag,
or an opening tag with its attributes. The types of the groups carry what an attribute may report:
it has at most one value, a value is delimited somehow, and braces hold a value.

Groups that belong together make a block: the content of an element with raw text and its closing
tag come right behind its opening tag. `Arranged` says that events which lead to a place are blocks,
and a part of one more block. The main statement is that the events of every template are groups one
after the other, the last of which the end of the template may cut, and then the end.
-/

namespace ComponentApi.Markup

open Text

/-! ### Groups -/

/-- The events of an attribute. -/
inductive AttributeGroup where
  /-- No value is reported: there is none, or it is empty. -/
  | bare (name : Span) (quote : Quote) (stop : Nat) (plain : quote ≠ .brace)
  | valued (name value : Span) (quote : Quote) (stop : Nat) (delimited : quote ≠ .noValue)

/-- The events of the group of an attribute, in their order. -/
def AttributeGroup.events : AttributeGroup → List Event
  | .bare name quote stop _ => [.attributeName name, .attributeEnd quote stop]
  | .valued name value quote stop _ =>
    [.attributeName name, .attributeValue value, .attributeEnd quote stop]

/-- The events of an opening tag. -/
structure TagGroup where
  name : Span
  attributes : List AttributeGroup
  selfClosing : Bool
  stop : Nat

namespace TagGroup

/-- The event that closes the group of an opening tag. -/
def lastEvent (tag : TagGroup) : Event :=
  if tag.selfClosing then .selfClose tag.stop else .openEnd tag.stop

/-- The events of the group of a tag: its name, its attributes and its end. -/
def events (tag : TagGroup) : List Event :=
  .openName tag.name :: tag.attributes.flatMap AttributeGroup.events ++ [tag.lastEvent]

/-- The events are the start of the group, up to some point before its last event. -/
def IsCut (tag : TagGroup) (events : List Event) : Prop :=
  events ≠ [] ∧ ∃ more, tag.events = events ++ more ∧ more ≠ []

/-- Whether the content of the tag is raw text. -/
def opensRaw (tag : TagGroup) (template : List Char) : Bool :=
  isRawTextTag (tag.name.slice template) && !tag.selfClosing

end TagGroup

/-- Events that come together. -/
inductive Group where
  | text (span : Span)
  | mustache (span : Span)
  | comment (span : Span)
  | close (span : Span)
  | tag (opening : TagGroup)

/-- The events of a group. -/
def Group.events : Group → List Event
  | .text span => [.text span]
  | .mustache span => [.mustache span]
  | .comment span => [.comment span]
  | .close span => [.close span]
  | .tag opening => opening.events

/-- Groups that belong together. -/
inductive Block where
  | single (group : Group)
  /-- An element with its content, if there is any, and its closing tag. -/
  | element (tag : TagGroup) (content? : Option Span) (closing : Span)

namespace Block

/-- The groups that a block is made of. -/
def groups : Block → List Group
  | .single group => [group]
  | .element tag content? closing => .tag tag :: content?.toList.map .text ++ [.close closing]

/-- The events of a block. -/
def events (block : Block) : List Event :=
  block.groups.flatMap Group.events

/-- A block of one group has the events of the group. -/
@[simp] lemma events_single (group : Group) : (single group).events = group.events := by
  simp [events, groups]

/-- An element has the events of its tag, its content and its closing tag. -/
@[simp] lemma events_element (tag : TagGroup) (content? : Option Span) (closing : Span) :
    (element tag content? closing).events =
      tag.events ++ (content?.map .text).toList ++ [.close closing] := by
  cases content? <;> simp [events, groups, Group.events]

/-- Only an element with raw text is a block of several groups, and it is one. Its closing tag has
the name of such an element, up to a slash. -/
def Fits (template : List Char) : Block → Prop
  | .single (.tag tag) => tag.opensRaw template = false
  | .single _ => True
  | .element tag _ closing => tag.opensRaw template = true ∧
    isRawTextTag (closingName (closing.slice template)) = true

end Block

/-! ### Arranged events -/

/-- The events lead to the place and are blocks, up to where the place is in a block. -/
inductive Arranged (template : List Char) : Place → List Event → Prop
  | outside (blocks : List Block) (hfits : ∀ block ∈ blocks, block.Fits template) :
      Arranged template .outside (blocks.flatMap Block.events)
  | tag (blocks : List Block) (name : Span) (attributes : List AttributeGroup)
      (hfits : ∀ block ∈ blocks, block.Fits template) :
      Arranged template (.tag name) (blocks.flatMap Block.events ++
        .openName name :: attributes.flatMap AttributeGroup.events)
  | named (blocks : List Block) (name : Span) (attributes : List AttributeGroup) (span : Span)
      (hfits : ∀ block ∈ blocks, block.Fits template) :
      Arranged template (.named name) (blocks.flatMap Block.events ++
        .openName name :: attributes.flatMap AttributeGroup.events ++ [.attributeName span])
  | valued (blocks : List Block) (name : Span) (attributes : List AttributeGroup)
      (span value : Span) (hfits : ∀ block ∈ blocks, block.Fits template) :
      Arranged template (.valued name) (blocks.flatMap Block.events ++
        .openName name :: attributes.flatMap AttributeGroup.events ++
          [.attributeName span, .attributeValue value])
  | raw (blocks : List Block) (tag : TagGroup) (hfits : ∀ block ∈ blocks, block.Fits template)
      (hraw : tag.opensRaw template = true) :
      Arranged template (.raw tag.name) (blocks.flatMap Block.events ++ tag.events)
  | rawEnd (blocks : List Block) (tag : TagGroup) (content : Span)
      (hfits : ∀ block ∈ blocks, block.Fits template) (hraw : tag.opensRaw template = true) :
      Arranged template (.rawEnd tag.name)
        (blocks.flatMap Block.events ++ tag.events ++ [.text content])

namespace Arranged

variable {template : List Char} {place next : Place} {events : List Event} {blocks : List Block}

/-- One block more leads outside of tags again. -/
lemma snoc (block : Block) (hfits : ∀ block ∈ blocks, block.Fits template)
    (hblock : block.Fits template) :
    Arranged template .outside (blocks.flatMap Block.events ++ block.events) := by
  have hall : ∀ b ∈ blocks ++ [block], b.Fits template := by
    intro b hb
    rcases List.mem_append.1 hb with hb | hb
    · exact hfits b hb
    · cases List.mem_singleton.1 hb
      exact hblock
  have h := Arranged.outside (blocks ++ [block]) hall
  rwa [List.flatMap_append, List.flatMap_singleton] at h

/-- Behind one attribute more, the place is between the attributes of the tag again. -/
lemma endAttribute (name : Span) (attributes : List AttributeGroup) (last : AttributeGroup)
    (hfits : ∀ block ∈ blocks, block.Fits template) :
    Arranged template (.tag name) (blocks.flatMap Block.events ++
      .openName name :: attributes.flatMap AttributeGroup.events ++ last.events) := by
  have h := Arranged.tag blocks name (attributes ++ [last]) hfits
  simpa using h

/-- An event that leads on from the place keeps the events arranged. -/
lemma step {mode : Mode} {event : Event} (h : Arranged template place events)
    (hnext : Next template place (mode, event) next) :
    Arranged template next (events ++ [event]) := by
  cases hnext with
  | text =>
    obtain ⟨blocks, hfits⟩ := h
    exact snoc (.single (.text _)) hfits trivial
  | mustache =>
    obtain ⟨blocks, hfits⟩ := h
    exact snoc (.single (.mustache _)) hfits trivial
  | comment =>
    obtain ⟨blocks, hfits⟩ := h
    exact snoc (.single (.comment _)) hfits trivial
  | close =>
    obtain ⟨blocks, hfits⟩ := h
    exact snoc (.single (.close _)) hfits trivial
  | openName =>
    obtain ⟨blocks, hfits⟩ := h
    exact .tag blocks _ [] hfits
  | attributeName =>
    cases h with
    | tag blocks _ attributes hfits => exact .named blocks _ attributes _ hfits
  | @attributeValue _ name value =>
    cases h with
    | named blocks _ attributes span hfits =>
      have hvalued := Arranged.valued blocks name attributes span value hfits
      simpa using hvalued
  | @bareEnd _ name quote position hquote =>
    cases h with
    | named blocks _ attributes span hfits =>
      have htag := endAttribute name attributes (.bare span quote position hquote) hfits
      simpa [AttributeGroup.events] using htag
  | @valueEnd _ name quote position hquote =>
    cases h with
    | valued blocks _ attributes span value hfits =>
      have htag := endAttribute name attributes (.valued span value quote position hquote) hfits
      simpa [AttributeGroup.events] using htag
  | @openEnd _ name position =>
    cases h with
    | tag blocks _ attributes hfits =>
      let tag : TagGroup := ⟨name, attributes, false, position⟩
      have hevents : blocks.flatMap Block.events ++
          .openName name :: attributes.flatMap AttributeGroup.events ++ [.openEnd position] =
            blocks.flatMap Block.events ++ tag.events := by
        simp [tag, TagGroup.events, TagGroup.lastEvent]
      rw [hevents, Place.content]
      split_ifs with hraw
      · exact .raw blocks tag hfits (by simp [TagGroup.opensRaw, tag, hraw])
      · have hsingle := snoc (.single (.tag tag)) hfits
          (by simp [Block.Fits, TagGroup.opensRaw, tag, hraw])
        simpa [Group.events] using hsingle
  | @selfClose _ name position =>
    cases h with
    | tag blocks _ attributes hfits =>
      let tag : TagGroup := ⟨name, attributes, true, position⟩
      have hsingle := snoc (.single (.tag tag)) hfits (by simp [Block.Fits, TagGroup.opensRaw, tag])
      simpa [Group.events, tag, TagGroup.events, TagGroup.lastEvent] using hsingle
  | rawText =>
    cases h with
    | raw blocks tag hfits hraw => exact .rawEnd blocks tag _ hfits hraw
  | @rawClose _ _ _ span hplace hname =>
    rcases hplace with rfl | rfl
    · cases h with
      | raw blocks tag hfits hraw =>
        have helement := snoc (.element tag none span) hfits ⟨hraw, hname⟩
        simpa using helement
    · cases h with
      | rawEnd blocks tag content hfits hraw =>
        have helement := snoc (.element tag (some content) span) hfits ⟨hraw, hname⟩
        simpa using helement

/-- Events that lead on from the place keep the events arranged. -/
lemma follows {first last : Place} {entries : List (Mode × Event)}
    (h : Arranged template first events) (hfollows : Follows template first entries last) :
    Arranged template last (events ++ entries.map Prod.snd) := by
  induction hfollows generalizing events with
  | nil => simpa using h
  | cons hnext _ ih => simpa using ih (h.step hnext)

end Arranged

/-- Events that lead from outside of tags to a place are arranged. -/
lemma Follows.arranged {template : List Char} {place : Place} {entries : List (Mode × Event)}
    (h : Follows template .outside entries place) :
    Arranged template place (entries.map Prod.snd) :=
  (Arranged.outside [] (by simp)).follows h

/-- Where an event of a template comes next, the events before it are arranged. -/
lemma exists_arranged {template : List Char} {earlier later : List Event} {event : Event}
    (h : events template = earlier ++ event :: later) (hevent : event ≠ .finish) :
    ∃ place mode next, Arranged template place earlier ∧
      Next template place (mode, event) next := by
  rw [← trace_map_snd] at h
  obtain ⟨before, behind, htrace, rfl, hbehind⟩ := List.map_eq_append_iff.1 h
  obtain ⟨⟨mode, event⟩, after, rfl, rfl, _⟩ := List.map_eq_cons_iff.1 hbehind
  obtain ⟨place, next, hfollows, hnext⟩ := exists_next htrace hevent
  exact ⟨place, mode, next, hfollows.arranged, hnext⟩

/-- Whether the event ends an opening tag. -/
def Event.endsTag : Event → Bool
  | .openEnd _ | .selfClose _ => true
  | _ => false

/-- Where an opening tag ends, the events are blocks and the group of the tag up to its last
event. -/
lemma Arranged.endTag {template : List Char} {place next : Place} {events : List Event}
    {mode : Mode} {event : Event} (h : Arranged template place events)
    (hnext : Next template place (mode, event) next) (hevent : event.endsTag = true) :
    ∃ (blocks : List Block) (tag : TagGroup) (front : List Event),
      events = blocks.flatMap Block.events ++ front ∧ tag.events = front ++ [event] := by
  cases hnext with
  | @openEnd _ name position =>
    cases h with
    | tag blocks _ attributes =>
      exact ⟨blocks, ⟨name, attributes, false, position⟩, _, rfl, rfl⟩
  | @selfClose _ name position =>
    cases h with
    | tag blocks _ attributes =>
      exact ⟨blocks, ⟨name, attributes, true, position⟩, _, rfl, rfl⟩
  | _ => cases hevent

/-- In front of an opening tag stand blocks. -/
lemma exists_blocks {template : List Char} {earlier later : List Event} {tag : TagGroup}
    (h : events template = earlier ++ tag.events ++ later) :
    ∃ blocks : List Block, (∀ block ∈ blocks, block.Fits template) ∧
      earlier = blocks.flatMap Block.events := by
  rw [TagGroup.events, List.cons_append, List.append_assoc, List.cons_append] at h
  obtain ⟨place, mode, next, harranged, hnext⟩ := exists_arranged h nofun
  cases hnext with
  | openName =>
    cases harranged with
    | outside blocks hfits => exact ⟨blocks, hfits, rfl⟩

/-! ### Words of the grammar -/

/-- The groups of blocks have the events of the blocks. -/
lemma flatMap_groups (blocks : List Block) :
    (blocks.flatMap Block.groups).flatMap Group.events = blocks.flatMap Block.events :=
  List.flatMap_assoc

/-- Arranged events are groups one after the other, and the start of the tag they lead into. -/
lemma Arranged.groups {template : List Char} {place : Place} {events : List Event}
    (h : Arranged template place events) :
    ∃ (groups : List Group) (cut : List Event), events = groups.flatMap Group.events ++ cut ∧
      ((place.isInTag = false ∧ cut = []) ∨
        (place.isInTag = true ∧ ∃ tag : TagGroup, tag.IsCut cut)) := by
  cases h with
  | outside blocks =>
    exact ⟨blocks.flatMap Block.groups, [], by simp [flatMap_groups], .inl ⟨rfl, rfl⟩⟩
  | tag blocks name attributes =>
    -- The group that is cut can be completed anyhow.
    refine ⟨blocks.flatMap Block.groups, _, by rw [flatMap_groups], .inr ⟨rfl, ?_⟩⟩
    refine ⟨⟨name, attributes, false, 0⟩, by simp, [.openEnd 0], ?_, by simp⟩
    simp [TagGroup.events, TagGroup.lastEvent]
  | named blocks name attributes span =>
    refine ⟨blocks.flatMap Block.groups, _, by rw [flatMap_groups, List.append_assoc],
      .inr ⟨rfl, ?_⟩⟩
    refine ⟨⟨name, attributes ++ [.bare span .noValue 0 nofun], false, 0⟩, by simp,
      [.attributeEnd .noValue 0, .openEnd 0], ?_, by simp⟩
    simp [TagGroup.events, TagGroup.lastEvent, AttributeGroup.events]
  | valued blocks name attributes span value =>
    refine ⟨blocks.flatMap Block.groups, _, by rw [flatMap_groups, List.append_assoc],
      .inr ⟨rfl, ?_⟩⟩
    refine ⟨⟨name, attributes ++ [.valued span value .double 0 nofun], false, 0⟩, by simp,
      [.attributeEnd .double 0, .openEnd 0], ?_, by simp⟩
    simp [TagGroup.events, TagGroup.lastEvent, AttributeGroup.events]
  | raw blocks tag =>
    refine ⟨blocks.flatMap Block.groups ++ [.tag tag], [], ?_, .inl ⟨rfl, rfl⟩⟩
    simp [flatMap_groups, Group.events]
  | rawEnd blocks tag content =>
    refine ⟨blocks.flatMap Block.groups ++ [.tag tag, .text content], [], ?_, .inl ⟨rfl, rfl⟩⟩
    simp [flatMap_groups, Group.events]

/-- The end of a template is no event of a tag. -/
lemma TagGroup.finish_notMem_events (tag : TagGroup) : .finish ∉ tag.events := by
  have hattribute : ∀ attr : AttributeGroup, .finish ∉ attr.events := by
    intro attr
    cases attr <;> simp [AttributeGroup.events]
  have hlast : tag.lastEvent ≠ .finish := by
    unfold TagGroup.lastEvent
    split_ifs <;> simp
  simp [TagGroup.events, hattribute, hlast.symm]

/-- The end of a template is no event of a group. -/
lemma Group.finish_notMem_events (group : Group) : .finish ∉ group.events := by
  cases group with
  | tag opening => exact opening.finish_notMem_events
  | _ => simp [Group.events]

/-- The events of a template are groups one after the other, and then the end, which is reported
once. If the template ends in an opening tag, behind its name, then the start of the group of that
tag, up to some point before its last event, stands before the end. -/
theorem events_grammar (template : List Char) :
    ∃ (groups : List Group) (cut : List Event) (mode : Mode),
      events template = groups.flatMap Group.events ++ cut ++ [.finish] ∧
      .finish ∉ groups.flatMap Group.events ++ cut ∧
      (trace template).getLast? = some (mode, .finish) ∧
      ((mode.isInTag = false ∧ cut = []) ∨
        (mode.isInTag = true ∧ ∃ tag : TagGroup, tag.IsCut cut)) := by
  obtain ⟨entries, mode, place, htrace, hfollows, hplace⟩ := trace_follows template
  obtain ⟨groups, cut, hevents, hcut⟩ := hfollows.arranged.groups
  refine ⟨groups, cut, mode, ?_, ?_, ?_, ?_⟩
  · rw [← trace_map_snd, htrace, List.map_append, hevents]
    rfl
  · have hgroups : .finish ∉ groups.flatMap Group.events := by
      simp [Group.finish_notMem_events]
    have hcut : .finish ∉ cut := by
      rcases hcut with ⟨_, rfl⟩ | ⟨_, tag, _, more, htag, _⟩
      · simp
      · intro hmem
        exact tag.finish_notMem_events (htag ▸ List.mem_append_left more hmem)
    simp [hgroups, hcut]
  · rw [htrace, List.getLast?_concat]
  · rwa [hplace] at hcut

/-- A stray slash, a value that is missing, and a tag that the template ends in. -/
example : events "<a / b=><c d=\"".toList =
    [.openName ⟨1, 2⟩, .attributeName ⟨5, 6⟩, .attributeEnd .unquoted 7, .openEnd 7,
      .openName ⟨9, 10⟩, .attributeName ⟨11, 12⟩, .finish] := by
  decide

end ComponentApi.Markup
