import ComponentApi.Proofs.Markup.Adoption
import ComponentApi.Proofs.Markup.Brackets
import ComponentApi.Proofs.Script.Sites
import ComponentApi.Proofs.Text.Slices

/-!
# The places of what the markup shows

The markup shows slots, attributes that are directives, and the calls in handlers. A slot has the
place of its tag with the brackets, an attribute that of its name. A handler is read as a script of
its own, which starts somewhere in the value of the attribute.

All of this belongs to a tag that is reported. `TagShows` collects what a tag can show, and
`readMarkup_extends` says that a template shows nothing else.
-/

namespace ComponentApi.Markup

open Text Extraction Script

/-! ### Where tags and attributes stand -/

section Spans

variable {template : List Char} {tag : TagGroup}

/-- An event that always covers something covers a part of the template that is not empty. -/
lemma exists_solid_slice {event : Event} {span : Span} (h : event ∈ events template)
    (hspan : event.extent? = some span) (hsolid : event.isSolid = true) :
    ∃ part, part ≠ [] ∧ span.slice? template = some part := by
  have hcovers := events_covers h hspan
  obtain ⟨part, hpart⟩ := exists_slice? hcovers.le hcovers.start hcovers.stop
  refine ⟨part, ?_, hpart⟩
  rintro rfl
  obtain ⟨before, after, _, hstart, hstop⟩ := slice?_eq_some_iff.1 hpart
  have hlt := hcovers.solid hsolid
  rw [byteLength_nil] at hstop
  omega

/-- The events of the attributes of a reported tag are reported. -/
lemma mem_of_attribute {attr : AttributeGroup} {event : Event}
    (htag : tag.events <:+: events template) (hattr : attr ∈ tag.attributes)
    (hevent : event ∈ attr.events) : event ∈ events template := by
  refine htag.subset ?_
  rw [TagGroup.events]
  exact List.mem_append_left _
    (List.mem_cons_of_mem _ (List.mem_flatMap.2 ⟨attr, hattr, hevent⟩))

/-- The names of the attributes of a reported tag are reported. -/
lemma attributeName_mem {attr : Attribute} (htag : tag.events <:+: events template)
    (hattr : attr ∈ tag.toTag.attributes) : .attributeName attr.name ∈ events template := by
  obtain ⟨group, hgroup, rfl⟩ := List.mem_map.1 hattr
  refine mem_of_attribute htag hgroup ?_
  cases group <;> exact List.mem_cons_self ..

/-- The values of the attributes of a reported tag are reported. -/
lemma attributeValue_mem {attr : Attribute} {value : Span} (htag : tag.events <:+: events template)
    (hattr : attr ∈ tag.toTag.attributes) (hvalue : attr.value? = some value) :
    .attributeValue value ∈ events template := by
  obtain ⟨group, hgroup, rfl⟩ := List.mem_map.1 hattr
  refine mem_of_attribute htag hgroup ?_
  cases group with
  | bare => cases hvalue
  | valued =>
    cases hvalue
    simp [AttributeGroup.events]

/-- A reported tag stops at a closing bracket. -/
lemma lastEvent_marked (htag : tag.events <:+: events template) :
    ∃ front back, template = front ++ '>' :: back ∧ tag.stop = byteLength front := by
  have hlast : tag.lastEvent ∈ tag.events := by simp [TagGroup.events]
  have hmarked := events_marked (htag.subset hlast)
  unfold TagGroup.lastEvent at hmarked
  split_ifs at hmarked <;> exact hmarked

/-- A tag ends behind its name. -/
lemma name_stop_le_stop (htag : tag.events <:+: events template) : tag.name.stop ≤ tag.stop := by
  obtain ⟨earlier, later, hevents⟩ := htag
  have hsplit : events template = (earlier ++ [.openName tag.name]) ++
      (tag.attributes.flatMap AttributeGroup.events ++ [tag.lastEvent] ++ later) := by
    rw [← hevents, TagGroup.events]
    simp
  have hextent : tag.lastEvent.extent? = some ⟨tag.stop, tag.stop⟩ := by
    unfold TagGroup.lastEvent
    split_ifs <;> rfl
  have hname : .openName tag.name ∈ earlier ++ [.openName tag.name] := by simp
  have hlast : tag.lastEvent ∈
      tag.attributes.flatMap AttributeGroup.events ++ [tag.lastEvent] ++ later := by simp
  exact stop_le_start hsplit hname hlast rfl hextent

/-- A tag stands between its brackets, and its name right behind the first of them. -/
lemma tag_slice (htag : tag.events <:+: events template) :
    ∃ inside, Span.slice? ⟨tag.name.start - 1, tag.stop + 1⟩ template =
      some ('<' :: (tag.name.slice template ++ (inside ++ ['>']))) := by
  have hname : .openName tag.name ∈ tag.events := by simp [TagGroup.events]
  obtain ⟨front, back, hopen, hstart⟩ := events_marked (htag.subset hname)
  obtain ⟨front', back', hclose, hstop⟩ := lastEvent_marked htag
  obtain ⟨name, _, hslice⟩ := exists_solid_slice (htag.subset hname) rfl rfl
  obtain ⟨before, after, htext, hbefore, hafter⟩ := slice?_eq_some_iff.1 hslice
  have hbracket : '<'.utf8Size = 1 := rfl
  have hbracket' : '>'.utf8Size = 1 := rfl
  -- The name starts behind the first bracket and stops before the last.
  obtain ⟨rest, hrest⟩ : ∃ rest, before = (front ++ ['<']) ++ rest := by
    have hsplit : (front ++ ['<']) ++ back = before ++ (name ++ after) := by
      rw [← htext, hopen, List.append_assoc, List.singleton_append]
    refine prefix_of_byteLength_le hsplit ?_
    rw [← hbefore, hstart, byteLength_append]
    rfl
  obtain ⟨inside, hinside⟩ : ∃ inside, front' = (before ++ name) ++ inside := by
    have hsplit : (before ++ name) ++ after = front' ++ '>' :: back' := by
      rw [← hclose, htext, List.append_assoc]
    refine prefix_of_byteLength_le hsplit ?_
    rw [byteLength_append, ← hafter, ← hstop]
    exact name_stop_le_stop htag
  have hempty : rest = [] := by
    apply eq_nil_of_byteLength_eq_zero
    have hlength := congrArg byteLength hrest
    simp only [byteLength_append, byteLength_cons, byteLength_nil] at hlength
    omega
  subst hempty
  refine ⟨inside, slice?_eq_some_iff.2 ⟨front, back', ?_, ?_, ?_⟩⟩
  · rw [Span.slice, hslice, hclose, hinside, hrest]
    simp
  · dsimp only
    omega
  · have hlength := congrArg byteLength hinside
    have hlength' := congrArg byteLength hrest
    simp only [byteLength_append, byteLength_cons, byteLength_nil] at hlength hlength'
    simp only [Span.slice, hslice, Option.getD_some, byteLength_append, byteLength_cons,
      byteLength_nil]
    omega

end Spans

/-! ### What a tag shows -/

/-- The category of what a directive shows. -/
def Directive.category : Directive → Category
  | .reference => .refs
  | .bind _ => .data
  | .on _ => .events
  | .use _ => .actions

/-- The item is that of a slot. -/
structure ShowsSlot (template : Template) (tag : TagGroup) (item : Item) : Prop where
  name : template.slice tag.name = "slot".toList
  category : item.category = .slots
  locations : item.locations = [template.location ⟨tag.name.start - 1, tag.stop + 1⟩]

/-- The item is that of an attribute, which is a directive. -/
structure ShowsDirective (template : Template) (attr : Attribute) (directive : Directive)
    (item : Item) : Prop where
  name : Directive.ofName? (template.slice attr.name) = some directive
  category : item.category = directive.category
  locations : item.locations = [template.location attr.name]

/-- The expression is that of a handler in the tag, and it starts at the position. -/
def HasHandler (template : Template) (tag : TagGroup) (expression : List Char) (start : Nat) :
    Prop :=
  ∃ attr ∈ tag.toTag.attributes, ∃ event value,
    Directive.ofName? (template.slice attr.name) = some (.on event) ∧ attr.value? = some value ∧
      handler? template value attr.quote = some (expression, start)

/-- The expression of a handler stands in the template where it is said to start, and something
stands before it. -/
lemma HasHandler.text_eq {template : Template} {tag : TagGroup} {expression : List Char}
    {start : Nat} (h : HasHandler template tag expression start)
    (htag : tag.events <:+: events template.text) :
    0 < start ∧ ∃ front back, template.text = front ++ (expression ++ back) ∧
      byteLength front = start := by
  obtain ⟨attr, hattr, event, value, _, hvalue, hhandler⟩ := h
  have hmem := attributeValue_mem htag hattr hvalue
  have hpos := attributeValue_start_pos hmem
  obtain ⟨text, _, htext⟩ := exists_solid_slice hmem rfl rfl
  obtain ⟨front, back, hfront, hstart, _⟩ := slice?_eq_some_iff.1 htext
  obtain ⟨before, after, hbefore, hlength⟩ := stripMustache_append text
  have hslice : template.slice value = text := by
    rw [Template.slice, Span.slice, htext]
    rfl
  unfold handler? at hhandler
  simp only [hslice, Option.ite_none_right_eq_some, Option.some.injEq, Prod.mk.injEq] at hhandler
  obtain ⟨_, rfl, rfl⟩ := hhandler
  refine ⟨by omega, front ++ before, after ++ back, ?_, ?_⟩
  · rw [hfront]
    conv_lhs => rw [hbefore]
    simp
  · rw [byteLength_append, hlength, hstart]

/-- All that a tag can show has the property. -/
structure TagShows (template : Template) (P : Item → List Diagnostic → Prop) (tag : TagGroup) :
    Prop where
  slot : ∀ item, ShowsSlot template tag item → P item []
  directive : ∀ attr ∈ tag.toTag.attributes, ∀ directive item,
    ShowsDirective template attr directive item → P item []
  handler : ∀ expression start, HasHandler template tag expression start →
    ∀ e, parseExpression? (Excerpt.ofInline expression (template.offset + start)).text = some e →
      ∀ call ∈ e.calls, call.Shows (.ofInline expression (template.offset + start)) P

section Tags

variable {template : Template} {P : Item → List Diagnostic → Prop} {comment? : Option Span}
  {found next : Extraction}

/-- What an attribute shows is among what its tag can show. -/
lemma extractAttribute_extends {tag : TagGroup} {name : List Char} {attr : Attribute}
    (hshows : TagShows template P tag) (hattr : attr ∈ tag.toTag.attributes)
    (h : extractAttribute template comment? name found attr = .ok next) :
    Extends P found next := by
  have hshown := hshows.directive attr hattr
  unfold extractAttribute at h
  split at h
  · next hname =>
    cases h
    unfold extractReference
    split
    · exact .emit (hshown _ _ ⟨hname, rfl, rfl⟩) found
    · exact .refl found
  · next property hname =>
    cases h
    unfold extractBinding
    split_ifs
    · exact .refl found
    · exact .emit (hshown _ _ ⟨hname, rfl, rfl⟩) found
  · next event hname =>
    split at h
    · next value hvalue =>
      unfold extractHandler at h
      split at h
      · next expression start hhandler =>
        have hhas : HasHandler template tag expression start :=
          ⟨attr, hattr, event, value, hname, hvalue, hhandler⟩
        exact readInline_extends (hshows.handler expression start hhas) h
      · cases h
        exact .refl _
    · cases h
      unfold extractForwarded
      split
      · exact .refl found
      · exact .refl found
      · dsimp only
        split_ifs
        · exact .refl found
        · exact .trans (.of_eq rfl rfl) (.emit (hshown _ _ ⟨hname, rfl, rfl⟩) _)
  · next action hname =>
    cases h
    unfold extractAction
    split_ifs
    · exact .refl found
    · exact .emit (hshown _ _ ⟨hname, rfl, rfl⟩) found
  · cases h
    exact .refl _

/-- What some attributes of a tag show is among what the tag can show. -/
lemma extractAttributes_extends {tag : TagGroup} {name : List Char}
    (hshows : TagShows template P tag) {attributes : List Attribute}
    (hattributes : attributes ⊆ tag.toTag.attributes) :
    Extends P found (extractAttributes template comment? name found attributes).1 := by
  induction attributes generalizing found with
  | nil => exact .refl found
  | cons attr rest ih =>
    obtain ⟨hattr, hrest⟩ := List.cons_subset.1 hattributes
    unfold extractAttributes
    split
    · next hnext => exact (extractAttribute_extends hshows hattr hnext).trans (ih hrest)
    · exact .refl found

/-- What is found in a tag is among what the tag can show. -/
lemma extractTag_extends {tag : TagGroup} (hshows : TagShows template P tag) :
    Extends P found (extractTag template comment? tag.toTag tag.stop found).1 := by
  unfold extractTag
  dsimp only
  refine .trans ?_ (extractAttributes_extends hshows (List.Subset.refl _))
  split_ifs with hname
  · exact .emit (hshows.slot _ ⟨eq_of_beq hname, rfl, rfl⟩) found
  · exact .refl found

/-- What a visit finds by reading a tag is among what the tag can show. -/
lemma readTag_extends {tag : TagGroup} (hshows : TagShows template P tag) (visit : Visit) :
    Extends P visit.found (visit.readTag template tag.toTag tag.stop).found := by
  unfold Visit.readTag
  split_ifs
  · exact .refl _
  · have hoverview :
        Extends P visit.found (extractOverview template visit.comment? visit.found) := by
      unfold extractOverview
      split_ifs
      · exact .of_eq rfl rfl
      · exact .refl _
    exact hoverview.trans (extractTag_extends hshows)
  · exact extractTag_extends hshows

/-! ### Templates -/

/-- What a visit finds in a group is among what its tag can show, if it is one. -/
lemma foldl_group_extends {group : Group}
    (hshows : ∀ tag, group = .tag tag → TagShows template P tag) (visit : Visit) :
    Extends P visit.found (group.events.foldl (Visit.step template) visit).found := by
  cases group with
  | tag opening =>
    cases hskipped : Visit.isSkipped (template.slice opening.name) with
    | true =>
      obtain ⟨pending?, htag⟩ := foldl_step_skipped template visit opening hskipped
      rw [Group.events, htag]
      exact .refl _
    | false =>
      obtain ⟨pending?, htag⟩ := foldl_step_read template visit opening hskipped
      rw [Group.events, htag]
      exact readTag_extends (hshows opening rfl) _
  | text | close =>
    simp only [Group.events, List.foldl_cons, List.foldl_nil, Visit.step]
    split_ifs <;> exact .refl _
  | mustache | comment => exact .refl _

/-- What a visit finds in groups is among what the tags in them can show. -/
lemma foldl_groups_extends {groups : List Group}
    (hshows : ∀ tag, .tag tag ∈ groups → TagShows template P tag) (visit : Visit) :
    Extends P visit.found
      ((groups.flatMap Group.events).foldl (Visit.step template) visit).found := by
  induction groups generalizing visit with
  | nil => exact .refl _
  | cons group rest ih =>
    rw [List.flatMap_cons, List.foldl_append]
    have hgroup : ∀ tag, group = .tag tag → TagShows template P tag :=
      fun tag htag => hshows tag (by simp [htag])
    refine .trans (foldl_group_extends hgroup visit) (ih ?_ _)
    exact fun tag htag => hshows tag (List.mem_cons_of_mem _ htag)

/-- Whether the event can stand behind the last whole group: in a tag that is cut, or at the end. -/
def Event.isLoose : Event → Bool
  | .openName _ | .attributeName _ | .attributeValue _ | .attributeEnd _ _ | .finish => true
  | _ => false

/-- No tag ends in loose events. -/
lemma Event.not_endsTag_of_isLoose {event : Event} (h : event.isLoose = true) :
    event.endsTag = false := by
  cases event <;> first | rfl | cases h

/-- The events of an attribute are loose. -/
lemma AttributeGroup.isLoose {attr : AttributeGroup} {event : Event} (h : event ∈ attr.events) :
    event.isLoose = true := by
  cases attr with
  | bare =>
    simp only [AttributeGroup.events, List.mem_cons, List.not_mem_nil, or_false] at h
    rcases h with rfl | rfl <;> rfl
  | valued =>
    simp only [AttributeGroup.events, List.mem_cons, List.not_mem_nil, or_false] at h
    rcases h with rfl | rfl | rfl <;> rfl

/-- The events of a tag that is cut are loose. -/
lemma TagGroup.IsCut.isLoose {tag : TagGroup} {cut : List Event} (h : tag.IsCut cut)
    {event : Event} (hevent : event ∈ cut) : event.isLoose = true := by
  obtain ⟨_, more, htag, hmore⟩ := h
  obtain ⟨more, last, rfl⟩ := (List.eq_nil_or_concat more).resolve_left hmore
  rw [TagGroup.events, List.concat_eq_append, ← List.append_assoc] at htag
  have hmem : event ∈ .openName tag.name :: tag.attributes.flatMap AttributeGroup.events := by
    rw [(List.append_inj' htag rfl).1]
    exact List.mem_append_left _ hevent
  rcases List.mem_cons.1 hmem with rfl | hmem
  · rfl
  · obtain ⟨attr, _, hattr⟩ := List.mem_flatMap.1 hmem
    exact AttributeGroup.isLoose hattr

/-- Where no tag ends, nothing is found. -/
lemma found_foldl_of_not_endsTag {events : List Event}
    (h : ∀ event ∈ events, event.endsTag = false) (visit : Visit) :
    (events.foldl (Visit.step template) visit).found = visit.found := by
  induction events generalizing visit with
  | nil => rfl
  | cons event rest ih =>
    obtain ⟨hevent, hrest⟩ := List.forall_mem_cons.1 h
    obtain hquiet | ⟨hends, _⟩ := step_cases template visit event
    · exact (ih hrest _).trans hquiet.found
    · cases hevent.symm.trans hends

/-- The events of a template, up to any of them, are groups one after the other and loose events
behind them. -/
lemma exists_groups {template : List Char} {earlier later : List Event}
    (h : events template = earlier ++ later) :
    ∃ (groups : List Group) (rest : List Event),
      earlier = groups.flatMap Group.events ++ rest ∧ ∀ event ∈ rest, event.isLoose = true := by
  obtain ⟨entries, mode, place, htrace, hfollows, _⟩ := trace_follows template
  have hentries : events template = entries.map Prod.snd ++ [.finish] := by
    rw [← trace_map_snd, htrace, List.map_append]
    rfl
  obtain rfl | ⟨later, last, rfl⟩ := List.eq_nil_or_concat later
  · -- All events: the end stands behind them.
    obtain ⟨groups, cut, hgroups, hcut⟩ := hfollows.arranged.groups
    refine ⟨groups, cut ++ [.finish], ?_, ?_⟩
    · rw [← List.append_nil earlier, ← h, hentries, hgroups, List.append_assoc]
    · intro event hevent
      obtain hevent | hevent := List.mem_append.1 hevent
      · obtain ⟨_, rfl⟩ | ⟨_, tag, htag⟩ := hcut
        · cases hevent
        · exact htag.isLoose hevent
      · cases List.mem_singleton.1 hevent
        rfl
  · have hsplit : earlier ++ later = entries.map Prod.snd := by
      rw [hentries, List.concat_eq_append, ← List.append_assoc] at h
      exact (List.append_inj' h rfl).1.symm
    obtain ⟨before, behind, rfl, rfl, _⟩ := List.map_eq_append_iff.1 hsplit.symm
    obtain ⟨middle, hbefore, _⟩ := hfollows.of_append
    obtain ⟨groups, cut, hgroups, hcut⟩ := hbefore.arranged.groups
    refine ⟨groups, cut, hgroups, fun event hevent => ?_⟩
    obtain ⟨_, rfl⟩ | ⟨_, tag, htag⟩ := hcut
    · cases hevent
    · exact htag.isLoose hevent

/-- A template shows what the tags in it show. -/
lemma readMarkup_extends (template : Template)
    (hshows : ∀ tag : TagGroup, tag.events <:+: events template.text → TagShows template P tag)
    (found : Extraction) :
    Extends P found (found.readMarkup template.text template.offset).1 := by
  obtain ⟨groups, rest, hevents, hloose⟩ :=
    exists_groups (List.append_nil (events template.text)).symm
  have hrest : ∀ event ∈ rest, event.endsTag = false :=
    fun event hevent => Event.not_endsTag_of_isLoose (hloose event hevent)
  have htags : ∀ tag, .tag tag ∈ groups → TagShows template P tag := by
    intro tag htag
    obtain ⟨before, after, rfl⟩ := List.append_of_mem htag
    refine hshows tag ⟨before.flatMap Group.events, after.flatMap Group.events ++ rest, ?_⟩
    rw [hevents]
    simp [Group.events]
  unfold Extraction.readMarkup
  rw [hevents, List.foldl_append]
  refine .trans (foldl_groups_extends htags { found }) (.of_eq ?_ ?_)
  · exact congrArg Extraction.items (found_foldl_of_not_endsTag hrest _)
  · exact congrArg Extraction.diagnostics (found_foldl_of_not_endsTag hrest _)

end Tags

end ComponentApi.Markup
