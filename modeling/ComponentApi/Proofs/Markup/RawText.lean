import ComponentApi.Markup.Reading
import ComponentApi.Proofs.Markup.Grammar

/-!
# Raw text in a visit

A visit takes the events of a template one by one, and it keeps a flag of its own that says whether
the text it meets is the content of an element with raw text. The scanner knows this too, by its
mode. Both agree in such an element. They can part at its end: the scanner leaves raw text at a
closing tag whose name is followed by a slash, but then the slash belongs to the name that is
reported, and the flag stays. `LeftOpen` says where the flag is still set for this reason, and the
main statement is that the visit tells raw text from other text exactly if no other text stands at
such a place.

A visit is followed group by group: `foldl_step_skipped` and `foldl_step_read` say what the events
of an opening tag do to it, and `Group.rawText?` what a group does to the flag.
-/

namespace ComponentApi.Markup

open Text

/-! ### Visits of groups -/

/-- The visit of events, when something was found before. -/
def Visit.of (template : Template) (found : Extraction) (events : List Event) : Visit :=
  events.foldl (Visit.step template) { found }

/-- The attribute that a group reports. -/
def AttributeGroup.toAttribute : AttributeGroup → Attribute
  | .bare name quote _ _ => { name, quote }
  | .valued name value quote _ _ => { name, value? := some value, quote }

/-- The tag that a group reports. -/
def TagGroup.toTag (tag : TagGroup) : Tag :=
  ⟨tag.name, tag.attributes.map AttributeGroup.toAttribute⟩

section Groups

variable (template : Template) (visit : Visit)

/-- The events of an attribute add it to the tag that is being gathered. -/
lemma foldl_step_attribute (tag : Tag) (attr : AttributeGroup) :
    attr.events.foldl (Visit.step template) { visit with tag? := some tag } =
      { visit with
        tag? := some { tag with attributes := tag.attributes ++ [attr.toAttribute] }
        pending? := none } := by
  cases attr <;> rfl

/-- The events of attributes add them to the tag that is being gathered. -/
lemma foldl_step_attributes (tag : Tag) (attributes : List AttributeGroup) :
    ∃ pending?, (attributes.flatMap AttributeGroup.events).foldl (Visit.step template)
        { visit with tag? := some tag } =
      { visit with
        tag? := some
          { tag with attributes := tag.attributes ++ attributes.map AttributeGroup.toAttribute }
        pending? } := by
  induction attributes generalizing visit tag with
  | nil => exact ⟨visit.pending?, by simp⟩
  | cons attr attributes ih =>
    obtain ⟨pending?, hrest⟩ := ih { visit with pending? := none }
      { tag with attributes := tag.attributes ++ [attr.toAttribute] }
    refine ⟨pending?, ?_⟩
    rw [List.flatMap_cons, List.foldl_append, foldl_step_attribute, hrest]
    simp

/-- The events of a tag gather the tag, and the last of them ends it. -/
lemma foldl_step_tag (tag : TagGroup) :
    ∃ pending?, tag.events.foldl (Visit.step template) visit =
      Visit.endTag { visit with tag? := some tag.toTag, pending? } template tag.stop
        tag.selfClosing := by
  obtain ⟨pending?, hattributes⟩ :=
    foldl_step_attributes template visit { name := tag.name } tag.attributes
  refine ⟨pending?, ?_⟩
  rw [TagGroup.events, List.cons_append, List.foldl_cons, List.foldl_append, Visit.step,
    hattributes, TagGroup.lastEvent]
  cases tag.selfClosing <;> rfl

/-- A script or a style says only whether its content comes next. -/
lemma foldl_step_skipped (tag : TagGroup) (h : Visit.isSkipped (template.slice tag.name) = true) :
    ∃ pending?, tag.events.foldl (Visit.step template) visit =
      { visit with inRawText := !tag.selfClosing, tag? := none, pending? } := by
  obtain ⟨pending?, htag⟩ := foldl_step_tag template visit tag
  refine ⟨pending?, ?_⟩
  rw [htag]
  exact if_pos h

/-- Another tag is read, and uses up the comment. -/
lemma foldl_step_read (tag : TagGroup) (h : Visit.isSkipped (template.slice tag.name) = false) :
    ∃ pending?, tag.events.foldl (Visit.step template) visit =
      { Visit.readTag
          { visit with
            inRawText := visit.inRawText || tag.opensRaw template.text
            tag? := none
            pending? } template tag.toTag tag.stop with comment? := none } := by
  obtain ⟨pending?, htag⟩ := foldl_step_tag template visit tag
  refine ⟨pending?, ?_⟩
  rw [htag]
  exact if_neg (Bool.eq_false_iff.1 h)

end Groups

/-! ### The flag -/

/-- What a group says of the text behind it, if it says anything: whether that is raw text. -/
def Group.rawText? (template : Template) : Group → Option Bool
  | .tag opening =>
    if opening.opensRaw template.text then some true
    else if Visit.isSkipped (template.slice opening.name) then some false
    else none
  | .close span => if isRawTextTag (template.slice span) then some false else none
  | _ => none

/-- Scripts and styles have raw text. -/
lemma isRawTextTag_of_isSkipped {name : List Char} (h : Visit.isSkipped name = true) :
    isRawTextTag name = true := by
  simp only [Visit.isSkipped, equalIgnoringCase, Bool.or_eq_true, beq_iff_eq] at h
  unfold isRawTextTag
  obtain h | h := h <;> rw [h] <;> rfl

/-- Reading a tag does not touch the flag. -/
lemma inRawText_readTag (visit : Visit) (template : Template) (tag : Tag) (stop : Nat) :
    (visit.readTag template tag stop).inRawText = visit.inRawText := by
  unfold Visit.readTag
  split_ifs <;> rfl

/-- After a tag the flag is what the tag says, if it says anything. -/
lemma inRawText_foldl_tag (template : Template) (visit : Visit) (tag : TagGroup) :
    (tag.events.foldl (Visit.step template) visit).inRawText =
      ((Group.tag tag).rawText? template).getD visit.inRawText := by
  cases hskipped : Visit.isSkipped (template.slice tag.name) with
  | true =>
    obtain ⟨pending?, htag⟩ := foldl_step_skipped template visit tag hskipped
    -- Whether the tag closes itself decides, as it does for the content of all raw elements.
    have hraw : isRawTextTag (tag.name.slice template.text) = true :=
      isRawTextTag_of_isSkipped hskipped
    rw [htag]
    cases hself : tag.selfClosing <;>
      simp [Group.rawText?, TagGroup.opensRaw, hskipped, hraw, hself]
  | false =>
    obtain ⟨pending?, htag⟩ := foldl_step_read template visit tag hskipped
    rw [htag]
    change (Visit.readTag _ template _ _).inRawText = _
    rw [inRawText_readTag]
    cases hraw : tag.opensRaw template.text <;> simp [Group.rawText?, hskipped, hraw]

/-- After a group the flag is what the group says, if it says anything. -/
lemma inRawText_foldl_group (template : Template) (visit : Visit) (group : Group) :
    (group.events.foldl (Visit.step template) visit).inRawText =
      (group.rawText? template).getD visit.inRawText := by
  cases group with
  | tag opening => exact inRawText_foldl_tag template visit opening
  | text span =>
    simp only [Group.events, Group.rawText?, List.foldl_cons, List.foldl_nil, Visit.step]
    split_ifs <;> rfl
  | close span =>
    simp only [Group.events, Group.rawText?, List.foldl_cons, List.foldl_nil, Visit.step]
    split_ifs <;> rfl
  | mustache span => rfl
  | comment span => rfl

/-- The flag is set in an element with raw text, behind its content too. -/
lemma inRawText_foldl_content (template : Template) (visit : Visit) {tag : TagGroup}
    (content? : Option Span) (htag : tag.opensRaw template.text = true) :
    ((tag.events ++ (content?.map Event.text).toList).foldl (Visit.step template) visit).inRawText =
      true := by
  have hopened : (tag.events.foldl (Visit.step template) visit).inRawText = true := by
    rw [inRawText_foldl_tag, Group.rawText?, if_pos htag]
    rfl
  rw [List.foldl_append]
  cases content? with
  | none => exact hopened
  | some span => exact (inRawText_foldl_group template _ (.text span)).trans hopened

/-- An element with raw text leaves the flag set unless its closing tag has the name of one. -/
lemma inRawText_foldl_element (template : Template) (visit : Visit) {tag : TagGroup}
    (content? : Option Span) (closing : Span) (htag : tag.opensRaw template.text = true) :
    ((Block.element tag content? closing).events.foldl (Visit.step template) visit).inRawText =
      !isRawTextTag (template.slice closing) := by
  have hcontent := inRawText_foldl_content template visit content? htag
  rw [Block.events_element, List.foldl_append]
  refine (inRawText_foldl_group template _ (.close closing)).trans ?_
  rw [hcontent, Group.rawText?]
  cases isRawTextTag (template.slice closing) <;> rfl

/-! ### Elements that are left open -/

/-- The events end with an opening tag with raw text, and with its content if it has any. -/
def EndsRaw (template : Template) (events : List Event) : Prop :=
  ∃ before tag content?,
    events = before ++ TagGroup.events tag ++ (Option.map Event.text content?).toList ∧
      tag.opensRaw template.text = true

/-- Behind the events the flag is set outside of raw text: the closing tag of an element with raw
text ran into a slash, and no group behind it says what comes next. -/
inductive LeftOpen (template : Template) : List Event → Prop
  | slash (earlier : List Event) (tag : TagGroup) (content? : Option Span) (closing : Span)
      (htag : tag.opensRaw template.text = true) (hslash : '/' ∈ template.slice closing) :
      LeftOpen template (earlier ++ (Block.element tag content? closing).events)
  | later {earlier : List Event} (group : Group) (h : LeftOpen template earlier)
      (hgroup : group.rawText? template = none) : LeftOpen template (earlier ++ group.events)

section LeftOpen

variable {template : Template} {found : Extraction} {events : List Event}

/-- Events behind others are visited from where those have led to. -/
lemma Visit.of_append (template : Template) (found : Extraction) (events more : List Event) :
    Visit.of template found (events ++ more) =
      more.foldl (Visit.step template) (Visit.of template found events) :=
  List.foldl_append

/-- The flag is set in an element with raw text. -/
lemma EndsRaw.inRawText (h : EndsRaw template events) :
    (Visit.of template found events).inRawText = true := by
  obtain ⟨before, tag, content?, rfl, htag⟩ := h
  rw [List.append_assoc, Visit.of_append]
  exact inRawText_foldl_content template _ content? htag

/-- The flag is set where an element with raw text is left open. -/
lemma LeftOpen.inRawText (h : LeftOpen template events) :
    (Visit.of template found events).inRawText = true := by
  induction h with
  | slash earlier tag content? closing htag hslash =>
    have hclosing : isRawTextTag (template.slice closing) = false := by
      cases hraw : isRawTextTag (template.slice closing) with
      | false => rfl
      | true => exact absurd hslash (slash_notMem_of_isRawTextTag hraw)
    rw [Visit.of_append, inRawText_foldl_element _ _ _ _ htag, hclosing]
    rfl
  | later group _ hgroup ih =>
    rw [Visit.of_append, inRawText_foldl_group, hgroup]
    exact ih

/-- A name without a slash is the name up to its first slash. -/
lemma closingName_eq_self {name : List Char} (h : '/' ∉ name) : closingName name = name := by
  have hend : ∀ c ∈ ([] : List Char).head?, c = '/' := nofun
  have hname := closingName_append h hend
  rwa [List.append_nil] at hname

/-- Only an element with raw text says that raw text comes next. -/
lemma Group.rawText?_ne_true {group : Group} (h : (Block.single group).Fits template.text) :
    group.rawText? template ≠ some true := by
  cases group with
  | tag opening =>
    have hopens : opening.opensRaw template.text = false := h
    simp [rawText?, hopens]
  | close => simp [rawText?]
  | text | mustache | comment => nofun

/-- Behind blocks the flag is set only where an element is left open. -/
lemma leftOpen_of_inRawText (blocks : List Block)
    (hfits : ∀ block ∈ blocks, block.Fits template.text)
    (h : (Visit.of template found (blocks.flatMap Block.events)).inRawText = true) :
    LeftOpen template (blocks.flatMap Block.events) := by
  induction blocks using List.reverseRecOn with
  | nil => cases h
  | append_singleton blocks block ih =>
    have hblock : block.Fits template.text := hfits block (by simp)
    rw [List.flatMap_append, List.flatMap_singleton] at h ⊢
    rw [Visit.of_append] at h
    cases block with
    | element tag content? closing =>
      have hopens : tag.opensRaw template.text = true := hblock.1
      have hname : isRawTextTag (closingName (template.slice closing)) = true := hblock.2
      refine .slash _ tag content? closing hopens ?_
      -- Without a slash the closing tag has the name of the element, which clears the flag.
      by_contra hslash
      rw [inRawText_foldl_element _ _ _ _ hopens] at h
      rw [closingName_eq_self hslash] at hname
      simp [hname] at h
    | single group =>
      rw [Block.events_single] at h ⊢
      rw [inRawText_foldl_group] at h
      cases hgroup : group.rawText? template with
      | none =>
        rw [hgroup] at h
        exact .later group (ih (fun b hb => hfits b (by simp [hb])) h) hgroup
      | some raw =>
        rw [hgroup] at h
        cases raw with
        | false => cases h
        | true => exact absurd hgroup (Group.rawText?_ne_true hblock)

/-- The element that is left open ends at a closing tag with a slash in its name. -/
lemma LeftOpen.exists_slash (h : LeftOpen template events) :
    ∃ before closing after, events = before ++ .close closing :: after ∧
      EndsRaw template before ∧ '/' ∈ template.slice closing := by
  induction h with
  | slash earlier tag content? closing htag hslash =>
    refine ⟨earlier ++ tag.events ++ (content?.map .text).toList, closing, [], by simp, ?_, hslash⟩
    exact ⟨earlier, tag, content?, rfl, htag⟩
  | later group _ _ ih =>
    obtain ⟨before, closing, after, rfl, hends, hslash⟩ := ih
    exact ⟨before, closing, after ++ group.events, by simp, hends, hslash⟩

end LeftOpen

/-! ### Texts -/

/-- At a text the flag is set if the scanner reads it as raw text, and else if an element was left
open. -/
lemma inRawText_iff {template : Template} (found : Extraction)
    {earlier later : List (Mode × Event)} {mode : Mode} {span : Span}
    (h : trace template.text = earlier ++ (mode, .text span) :: later) :
    (Visit.of template found (earlier.map Prod.snd)).inRawText = true ↔
      mode = .rawText ∨ LeftOpen template (earlier.map Prod.snd) := by
  obtain ⟨place, next, hfollows, hnext⟩ := exists_next h nofun
  have harranged := hfollows.arranged
  generalize earlier.map Prod.snd = events at harranged
  cases hnext with
  | text hmode =>
    cases harranged with
    | outside blocks hfits =>
      rw [or_iff_right hmode]
      exact ⟨leftOpen_of_inRawText blocks hfits, LeftOpen.inRawText⟩
  | rawText =>
    cases harranged with
    | raw blocks tag hfits hraw =>
      rw [Visit.of_append, inRawText_foldl_tag, Group.rawText?, if_pos hraw]
      simp

/-- A text is taken for raw text exactly if the scanner reads it as raw text, and any other text
that is not blank ends what a comment documents. -/
def TellsRawText (template : Template) (found : Extraction) : Prop :=
  ∀ earlier mode span later, trace template.text = earlier ++ (mode, .text span) :: later →
    ((Visit.of template found (earlier.map Prod.snd)).inRawText = true ↔ mode = .rawText) ∧
    (mode ≠ .rawText → isMarkupBlankText (template.slice span) = false →
      (Visit.of template found (earlier.map Prod.snd ++ [.text span])).comment? = none)

/-- A text is told apart from raw text exactly if no element is left open in front of it. That is so
if no closing tag has a slash in its name. -/
theorem tellsRawText_iff (template : Template) (found : Extraction) :
    (TellsRawText template found ↔
      ∀ earlier mode span later, trace template.text = earlier ++ (mode, .text span) :: later →
        mode ≠ .rawText → ¬ LeftOpen template (earlier.map Prod.snd)) ∧
    ((∀ span, .close span ∈ events template.text → '/' ∉ template.slice span) →
      TellsRawText template found) := by
  have hiff : TellsRawText template found ↔
      ∀ earlier mode span later, trace template.text = earlier ++ (mode, .text span) :: later →
        mode ≠ .rawText → ¬ LeftOpen template (earlier.map Prod.snd) := by
    constructor
    · intro htells earlier mode span later h hmode hopen
      exact hmode ((htells earlier mode span later h).1.1 hopen.inRawText)
    · intro hclosed earlier mode span later h
      have hflag := inRawText_iff found h
      by_cases hmode : mode = .rawText
      · simp [hflag, hmode]
      · rw [or_iff_right hmode] at hflag
        have hfalse : (Visit.of template found (earlier.map Prod.snd)).inRawText = false :=
          Bool.eq_false_iff.2 fun htrue => hclosed earlier mode span later h hmode (hflag.1 htrue)
        refine ⟨by simp [hfalse, hmode], ?_⟩
        intro _ hblank
        rw [Visit.of_append]
        simp [Visit.step, hfalse, hblank]
  refine ⟨hiff, fun hslash => hiff.2 ?_⟩
  intro earlier mode span later h _ hopen
  obtain ⟨before, closing, after, hearlier, _, hin⟩ := hopen.exists_slash
  refine hslash closing ?_ hin
  rw [← trace_map_snd, h, List.map_append, hearlier]
  simp

/-- A blank behind the name of the closing tag. -/
theorem tellsRawText_script :
    (∀ span, .close span ∈ events "<script>a</script ><!--b-->c".toList →
      '/' ∉ Template.slice ⟨"<script>a</script ><!--b-->c".toList, 0⟩ span) ∧
    TellsRawText ⟨"<script>a</script ><!--b-->c".toList, 0⟩ default := by
  have hevents : events "<script>a</script ><!--b-->c".toList =
      [.openName ⟨1, 7⟩, .openEnd 7, .text ⟨8, 9⟩, .close ⟨11, 17⟩, .comment ⟨23, 24⟩,
        .text ⟨27, 28⟩, .finish] := by decide
  have hslash : ∀ span, .close span ∈ events "<script>a</script ><!--b-->c".toList →
      '/' ∉ Template.slice ⟨"<script>a</script ><!--b-->c".toList, 0⟩ span := by
    intro span hspan
    rw [hevents] at hspan
    have hclosing : span = ⟨11, 17⟩ := by simpa using hspan
    rw [hclosing]
    decide
  exact ⟨hslash, (tellsRawText_iff _ _).2 hslash⟩

/-- Behind a closing tag that runs into a slash, the text is taken for raw text. -/
theorem not_tellsRawText_slash :
    ¬ TellsRawText ⟨"<script></script/><!--a-->b".toList, 0⟩ default := by
  intro h
  let earlier : List (Mode × Event) :=
    [(.tagName, .openName ⟨1, 7⟩), (.tagName, .openEnd 7), (.closeName, .close ⟨10, 17⟩),
      (.comment, .comment ⟨22, 23⟩)]
  obtain ⟨hflag, _⟩ := h earlier .text ⟨26, 27⟩ [(.text, .finish)] (by decide)
  cases hflag.1 (by decide)

end ComponentApi.Markup
