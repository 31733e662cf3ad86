import ComponentApi.Proofs.Markup.Places

/-!
# The spans of events

The spans of events start and stop between characters of the template, and they lie one behind the
other. `Between` says this of a list of events that lie between two positions. The scanner owes what
it has read since the start of its section: `Scanner.reach` is from where on it can still report
something. Each of its steps reports what lies between its reach before and its reach then
(`advances_step`), so the spans of a whole scan follow each other.

What the scanner looks at besides the next character is the name of the tag that was opened last,
the end of a comment and the end of raw text. `LooksInside` ties these to parts of the template.
-/

namespace ComponentApi

namespace Text

/-- The position falls between two characters of the encoded text, or at one of its ends. -/
def IsBoundary (text : List Char) (position : Nat) : Prop :=
  String.Pos.Raw.IsValid (String.ofList text) ⟨position⟩

/-- A string takes up the bytes of its characters. -/
lemma utf8ByteSize_ofList (text : List Char) :
    (String.ofList text).utf8ByteSize = byteLength text := by
  induction text with
  | nil => rfl
  | cons c text ih =>
    rw [← List.singleton_append, String.ofList_append, String.utf8ByteSize_append, ih,
      byteLength_append]
    simp

/-- A position is a boundary if it is the length of a part at the start of the text. -/
lemma isBoundary_iff {text : List Char} {position : Nat} :
    IsBoundary text position ↔
      ∃ front back, text = front ++ back ∧ byteLength front = position := by
  unfold IsBoundary
  rw [String.Pos.Raw.isValid_ofList]
  constructor
  · rintro ⟨i, hi⟩
    refine ⟨text.take i, text.drop i, (List.take_append_drop i text).symm, ?_⟩
    rw [← utf8ByteSize_ofList, ← hi]
  · rintro ⟨front, back, rfl, rfl⟩
    exact ⟨front.length, by rw [List.take_left, utf8ByteSize_ofList]⟩

/-- A text whose start ends at an earlier position than another start of it is a start of that. -/
lemma prefix_of_byteLength_le {front back front' back' : List Char}
    (h : front ++ back = front' ++ back') (hle : byteLength front ≤ byteLength front') :
    ∃ text, front' = front ++ text := by
  obtain ⟨text, hfront, _⟩ | ⟨text, rfl, hback⟩ := List.append_eq_append_iff.1 h
  · exact ⟨text, hfront⟩
  · cases text with
    | nil => exact ⟨[], by simp⟩
    | cons c text =>
      have hpos := c.utf8Size_pos
      simp only [byteLength_append, byteLength_cons] at hle
      omega

/-- A span between two boundaries covers a part of the text. -/
lemma exists_slice? {text : List Char} {span : Span} (hle : span.start ≤ span.stop)
    (hstart : IsBoundary text span.start) (hstop : IsBoundary text span.stop) :
    ∃ part, span.slice? text = some part := by
  obtain ⟨start, stop⟩ := span
  obtain ⟨front, back, rfl, rfl⟩ := isBoundary_iff.1 hstart
  obtain ⟨front', back', heq, rfl⟩ := isBoundary_iff.1 hstop
  -- Of the two starts of the text the one starts the other, and the part is what is between.
  obtain ⟨part, rfl⟩ := prefix_of_byteLength_le heq hle
  rw [List.append_assoc] at heq
  rw [List.append_cancel_left heq, byteLength_append]
  exact ⟨part, Span.slice?_append _ _ _⟩

/-- The bytes taken from the start are a part of the text with this length. -/
lemma takeBytes?_eq_some_iff {length : Nat} {text part : List Char} :
    takeBytes? length text = some part ↔ part <+: text ∧ byteLength part = length := by
  constructor
  · intro h
    fun_induction takeBytes? length text generalizing part with
    | case1 =>
      cases h
      exact ⟨List.nil_prefix, rfl⟩
    | case2 => cases h
    | case3 length c text hle ih =>
      obtain ⟨part, hpart, rfl⟩ := Option.map_eq_some_iff.1 h
      obtain ⟨hstarts, hlength⟩ := ih hpart
      refine ⟨by simpa using hstarts, ?_⟩
      rw [byteLength_cons, hlength]
      omega
    | case4 => cases h
  · rintro ⟨⟨after, rfl⟩, rfl⟩
    exact takeBytes?_append part after

/-- A span that starts behind `before` covers the start of what follows. -/
lemma slice?_append_eq_some_iff {before text part : List Char} {length : Nat} :
    Span.slice? ⟨byteLength before, byteLength before + length⟩ (before ++ text) = some part ↔
      part <+: text ∧ byteLength part = length := by
  rw [← takeBytes?_eq_some_iff]
  simp [Span.slice?, dropBytes?_append]

/-- A letter in lower case takes up as many bytes as in upper case. -/
lemma utf8Size_toLower (c : Char) : c.toLower.utf8Size = c.utf8Size := by
  unfold Char.toLower
  split
  · next h =>
    rw [Char.utf8Size, Char.utf8Size]
    grind
  · rfl

/-- A text in lower case takes up as many bytes. -/
lemma byteLength_lowercaseAscii (text : List Char) :
    byteLength (lowercaseAscii text) = byteLength text := by
  induction text with
  | nil => rfl
  | cons c text ih =>
    rw [byteLength_cons, ← ih, ← utf8Size_toLower]
    rfl

/-- Texts that are equal up to case take up as many bytes. -/
lemma byteLength_of_equalIgnoringCase {a b : List Char} (h : equalIgnoringCase a b = true) :
    byteLength a = byteLength b := by
  rw [← byteLength_lowercaseAscii a, eq_of_beq h, byteLength_lowercaseAscii b]

/-- Only the empty text takes up no bytes. -/
lemma eq_nil_of_byteLength_eq_zero {text : List Char} (h : byteLength text = 0) : text = [] := by
  cases text with
  | nil => rfl
  | cons c text =>
    have hpos := c.utf8Size_pos
    rw [byteLength_cons] at h
    omega

end Text

namespace Markup

open Text

/-! ### Extents -/

/-- What an event covers; an event at a position covers nothing there. -/
def Event.extent? : Event → Option Span
  | .text span | .mustache span | .openName span | .close span | .attributeName span
  | .attributeValue span | .comment span => some span
  | .openEnd position | .selfClose position | .attributeEnd _ position => some ⟨position, position⟩
  | .finish => none

/-- Whether an event always covers something: only an expression in braces and a comment can be
empty. -/
def Event.isSolid : Event → Bool
  | .text _ | .openName _ | .close _ | .attributeName _ | .attributeValue _ => true
  | _ => false

/-- The event covers the span, which lies on boundaries of the template. -/
structure Covers (template : List Char) (event : Event) (span : Span) : Prop where
  extent : event.extent? = some span
  le : span.start ≤ span.stop
  solid : event.isSolid = true → span.start < span.stop
  start : IsBoundary template span.start
  stop : IsBoundary template span.stop

/-- The events cover spans one behind the other, from the one position to the other. -/
inductive Between (template : List Char) : (lower : Nat) → List Event → (upper : Nat) → Prop
  | nil {lower upper : Nat} (h : lower ≤ upper) : Between template lower [] upper
  | cons {lower upper : Nat} {event : Event} {span : Span} {events : List Event}
      (hlower : lower ≤ span.start) (hspan : Covers template event span)
      (hrest : Between template span.stop events upper) :
      Between template lower (event :: events) upper

namespace Between

variable {template : List Char} {lower middle upper : Nat} {events more : List Event}

/-- Events lie between positions of which the first is not behind the second. -/
lemma le (h : Between template lower events upper) : lower ≤ upper := by
  induction h with
  | nil h => exact h
  | cons hlower hspan _ ih => exact (hlower.trans hspan.le).trans ih

/-- Events that lie one behind the other lie between the outer positions. -/
lemma append (h : Between template lower events middle)
    (hmore : Between template middle more upper) :
    Between template lower (events ++ more) upper := by
  induction h with
  | nil hle =>
    cases hmore with
    | nil hle' => exact .nil (hle.trans hle')
    | cons hlower hspan hrest => exact .cons (hle.trans hlower) hspan hrest
  | cons hlower hspan _ ih => exact .cons hlower hspan (ih hmore)

/-- Each event that lies between two positions covers a span between them. -/
lemma covers (h : Between template lower events upper) :
    ∀ event ∈ events, ∃ span,
      Covers template event span ∧ lower ≤ span.start ∧ span.stop ≤ upper := by
  induction h with
  | nil => simp
  | cons hlower hspan hrest ih =>
    intro event hevent
    rcases List.mem_cons.1 hevent with rfl | hevent
    · exact ⟨_, hspan, hlower, hrest.le⟩
    · obtain ⟨span, hcovers, hstart, hstop⟩ := ih event hevent
      exact ⟨span, hcovers, (hlower.trans hspan.le).trans hstart, hstop⟩

/-- Events that lie between two positions stop before the later ones start. -/
lemma pairwise (h : Between template lower events upper) :
    (events.filterMap Event.extent?).Pairwise fun first second => first.stop ≤ second.start := by
  induction h with
  | nil => simp
  | cons hlower hspan hrest ih =>
    rw [List.filterMap_cons_some hspan.extent, List.pairwise_cons]
    refine ⟨?_, ih⟩
    intro span hmem
    obtain ⟨event, hevent, hextent⟩ := List.mem_filterMap.1 hmem
    obtain ⟨span', hcovers, hstart, _⟩ := hrest.covers event hevent
    cases hextent.symm.trans hcovers.extent
    exact hstart

end Between

/-! ### Sections -/

/-- Whether the scanner reports what it has read since the start of the section. -/
def Mode.holdsSection : Mode → Bool
  | .text | .mustache _ | .beforeTag | .tagName | .closeName | .attributeName | .shorthand _
  | .doubleQuoted | .singleQuoted | .unquoted | .braceValue _ | .comment | .rawText => true
  | _ => false

/-- Whether the section is a name, which has at least one character. -/
def Mode.readsName : Mode → Bool
  | .tagName | .closeName | .attributeName => true
  | _ => false

/-- A name that is being read is a section. -/
lemma Mode.holdsSection_of_readsName {mode : Mode} (h : mode.readsName = true) :
    mode.holdsSection = true := by
  cases mode with
  | tagName | closeName | attributeName => rfl
  | _ => cases h

/-- A text that is being read is a section. -/
lemma Mode.holdsSection_of_readsText {mode : Mode} (h : mode.readsText = true) :
    mode.holdsSection = true := by
  cases mode with
  | text | mustache | rawText => rfl
  | _ => cases h

namespace Scanner

/-- From where on the scanner can still report something at the position. -/
def reach (scanner : Scanner) (position : Nat) : Nat :=
  if scanner.mode.holdsSection then scanner.start else position

/-- A section starts at a boundary, and not behind the position. -/
structure Opened (template : List Char) (start position : Nat) : Prop where
  boundary : IsBoundary template start
  le : start ≤ position

/-- The section of the scanner is open at the position, and it is not empty if it is a name. -/
structure Marked (template : List Char) (scanner : Scanner) (position : Nat) : Prop extends
    Opened template scanner.start position where
  name : scanner.mode.readsName = true → scanner.start < position

/-- The position and the one behind the next character, where the scanner stands next. -/
structure Passes (template : List Char) (position : Nat) (c : Char) (stop : Nat) : Prop where
  size : stop = position + c.utf8Size
  here : IsBoundary template position
  next : IsBoundary template stop

/-- The events lie between `lower` and what the scanner can still report at the position `stop`. -/
structure Advances (template : List Char) (lower stop : Nat) (result : Scanner × List Event) :
    Prop where
  events : Between template lower result.2 (result.1.reach stop)
  marked : Marked template result.1 stop

section Steps

variable {template : List Char} {scanner next : Scanner} {lower position stop start : Nat}
  {c : Char} {mode : Mode} {tag rest : List Char} {events : List Event}

/-- A character takes up at least one byte. -/
lemma Passes.lt (h : Passes template position c stop) : position < stop := by
  have hpos := c.utf8Size_pos
  have hsize := h.size
  omega

/-- The characters that mean something are one byte long. -/
lemma Passes.succ (h : Passes template position c stop) (hc : c.utf8Size = 1) :
    position + 1 = stop := by
  rw [h.size, hc]

/-- A character that is a mark of one byte takes up one byte. -/
lemma utf8Size_of_beq {mark : Char} (h : (c == mark) = true) (hmark : mark.utf8Size = 1) :
    c.utf8Size = 1 := by
  rw [eq_of_beq h, hmark]

/-- A blank takes up one byte. -/
lemma utf8Size_of_isMarkupBlank (h : isMarkupBlank c = true) : c.utf8Size = 1 := by
  simp only [isMarkupBlank, Bool.or_eq_true, beq_iff_eq] at h
  obtain (((rfl | rfl) | rfl) | rfl) | rfl := h <;> rfl

/-- Only a closing brace closes the first brace. -/
lemma eq_of_feed_eq_none {braces : Braces} (h : braces.feed c = none) : c = '\x7d' := by
  unfold Braces.feed at h
  split at h
  · split_ifs at h
  · split_ifs at h with _ _ hc
    exact eq_of_beq hc

/-- An event in front of those that lie further on lies with them. -/
lemma Advances.cons {event : Event} {span : Span} (hlower : lower ≤ span.start)
    (hspan : Covers template event span)
    (h : Advances template span.stop stop (next, events)) :
    Advances template lower stop (next, event :: events) :=
  ⟨.cons hlower hspan h.events, h.marked⟩

/-- Without a report, nothing lies between. -/
lemma advances_quiet (hlower : lower ≤ next.reach stop) (h : Marked template next stop) :
    Advances template lower stop (next, []) :=
  ⟨.nil hlower, h⟩

/-- A section that starts at the character is open behind it. -/
lemma advances_start (h : Passes template position c stop) (hlower : lower ≤ position) :
    Advances template lower stop (⟨mode, position, tag⟩, []) := by
  refine advances_quiet ?_ ⟨⟨h.here, h.lt.le⟩, fun _ => h.lt⟩
  unfold reach
  split_ifs
  · exact hlower
  · exact hlower.trans h.lt.le

/-- The section starts behind the character. -/
lemma advances_enter (mode : Mode) (h : Passes template position c stop) (hc : c.utf8Size = 1)
    (hlower : lower ≤ position) (hname : mode.readsName = false) :
    Advances template lower stop (scanner.enter mode position, []) := by
  have hstop := h.succ hc
  have hreach : (scanner.enter mode position).reach stop = stop := by simp [reach, enter, hstop]
  refine advances_quiet ?_ ⟨⟨?_, hstop.le⟩, ?_⟩
  · rw [hreach]
    exact hlower.trans h.lt.le
  · rw [enter, hstop]
    exact h.next
  · intro hreads
    rw [enter, hname] at hreads
    cases hreads

/-- A section that goes on stays open. -/
lemma advances_keep (h : Passes template position c stop) (hopened : Opened template start position)
    (hlower : lower ≤ start) :
    Advances template lower stop (⟨mode, start, tag⟩, []) := by
  have hlt : start < stop := hopened.le.trans_lt h.lt
  refine advances_quiet ?_ ⟨⟨hopened.boundary, hlt.le⟩, fun _ => hlt⟩
  unfold reach
  split_ifs
  · exact hlower
  · exact hlower.trans hlt.le

/-- A section that is given up is left behind. -/
lemma advances_drop (h : Passes template position c stop) (hopened : Opened template start stop)
    (hlower : lower ≤ position) (hmode : mode.holdsSection = false) :
    Advances template lower stop (⟨mode, start, tag⟩, []) := by
  refine advances_quiet ?_ ⟨hopened, ?_⟩
  · rw [reach, hmode]
    exact hlower.trans h.lt.le
  · intro hreads
    rw [Mode.holdsSection_of_readsName hreads] at hmode
    cases hmode

/-- What lies behind a position lies behind an earlier one. -/
lemma Advances.mono {lower' : Nat} {result : Scanner × List Event}
    (h : Advances template lower' stop result) (hle : lower ≤ lower') :
    Advances template lower stop result :=
  ⟨(Between.nil hle).append h.events, h.marked⟩

/-- The text that is pending is reported up to the position. -/
lemma Advances.pendingText (hopened : Opened template scanner.start position)
    (hhere : IsBoundary template position)
    (h : Advances template position stop (next, [])) :
    Advances template scanner.start stop (next, scanner.pendingText position) := by
  unfold Scanner.pendingText
  split_ifs with hlt
  · exact .cons le_rfl ⟨rfl, hopened.le, fun _ => hlt, hopened.boundary, hhere⟩ h
  · exact h.mono hopened.le

/-- In text, what is reported lies between the start of the section and the next character. -/
lemma advances_inText (h : Passes template position c stop)
    (hopened : Opened template scanner.start position) :
    Advances template scanner.start stop (scanner.inText position c) := by
  unfold inText
  split_ifs with hlt hbrace
  · exact .pendingText hopened h.here (advances_start h le_rfl)
  · exact .pendingText hopened h.here
      (advances_enter (.mustache .opened) h (utf8Size_of_beq hbrace rfl) le_rfl rfl)
  · exact advances_keep h hopened le_rfl

/-- An event at a position covers nothing there. -/
lemma covers_position {event : Event} (hextent : event.extent? = some ⟨position, position⟩)
    (hsolid : event.isSolid = false) (hhere : IsBoundary template position) :
    Covers template event ⟨position, position⟩ :=
  ⟨hextent, le_rfl, by simp [hsolid], hhere, hhere⟩

/-- Between attributes, what is reported lies at the position. -/
lemma advances_inTag (h : Passes template position c stop)
    (hopened : Opened template scanner.start stop) :
    Advances template position stop (scanner.inTag position c) := by
  unfold inTag
  split_ifs with hgt
  · exact .cons le_rfl (covers_position rfl rfl h.here)
      (advances_enter _ h (utf8Size_of_beq hgt rfl) le_rfl rfl)
  · exact .cons le_rfl (covers_position rfl rfl h.here)
      (advances_enter _ h (utf8Size_of_beq hgt rfl) le_rfl rfl)
  · exact advances_drop h hopened le_rfl rfl
  · exact advances_start h le_rfl
  · exact advances_drop h hopened le_rfl rfl
  · exact advances_start h le_rfl

/-- Behind the name of an attribute, what is reported lies at the position. -/
lemma advances_afterName (h : Passes template position c stop)
    (hopened : Opened template scanner.start stop) :
    Advances template position stop (scanner.afterName position c) := by
  unfold afterName
  split_ifs
  · exact advances_drop h hopened le_rfl rfl
  · exact advances_drop h hopened le_rfl rfl
  · exact .cons le_rfl (covers_position rfl rfl h.here) (advances_inTag h hopened)

/-- The value of an attribute lies in its section, in front of what is reported behind it. -/
lemma Advances.valueEvents {quote : Quote} (hopened : Opened template scanner.start position)
    (hhere : IsBoundary template position)
    (h : Advances template position stop (next, events)) :
    Advances template scanner.start stop
      (next, scanner.valueEvents quote position ++ events) := by
  unfold Scanner.valueEvents
  split_ifs with hlt
  · exact .cons le_rfl ⟨rfl, hopened.le, fun _ => hlt, hopened.boundary, hhere⟩
      (.cons le_rfl (covers_position rfl rfl hhere) h)
  · exact .cons hopened.le (covers_position rfl rfl hhere) h

/-- In a value without quotes, what is reported lies in its section and at the position. -/
lemma advances_inUnquoted (h : Passes template position c stop)
    (hopened : Opened template scanner.start position) :
    Advances template scanner.start stop (scanner.inUnquoted position c) := by
  unfold inUnquoted
  split_ifs with hc
  · have hsize : c.utf8Size = 1 := by
      rcases Bool.or_eq_true_iff.1 hc with hblank | hgt
      · exact utf8Size_of_isMarkupBlank hblank
      · exact utf8Size_of_beq hgt rfl
    have hentered : Opened template (scanner.enter .beforeAttribute position).start stop := by
      rw [enter, h.succ hsize]
      exact ⟨h.next, le_rfl⟩
    exact .valueEvents hopened h.here (advances_inTag h hentered)
  · exact advances_keep h hopened le_rfl

/-- A section that is reported covers the template from its start to the position. -/
lemma covers_section {event : Event} (hopened : Opened template start position)
    (hhere : IsBoundary template position) (hextent : event.extent? = some ⟨start, position⟩)
    (hsolid : event.isSolid = true → start < position) :
    Covers template event ⟨start, position⟩ :=
  ⟨hextent, hopened.le, hsolid, hopened.boundary, hhere⟩

/-- Outside of tags, a character reports what lies between the start of the section and itself. -/
lemma step_outside (hmode : scanner.mode.region = .outside)
    (hmarked : Marked template scanner position) (h : Passes template position c stop) :
    Advances template (scanner.reach position) stop (scanner.step position c rest) := by
  obtain ⟨mode, start, tag⟩ := scanner
  have hopened : Opened template start position := hmarked.toOpened
  have hstays : Opened template start stop := ⟨hopened.boundary, hopened.le.trans h.lt.le⟩
  cases mode with
  | text => exact advances_inText h hopened
  | mustache braces =>
    simp only [step]
    split
    · exact advances_keep h hopened le_rfl
    · next hfeed =>
      exact .cons le_rfl (covers_section hopened h.here rfl (by simp [Event.isSolid]))
        (advances_enter _ h (by rw [eq_of_feed_eq_none hfeed]; rfl) le_rfl rfl)
  | beforeTag =>
    simp only [step]
    split_ifs with hmark hmark
    · exact advances_enter _ h (utf8Size_of_beq hmark rfl) hopened.le rfl
    · exact advances_enter _ h (utf8Size_of_beq hmark rfl) hopened.le rfl
    · exact advances_start h hopened.le
    · exact advances_drop h hstays hopened.le rfl
    · exact advances_inText h hopened
  | beforeClose =>
    simp only [step]
    split_ifs with _ hgt
    · exact advances_drop h hstays le_rfl rfl
    · exact advances_enter _ h (utf8Size_of_beq hgt rfl) le_rfl rfl
    · exact advances_start h le_rfl
  | closeName =>
    have hclose : Covers template (.close ⟨start, position⟩) ⟨start, position⟩ :=
      covers_section hopened h.here rfl fun _ => hmarked.name rfl
    simp only [step]
    split_ifs with hgt hblank
    · exact .cons le_rfl hclose (advances_enter _ h (utf8Size_of_beq hgt rfl) le_rfl rfl)
    · exact .cons le_rfl hclose (advances_enter _ h (utf8Size_of_isMarkupBlank hblank) le_rfl rfl)
    · exact advances_keep h hopened le_rfl
  | comment =>
    simp only [step]
    split_ifs
    · exact .cons le_rfl (covers_section hopened h.here rfl (by simp [Event.isSolid]))
        (advances_drop h hstays le_rfl rfl)
    · exact advances_keep h hopened le_rfl
  | beforeDeclaration | beforeComment =>
    simp only [step]
    split_ifs with hdash
    · exact advances_enter _ h (utf8Size_of_beq hdash rfl) le_rfl rfl
    · exact advances_drop h hstays le_rfl rfl
  | afterClose | declaration | instruction | commentEnd =>
    simp only [step]
    split_ifs with hgt
    · exact advances_enter _ h (utf8Size_of_beq hgt rfl) le_rfl rfl
    · exact advances_drop h hstays le_rfl rfl
  | _ => cases hmode

/-- An expression in braces is reported together with its closing brace. -/
lemma advances_braced {braces : Braces} {event last : Event} (hfeed : braces.feed c = none)
    (h : Passes template position c stop) (hopened : Opened template scanner.start position)
    (hevent : event.extent? = some ⟨scanner.start, position + 1⟩)
    (hlast : last.extent? = some ⟨position + 1, position + 1⟩) (hsolid : last.isSolid = false) :
    Advances template scanner.start stop
      (scanner.enter .beforeAttribute position, [event, last]) := by
  have hstop : position + 1 = stop := h.succ (by rw [eq_of_feed_eq_none hfeed]; rfl)
  have hlt : scanner.start < position + 1 := Nat.lt_succ_of_le hopened.le
  have hnext : IsBoundary template (position + 1) := hstop ▸ h.next
  have hend : Advances template (position + 1) stop (scanner.enter .beforeAttribute position, []) :=
    advances_quiet hstop.le ⟨⟨hnext, hstop.le⟩, nofun⟩
  exact .cons le_rfl (covers_section ⟨hopened.boundary, hlt.le⟩ hnext hevent fun _ => hlt)
    (.cons le_rfl (covers_position hlast hsolid hnext) hend)

/-- Between attributes, a character reports what lies between the start of the section and itself.
-/
lemma step_tag (hmode : scanner.mode.region = .tag) (hmarked : Marked template scanner position)
    (h : Passes template position c stop) :
    Advances template (scanner.reach position) stop (scanner.step position c rest) := by
  obtain ⟨mode, start, tag⟩ := scanner
  have hopened : Opened template start position := hmarked.toOpened
  have hstays : Opened template start stop := ⟨hopened.boundary, hopened.le.trans h.lt.le⟩
  cases mode with
  | beforeAttribute => exact advances_inTag h hstays
  | selfClosing =>
    simp only [step]
    split_ifs with hgt
    · exact .cons le_rfl (covers_position rfl rfl h.here)
        (advances_enter _ h (utf8Size_of_beq hgt rfl) le_rfl rfl)
    · exact advances_drop h hstays le_rfl rfl
    · exact advances_inTag h hstays
  | attributeName =>
    simp only [step]
    split_ifs
    · exact .cons le_rfl (covers_section hopened h.here rfl fun _ => hmarked.name rfl)
        (advances_afterName h ⟨h.here, h.lt.le⟩)
    · exact advances_keep h hopened le_rfl
  | shorthand braces =>
    simp only [step]
    split
    · exact advances_keep h hopened le_rfl
    · next hfeed => exact advances_braced hfeed h hopened rfl rfl rfl
  | _ => cases hmode

/-- A quote that closes a value reports the section and steps behind it. -/
lemma advances_quoted {quote : Quote} (h : Passes template position c stop) (hc : c.utf8Size = 1)
    (hopened : Opened template scanner.start position) :
    Advances template scanner.start stop
      (scanner.enter .beforeAttribute position, scanner.valueEvents quote position) := by
  rw [← List.append_nil (scanner.valueEvents quote position)]
  exact .valueEvents hopened h.here (advances_enter _ h hc le_rfl rfl)

/-- Behind the name of an attribute, a character reports what lies between the start of the section
and itself. -/
lemma step_named (hmode : scanner.mode.region = .named) (hmarked : Marked template scanner position)
    (h : Passes template position c stop) :
    Advances template (scanner.reach position) stop (scanner.step position c rest) := by
  obtain ⟨mode, start, tag⟩ := scanner
  have hopened : Opened template start position := hmarked.toOpened
  have hstays : Opened template start stop := ⟨hopened.boundary, hopened.le.trans h.lt.le⟩
  cases mode with
  | afterAttribute => exact advances_afterName h hstays
  | unquoted => exact advances_inUnquoted h hopened
  | beforeValue =>
    simp only [step]
    split_ifs with hquote hquote
    · exact advances_enter _ h (utf8Size_of_beq hquote rfl) le_rfl rfl
    · exact advances_enter _ h (utf8Size_of_beq hquote rfl) le_rfl rfl
    · exact advances_start h le_rfl
    · exact advances_drop h hstays le_rfl rfl
    · -- A value without quotes starts at its first character.
      let value : Scanner := ⟨.beforeValue, position, tag⟩
      have hvalue : Opened template value.start position := ⟨h.here, le_rfl⟩
      exact advances_inUnquoted h hvalue
  | doubleQuoted | singleQuoted =>
    simp only [step]
    split_ifs with hquote
    · exact advances_quoted h (utf8Size_of_beq hquote rfl) hopened
    · exact advances_keep h hopened le_rfl
  | braceValue braces =>
    simp only [step]
    split
    · exact advances_keep h hopened le_rfl
    · next hfeed => exact advances_braced hfeed h hopened rfl rfl rfl
  | _ => cases hmode

/-- Each step reports what lies between what the scanner could report before and what it can report
then. -/
lemma advances_step (rest : List Char) (hmarked : Marked template scanner position)
    (h : Passes template position c stop) :
    Advances template (scanner.reach position) stop (scanner.step position c rest) := by
  obtain ⟨mode, start, tag⟩ := scanner
  have hopened : Opened template start position := hmarked.toOpened
  cases hregion : mode.region with
  | outside => exact step_outside hregion hmarked h
  | tag => exact step_tag hregion hmarked h
  | named => exact step_named hregion hmarked h
  | tagName =>
    cases mode with
    | tagName =>
      simp only [step]
      split_ifs
      · exact .cons le_rfl (covers_section hopened h.here rfl fun _ => hmarked.name rfl)
          (advances_inTag h ⟨h.here, h.lt.le⟩)
      · exact advances_keep h hopened le_rfl
    | _ => cases hregion
  | rawText =>
    cases mode with
    | rawText =>
      simp only [step]
      split_ifs
      · exact .pendingText hopened h.here (advances_start h le_rfl)
      · exact advances_keep h hopened le_rfl
    | _ => cases hregion

end Steps

end Scanner

/-! ### Runs -/

section Runs

variable {template before rest : List Char} {scanner : Scanner} {reported : List (Mode × Event)}

/-- The next character of a scan stands between two boundaries of the template. -/
lemma Reached.passes {c : Char} (h : Reached template before scanner reported (c :: rest)) :
    Scanner.Passes template (byteLength before) c (byteLength (before ++ [c])) := by
  have htemplate := h.append_eq
  refine ⟨by simp, isBoundary_iff.2 ⟨before, _, htemplate.symm, rfl⟩, ?_⟩
  exact isBoundary_iff.2 ⟨before ++ [c], rest, by simp [← htemplate], rfl⟩

/-- Wherever a scan stands, what it has reported lies in front of what it can still report. -/
lemma Reached.between (h : Reached template before scanner reported rest) :
    Between template 0 (reported.map Prod.snd) (scanner.reach (byteLength before)) ∧
      Scanner.Marked template scanner (byteLength before) := by
  induction h with
  | start => exact ⟨.nil le_rfl, ⟨isBoundary_iff.2 ⟨[], _, rfl, rfl⟩, le_rfl⟩, nofun⟩
  | @step before scanner reported c rest hreached ih =>
    obtain ⟨hbetween, hmarked⟩ := ih
    obtain ⟨hmore, hnext⟩ := Scanner.advances_step rest hmarked hreached.passes
    refine ⟨?_, hnext⟩
    simpa [Function.comp_def] using hbetween.append hmore

/-- At the end, the rest of the section is reported, and then the end of the template. -/
lemma Scanner.Marked.finish (h : Scanner.Marked template scanner (byteLength template)) :
    ∃ last, scanner.finish (byteLength template) = last ++ [.finish] ∧
      Between template (scanner.reach (byteLength template)) last (byteLength template) := by
  have hend : IsBoundary template (byteLength template) :=
    isBoundary_iff.2 ⟨template, [], by simp, rfl⟩
  obtain hfinish | ⟨hmode, hlt, hfinish⟩ | ⟨hmode, hlt, hfinish⟩ :=
    finish_cases scanner (byteLength template)
  · refine ⟨[], hfinish, .nil ?_⟩
    unfold Scanner.reach
    split_ifs
    · exact h.le
    · exact le_rfl
  · refine ⟨[_], hfinish, ?_⟩
    rw [Scanner.reach, if_pos (Mode.holdsSection_of_readsText hmode)]
    exact .cons le_rfl (Scanner.covers_section h.toOpened hend rfl fun _ => hlt) (.nil le_rfl)
  · refine ⟨[_], hfinish, ?_⟩
    rw [Scanner.reach, hmode]
    exact .cons le_rfl (Scanner.covers_section h.toOpened hend rfl (by simp [Event.isSolid]))
      (.nil le_rfl)

/-- The events of a template lie between its start and its end, and then the end is reported. -/
lemma events_between (template : List Char) :
    ∃ reported, events template = reported ++ [.finish] ∧
      Between template 0 reported (byteLength template) := by
  obtain ⟨scanner, reported, hreached, htrace⟩ := exists_reached_end template
  obtain ⟨hbetween, hmarked⟩ := hreached.between
  obtain ⟨last, hfinish, hlast⟩ := hmarked.finish
  refine ⟨_, ?_, hbetween.append hlast⟩
  rw [← trace_map_snd, htrace, hfinish]
  simp [Function.comp_def]

end Runs

/-! ### Names and look-ahead -/

/-- The name of the tag that the event opens. -/
def Event.openedName? : Event → Option Span
  | .openName name => some name
  | _ => none

/-- The name that was opened last. -/
def lastName? (events : List Event) : Option Span :=
  (events.filterMap Event.openedName?).getLast?

/-- The name that was opened last is that of the last event, if it opens one. -/
lemma lastName?_concat (events : List Event) (event : Event) :
    lastName? (events ++ [event]) = event.openedName?.or (lastName? events) := by
  cases hname : event.openedName? <;> simp [lastName?, hname]

/-- The name of the tag that a place belongs to. -/
def Place.name? : Place → Option Span
  | .outside => none
  | .tag name | .named name | .valued name | .raw name | .rawEnd name => some name

/-- Behind an event, the tag of the place is still the one that was opened last. -/
lemma Next.lastName? {template : List Char} {place next : Place} {mode : Mode} {event : Event}
    {events : List Event} (h : Next template place (mode, event) next)
    (hplace : ∀ name ∈ place.name?, lastName? events = some name) :
    ∀ name ∈ next.name?, lastName? (events ++ [event]) = some name := by
  intro name hname
  rw [lastName?_concat]
  cases h with
  | text | mustache | comment | close | selfClose | rawClose => cases hname
  | openName => exact hname
  | openEnd =>
    unfold Place.content at hname
    split_ifs at hname
    · exact hplace name hname
    · cases hname
  | attributeName | attributeValue | bareEnd | valueEnd | rawText => exact hplace name hname

/-- The name of the place that events lead to is the one that was opened last. -/
lemma Follows.lastName? {template : List Char} {first last : Place}
    {entries : List (Mode × Event)} (events : List Event)
    (h : Follows template first entries last)
    (hfirst : ∀ name ∈ first.name?, lastName? events = some name) :
    ∀ name ∈ last.name?, lastName? (events ++ entries.map Prod.snd) = some name := by
  induction h generalizing events with
  | nil => simpa using hfirst
  | @cons _ _ _ entry entries hnext _ ih =>
    have hlast := ih _ (hnext.lastName? hfirst)
    simpa using hlast

/-- A closing tag of the name starts at the position of the template: `</`, the name in any case,
and then what ends a name or the end of the template. -/
def ClosesAt (template : List Char) (position : Nat) (name : List Char) : Prop :=
  Span.slice? ⟨position, position + 2⟩ template = some ['<', '/'] ∧
    ∃ spelling, equalIgnoringCase spelling name = true ∧
      Span.slice? ⟨position + 2, position + 2 + byteLength name⟩ template = some spelling ∧
      (position + 2 + byteLength name = byteLength template ∨
        ∃ c, endsTagName c = true ∧ Span.slice? ⟨position + 2 + byteLength name,
          position + 2 + byteLength name + 1⟩ template = some [c])

/-- A character that ends the name of a tag takes up one byte. -/
lemma utf8Size_of_endsTagName {c : Char} (h : endsTagName c = true) : c.utf8Size = 1 := by
  simp only [endsTagName, Bool.or_eq_true] at h
  obtain (hslash | hgt) | hblank := h
  · exact Scanner.utf8Size_of_beq hslash rfl
  · exact Scanner.utf8Size_of_beq hgt rfl
  · exact Scanner.utf8Size_of_isMarkupBlank hblank

/-- A closing tag starts at a position exactly if the text from there on closes raw text. -/
lemma closesAt_iff {before text name : List Char} :
    ClosesAt (before ++ text) (byteLength before) name ↔
      ∃ more, text = '<' :: more ∧ closesRawText name more = true := by
  have hbehind : byteLength before + 2 = byteLength (before ++ ['<', '/']) := by
    rw [byteLength_append]
    rfl
  unfold ClosesAt
  simp only [Scanner.closesRawText_iff]
  constructor
  · rintro ⟨hopen, spelling, hname, hspelling, hend⟩
    obtain ⟨⟨text, rfl⟩, _⟩ := slice?_append_eq_some_iff.1 hopen
    -- Each slice starts where the one before it stops.
    rw [hbehind, ← List.append_assoc] at hspelling hend
    obtain ⟨⟨rest, rfl⟩, hlength⟩ := slice?_append_eq_some_iff.1 hspelling
    refine ⟨_, rfl, spelling, rest, rfl, hname, ?_⟩
    rcases hend with hend | ⟨c, hc, hnext⟩
    · have hrest : rest = [] := by
        refine eq_nil_of_byteLength_eq_zero ?_
        simp only [byteLength_append] at hend
        omega
      simp [hrest]
    · rw [← hlength, ← byteLength_append, ← List.append_assoc _ spelling rest] at hnext
      obtain ⟨⟨after, rfl⟩, _⟩ := slice?_append_eq_some_iff.1 hnext
      simpa using hc
  · rintro ⟨_, rfl, spelling, rest, rfl, hname, hend⟩
    have hlength := byteLength_of_equalIgnoringCase hname
    have hsplit : before ++ '<' :: ('/' :: spelling ++ rest) =
        (before ++ ['<', '/']) ++ (spelling ++ rest) := by simp
    refine ⟨slice?_append_eq_some_iff.2 ⟨⟨spelling ++ rest, rfl⟩, rfl⟩, spelling, hname, ?_, ?_⟩
    · rw [hbehind, hsplit]
      exact slice?_append_eq_some_iff.2 ⟨⟨rest, rfl⟩, hlength⟩
    · rw [hbehind, hsplit, ← List.append_assoc, ← hlength, ← byteLength_append]
      cases rest with
      | nil => exact .inl (by simp)
      | cons c after =>
        have hc : endsTagName c = true := hend c rfl
        refine .inr ⟨c, hc, slice?_append_eq_some_iff.2 ⟨⟨after, rfl⟩, ?_⟩⟩
        simp [utf8Size_of_endsTagName hc]

/-- What the scanner takes from the template beyond the next character lies in the template: the
name it keeps is that of a span, and it finds the end of a comment and of raw text where the
template has them. -/
structure LooksInside (template before : List Char) (scanner : Scanner) (reported : List Event)
    (c : Char) (rest : List Char) : Prop where
  tagName : scanner.mode = .tagName →
    Span.slice? ⟨scanner.start, byteLength before⟩ template = some scanner.tag.reverse
  lastName : scanner.mode.isInTag = true ∨ scanner.mode = .rawText →
    ∃ name, lastName? reported = some name ∧ name.slice? template = some scanner.tag.reverse
  comment : scanner.mode = .comment →
    ((scanner.step (byteLength before) c rest).1.mode = .commentEnd ↔
      Span.slice? ⟨byteLength before, byteLength before + 3⟩ template = some "-->".toList)
  rawText : scanner.mode = .rawText →
    ((scanner.step (byteLength before) c rest).1.mode = .beforeTag ↔
      ClosesAt template (byteLength before) scanner.tag.reverse)

section LookAhead

variable {template before rest : List Char} {scanner : Scanner} {reported : List (Mode × Event)}
  {place : Place}

/-- In the name of a tag, the scanner remembers what it has read of it. -/
lemma Stands.tagName_slice? (h : Stands template before scanner rest place)
    (htemplate : before ++ rest = template) (hmode : scanner.mode.region = .tagName) :
    Span.slice? ⟨scanner.start, byteLength before⟩ template = some scanner.tag.reverse := by
  cases h with
  | tagName front _ hbefore hstart =>
    rw [hstart, ← htemplate, hbefore, byteLength_append, List.append_assoc]
    exact Span.slice?_append front scanner.tag.reverse rest
  | outside hregion | tag hregion | named hregion => cases hmode.symm.trans hregion
  | rawText hraw =>
    rw [hraw] at hmode
    cases hmode
  | closing hplace hclosing => cases hmode.symm.trans hclosing.region

/-- In a tag and in raw text, the scanner remembers the name of the tag. -/
lemma Stands.name_slice? (h : Stands template before scanner rest place)
    (hmode : scanner.mode.isInTag = true ∨ scanner.mode = .rawText) :
    ∃ name, place.name? = some name ∧ name.slice? template = some scanner.tag.reverse := by
  have hinside : scanner.mode.region ≠ .outside ∧ scanner.mode.region ≠ .tagName := by
    rcases hmode with htag | hraw
    · simp only [Mode.isInTag, Bool.or_eq_true, beq_iff_eq] at htag
      rcases htag with hregion | hregion <;> simp [hregion]
    · simp [hraw, Mode.region]
  cases h with
  | tag _ hname | named _ hname | rawText _ hname => exact ⟨_, rfl, hname⟩
  | outside hregion => exact absurd hregion hinside.1
  | tagName _ htag => exact absurd (by rw [htag]; rfl) hinside.2
  | closing hplace hclosing => exact absurd hclosing.region hinside.1

/-- A comment ends exactly where the template goes on with its closing mark. -/
lemma comment_ends_iff {c : Char} (position : Nat) (hmode : scanner.mode = .comment) :
    (scanner.step position c rest).1.mode = .commentEnd ↔ "-->".toList <+: c :: rest := by
  obtain ⟨mode, start, tag⟩ := scanner
  cases hmode
  have hmark : (c == '-' && (dropStart? ['-', '>'] rest).isSome) = true ↔
      "-->".toList <+: c :: rest := by
    have hrest : (dropStart? ['-', '>'] rest).isSome = true ↔ ['-', '>'] <+: rest := by
      rw [Option.isSome_iff_exists]
      exact exists_congr fun _ => dropStart?_eq_some_iff.trans eq_comm
    rw [Bool.and_eq_true, beq_iff_eq, hrest, eq_comm]
    exact List.cons_prefix_cons.symm
  simp only [Scanner.step]
  split_ifs with hends
  · simpa using hmark.1 hends
  · simpa using fun h => hends (hmark.2 h)

/-- Raw text ends exactly where the template goes on with the closing tag of the element. -/
lemma rawText_ends_iff {c : Char} (position : Nat) (hmode : scanner.mode = .rawText) :
    (scanner.step position c rest).1.mode = .beforeTag ↔
      ∃ more, c :: rest = '<' :: more ∧ closesRawText scanner.tag.reverse more = true := by
  obtain ⟨mode, start, tag⟩ := scanner
  cases hmode
  simp only [Scanner.step]
  split_ifs with hends
  · simp only [Bool.and_eq_true, beq_iff_eq] at hends
    simpa using hends
  · simpa using hends

/-- Wherever a scan stands, what it looks at lies in the template. -/
lemma Reached.looksInside {c : Char} (h : Reached template before scanner reported (c :: rest)) :
    LooksInside template before scanner (reported.map Prod.snd) c rest := by
  obtain ⟨place, hfollows, hstands⟩ := h.stands
  have htemplate := h.append_eq
  refine ⟨?_, ?_, ?_, ?_⟩
  · intro hmode
    exact hstands.tagName_slice? htemplate (by rw [hmode]; rfl)
  · intro hmode
    obtain ⟨name, hplace, hname⟩ := hstands.name_slice? hmode
    exact ⟨name, hfollows.lastName? [] nofun name hplace, hname⟩
  · intro hmode
    rw [comment_ends_iff _ hmode, ← htemplate, slice?_append_eq_some_iff]
    exact (and_iff_left rfl).symm
  · intro hmode
    rw [rawText_ends_iff _ hmode, ← htemplate, closesAt_iff]

end LookAhead

/-- Every event covers a span of the template that is cut at characters and has a text, later events
cover later spans, and wherever a scan stands it looks at the template only inside of it. -/
theorem events_spans (template : List Char) :
    (∀ event ∈ events template, ∀ span, event.extent? = some span →
      Covers template event span ∧ span.stop ≤ byteLength template ∧
        ∃ part, span.slice? template = some part) ∧
    ((events template).filterMap Event.extent?).Pairwise
      (fun first second => first.stop ≤ second.start) ∧
    (∀ before scanner reported c rest, Reached template before scanner reported (c :: rest) →
      LooksInside template before scanner (reported.map Prod.snd) c rest) := by
  obtain ⟨reported, hevents, hbetween⟩ := events_between template
  refine ⟨?_, ?_, fun _ _ _ _ _ => Reached.looksInside⟩
  · intro event hevent span hspan
    rw [hevents] at hevent
    rcases List.mem_append.1 hevent with hevent | hevent
    · obtain ⟨span', hcovers, _, hstop⟩ := hbetween.covers event hevent
      cases hspan.symm.trans hcovers.extent
      exact ⟨hcovers, hstop, exists_slice? hcovers.le hcovers.start hcovers.stop⟩
    · cases List.mem_singleton.1 hevent
      cases hspan
  · rw [hevents, List.filterMap_append, List.filterMap_cons_none rfl, List.filterMap_nil,
      List.append_nil]
    exact hbetween.pairwise

/-- A comment with a character of two bytes. -/
theorem events_spans_comment :
    Event.comment ⟨4, 6⟩ ∈ events "<!--é-->".toList ∧
    Reached "<!--é-->".toList "<!--é".toList ⟨.comment, 4, []⟩ [] "-->".toList ∧
    Covers "<!--é-->".toList (.comment ⟨4, 6⟩) ⟨4, 6⟩ ∧
    LooksInside "<!--é-->".toList "<!--é".toList ⟨.comment, 4, []⟩ [] '-' "->".toList := by
  have hevent : Event.comment ⟨4, 6⟩ ∈ events "<!--é-->".toList := by decide
  have hreached : Reached "<!--é-->".toList "<!--é".toList ⟨.comment, 4, []⟩ [] "-->".toList :=
    Reached.start.step.step.step.step.step
  have hcovers := (events_spans _).1 _ hevent _ rfl
  exact ⟨hevent, hreached, hcovers.1, (events_spans _).2.2 _ _ _ _ _ hreached⟩

end Markup

end ComponentApi
