import ComponentApi.Proofs.Markup.Sections
import ComponentApi.Proofs.Markup.Fragment

/-!
# Reading an opening tag

Behind the name of a tag, and behind each attribute, the scanner may still owe events: the name of
the tag, the name of a bare attribute and a value without quotes are reported when the next
character is read, and the end of a bare attribute only where the next thing starts. `BeforeGap`
states what is owed. The lemmas for values and attributes lead from one such place to the next, and
`BeforeGap.reads_tag` reads a whole tag by an induction over its attributes.
-/

namespace ComponentApi.Markup

open Text

namespace Scanner

variable {scanner last : Scanner} {position start : Nat} {late : Bool} {c : Char}
  {text after tag : List Char} {events : List Event}

/-- The mode between two attributes, or between a bare attribute and what may be its value. -/
def between (late : Bool) : Mode :=
  if late then .afterAttribute else .beforeAttribute

/-- The mode for the content of a tag. -/
def contentMode (tag : List Char) : Mode :=
  if isRawTextTag tag.reverse then .rawText else .text

/-- The scanner stands behind the name of a tag or behind an attribute. It owes the events, and the
end of a bare attribute if that is late. -/
structure BeforeGap (scanner : Scanner) (position : Nat) (events : List Event) (late : Bool)
    (tag : List Char) : Prop where
  blank : ∀ c rest, isMarkupBlank c = true →
    ∃ start, scanner.step position c rest = (⟨between late, start, tag⟩, events)
  close : ∀ rest, scanner.step position '>' rest =
    (⟨contentMode tag, position + 1, tag⟩,
      events ++ Piece.eventsFrom position (lateEnd late) ++ [.openEnd position])

/-! ### Where a gap may start -/

/-- A blank is none of the characters that mean something in a tag. -/
lemma ne_of_isMarkupBlank (h : isMarkupBlank c = true) :
    c ≠ '>' ∧ c ≠ '/' ∧ c ≠ '\x7b' ∧ c ≠ '=' := by
  refine ⟨?_, ?_, ?_, ?_⟩ <;> rintro rfl <;> cases h

/-- Between attributes, a blank reports nothing. -/
lemma inTag_blank (scanner : Scanner) (position : Nat) (h : isMarkupBlank c = true) :
    scanner.inTag position c = ({ scanner with mode := .beforeAttribute }, []) := by
  obtain ⟨hgt, hslash, hbrace, _⟩ := ne_of_isMarkupBlank h
  simp [inTag, hgt, hslash, hbrace, h]

/-- Between attributes, a closing bracket ends the tag, and its content comes next. -/
lemma inTag_close (scanner : Scanner) (position : Nat) :
    scanner.inTag position '>' =
      (⟨contentMode scanner.tag, position + 1, scanner.tag⟩, [.openEnd position]) := rfl

/-- Between attributes, nothing is owed in front of a gap. -/
lemma beforeGap_beforeAttribute :
    BeforeGap ⟨.beforeAttribute, start, tag⟩ position [] false tag where
  blank c rest h := ⟨start, by simp [step, inTag_blank _ _ h, between]⟩
  close rest := by simp [step, inTag_close, lateEnd]

/-- Behind the name of a tag, the name is owed in front of a gap. -/
lemma beforeGap_tagName :
    BeforeGap ⟨.tagName, start, tag⟩ position [.openName ⟨start, position⟩] false tag where
  blank c rest h := ⟨position, by simp [step, endsTagName, h, inTag_blank _ _ h, between]⟩
  close rest := by simp [step, endsTagName, inTag_close, lateEnd]

/-- Behind the name of an attribute, the name is owed in front of a gap. -/
lemma beforeGap_attributeName :
    BeforeGap ⟨.attributeName, start, tag⟩ position [.attributeName ⟨start, position⟩] true
      tag where
  blank c rest h := by
    obtain ⟨_, _, _, heq⟩ := ne_of_isMarkupBlank h
    exact ⟨position, by simp [step, endsTagName, afterName, h, heq, between]⟩
  close rest := by
    simp [step, endsTagName, afterName, isMarkupBlank, inTag_close, lateEnd,
      Piece.event?]

/-- Behind a value without quotes, the value is owed in front of a gap. -/
lemma beforeGap_unquoted (h : start < position) :
    BeforeGap ⟨.unquoted, start, tag⟩ position
      [.attributeValue ⟨start, position⟩, .attributeEnd .unquoted position] false tag where
  blank c rest hblank :=
    ⟨position + 1, by simp [step, inUnquoted, valueEvents, enter, hblank, h,
      inTag_blank _ _ hblank, between]⟩
  close rest := by
    simp [step, inUnquoted, valueEvents, enter, inTag_close, h, lateEnd]

/-! ### Gaps and what follows them -/

/-- More blanks change nothing between two attributes. -/
lemma reads_between (h : ∀ c ∈ text, isMarkupBlank c = true) :
    Reads ⟨between late, start, tag⟩ position text after [] ⟨between late, start, tag⟩ := by
  apply Reads.loop
  intro c hc position rest
  have hblank := h c hc
  obtain ⟨_, _, _, heq⟩ := ne_of_isMarkupBlank hblank
  cases late with
  | false => simp [between, step, inTag_blank _ _ hblank]
  | true => simp [between, step, afterName, hblank, heq]

/-- In a gap the scanner reports what it owes, except for a late end. -/
lemma BeforeGap.reads (h : BeforeGap scanner position events late tag) (gap : Gap)
    (after : List Char) :
    ∃ start, Reads scanner position gap.text after events ⟨between late, start, tag⟩ := by
  obtain ⟨text, hne, hblank⟩ := gap
  cases text with
  | nil => exact absurd rfl hne
  | cons c text =>
    obtain ⟨start, hstep⟩ := h.blank c (text ++ after) (hblank c List.mem_cons_self)
    refine ⟨start, ?_⟩
    have hrest : Reads ⟨between late, start, tag⟩ (position + c.utf8Size) text after []
        ⟨between late, start, tag⟩ :=
      reads_between fun c hc => hblank c (List.mem_cons_of_mem _ hc)
    simpa using Reads.cons hstep hrest

/-- The first character behind a gap brings the late end of a bare attribute. -/
lemma step_between (hblank : isMarkupBlank c = false) (heq : c ≠ '=') (rest : List Char) :
    step ⟨between late, start, tag⟩ position c rest =
      ((inTag ⟨between late, start, tag⟩ position c).1,
        Piece.eventsFrom position (lateEnd late) ++
          (inTag ⟨between late, start, tag⟩ position c).2) := by
  cases late with
  | false => rfl
  | true => simp [between, step, afterName, hblank, heq, lateEnd, Piece.event?]

/-! ### Values and attributes -/

/-- The scanner reads the pieces up to where a gap may start. Of the events `before`, which were
outstanding, and the events of the pieces, it has reported some and owes the others. -/
def ReadsUpToGap (scanner : Scanner) (position : Nat) (before : List Event) (pieces : List Piece)
    (late : Bool) (tag : List Char) : Prop :=
  ∃ reported owed last,
    (∀ after, Reads scanner position (Piece.printAll pieces) after reported last) ∧
    BeforeGap last (position + byteLength (Piece.printAll pieces)) owed late tag ∧
    reported ++ owed = before ++ Piece.eventsFrom position pieces

/-- Pieces are read up to a gap if what is reported and what is owed are their events. -/
lemma readsUpToGap_of {before reported owed : List Event} {pieces : List Piece}
    (hprint : Piece.printAll pieces = text)
    (hread : ∀ after, Reads scanner position text after reported last)
    (hgap : BeforeGap last (position + byteLength text) owed late tag)
    (hevents : reported ++ owed = before ++ Piece.eventsFrom position pieces) :
    ReadsUpToGap scanner position before pieces late tag := by
  subst hprint
  exact ⟨reported, owed, last, hread, hgap, hevents⟩

/-- The events of a value that ends at the position are those of its pieces. -/
lemma valueEvents_eq (mode : Mode) (start : Nat) (tag text : List Char) (quote : Quote) :
    valueEvents ⟨mode, start, tag⟩ quote (start + byteLength text) =
      Piece.eventsFrom start (Piece.unlessEmpty .attributeValue text ++ [.attributeEnd quote]) := by
  cases text with
  | nil => simp [valueEvents, Piece.unlessEmpty, Piece.event?]
  | cons c text =>
    have hpos : 0 < c.utf8Size + byteLength text := Nat.add_pos_left c.utf8Size_pos _
    simp [valueEvents, Piece.unlessEmpty, Piece.event?, Piece.print, hpos]

/-- A value in quotes is read up to the gap behind it. -/
lemma readsUpToGap_quoted {mode : Mode} {mark : Char} {quote : Quote}
    (hmode : QuotedMode mode mark quote) (h : mark ∉ text) :
    ReadsUpToGap ⟨.beforeValue, start, tag⟩ position [] (quotedPieces mark quote text) false
      tag := by
  have hvalue : Piece.printAll (Piece.unlessEmpty .attributeValue text) = text :=
    Piece.printAll_unlessEmpty (fun _ => rfl) text
  have hprint : Piece.printAll (quotedPieces mark quote text) = mark :: text ++ [mark] := by
    simp [quotedPieces, hvalue, Piece.print]
  refine readsUpToGap_of hprint (fun _ => reads_quoted hmode h) beforeGap_beforeAttribute ?_
  rw [List.append_nil, valueEvents_eq]
  simp [quotedPieces, Piece.event?, Piece.print, hmode.size]

/-- An expression in braces is read up to the brace that closes it. -/
lemma reads_enclosed {mode : Braces → Mode} (hmode : FollowsBraces mode) (inside : Enclosed)
    (hclose : ∀ braces rest, braces.feed '\x7d' = none →
      step ⟨mode braces, start, tag⟩ (position + byteLength inside.text) '\x7d' rest =
        (last, events)) :
    Reads ⟨mode .opened, start, tag⟩ position (inside.text ++ ['\x7d']) after events last := by
  obtain ⟨text, braces, hfeed, hdepth, hquote⟩ := inside
  have hinside : Reads ⟨mode .opened, start, tag⟩ position text (['\x7d'] ++ after) []
      ⟨mode braces, start, tag⟩ := reads_braces hmode hfeed
  exact hinside.append (Reads.char (hclose braces after (feed_close hdepth hquote)))

/-- An attribute or a value in braces is reported with its braces. -/
lemma reads_withBraces {mode : Braces → Mode} {report : Span → Event} {quote : Quote}
    (hmode : FollowsBraces mode) (inside : Enclosed)
    (hopen : ∀ rest, scanner.step position '\x7b' rest = (⟨mode .opened, position, tag⟩, events))
    (hclose : ∀ braces start stop rest, braces.feed '\x7d' = none →
      step ⟨mode braces, start, tag⟩ stop '\x7d' rest = (⟨.beforeAttribute, stop + 1, tag⟩,
        [report ⟨start, stop + 1⟩, .attributeEnd quote (stop + 1)])) :
    Reads scanner position inside.withBraces after
      (events ++ [report ⟨position, position + byteLength inside.withBraces⟩,
        .attributeEnd quote (position + byteLength inside.withBraces)])
      ⟨.beforeAttribute, position + byteLength inside.withBraces, tag⟩ := by
  have hstop : position + byteLength inside.withBraces =
      position + 1 + byteLength inside.text + 1 := by
    simp [Enclosed.withBraces, Char.utf8Size]
    omega
  rw [hstop]
  refine Reads.cons (hopen _) (reads_enclosed hmode inside ?_)
  intro braces rest hfeed
  exact hclose braces position _ rest hfeed

/-- A value is read up to the gap behind it, in whichever way it is written. -/
lemma readsUpToGap_value (value : AttributeValue) :
    ReadsUpToGap ⟨.beforeValue, start, tag⟩ position [] value.pieces false tag := by
  cases value with
  | double text hplain => exact readsUpToGap_quoted quotedMode_double hplain
  | single text hplain => exact readsUpToGap_quoted quotedMode_single hplain
  | unquoted text hne hstart hplain =>
    cases text with
    | nil => exact absurd rfl hne
    | cons c text =>
      obtain ⟨hblank, hgt⟩ := hplain c List.mem_cons_self
      have hquotes : c ≠ '"' ∧ c ≠ '\'' ∧ c ≠ '\x7b' := by simpa using hstart
      have hopen : ∀ rest, step ⟨.beforeValue, start, tag⟩ position c rest =
          (⟨.unquoted, position, tag⟩, []) := by
        intro rest
        simp [step, inUnquoted, hblank, hgt, hquotes]
      have hpos : position < position + byteLength (c :: text) :=
        Nat.lt_add_of_pos_right (Nat.add_pos_left c.utf8Size_pos _)
      refine readsUpToGap_of ?_ (fun after => Reads.skip (hopen _) (reads_unquoted ?_))
        (beforeGap_unquoted hpos) ?_
      · simp [AttributeValue.pieces, Piece.print]
      · exact fun c hc => hplain c (List.mem_cons_of_mem _ hc)
      · simp [AttributeValue.pieces, Piece.event?, Piece.print]
  | brace inside =>
    have hclose : ∀ braces start stop rest, braces.feed '\x7d' = none →
        step ⟨.braceValue braces, start, tag⟩ stop '\x7d' rest = (⟨.beforeAttribute, stop + 1, tag⟩,
          [.attributeValue ⟨start, stop + 1⟩, .attributeEnd .brace (stop + 1)]) := by
      intro braces start stop rest hfeed
      simp [step, hfeed, enter]
    refine readsUpToGap_of ?_
      (fun _ => reads_withBraces followsBraces_braceValue inside (fun _ => rfl) hclose)
      beforeGap_beforeAttribute ?_
    · simp [AttributeValue.pieces, Piece.print]
    · simp [AttributeValue.pieces, Piece.event?, Piece.print]

/-- The name of an attribute is reported later, the late end of the attribute before it at once. -/
lemma reads_name (name : AttributeName) :
    Reads ⟨between late, start, tag⟩ position name.text after
      (Piece.eventsFrom position (lateEnd late)) ⟨.attributeName, position, tag⟩ := by
  obtain ⟨text, hne, hbrace, hplain⟩ := name
  cases text with
  | nil => exact absurd rfl hne
  | cons c text =>
    obtain ⟨heq, hend⟩ := hplain c List.mem_cons_self
    have hchar : c ≠ '/' ∧ c ≠ '>' ∧ isMarkupBlank c = false := by
      simpa [endsTagName, and_assoc] using hend
    have hbrace' : c ≠ '\x7b' := by simpa using hbrace
    have hopen : ∀ rest, step ⟨between late, start, tag⟩ position c rest =
        (⟨.attributeName, position, tag⟩, Piece.eventsFrom position (lateEnd late)) := by
      intro rest
      rw [step_between hchar.2.2 heq]
      simp [inTag, hchar, hbrace']
    have hrest : Reads ⟨.attributeName, position, tag⟩ (position + c.utf8Size) text after []
        ⟨.attributeName, position, tag⟩ :=
      reads_attributeName fun c hc => hplain c (List.mem_cons_of_mem _ hc)
    simpa using Reads.cons (hopen _) hrest

/-- An attribute is read up to the gap behind it. -/
lemma readsUpToGap_attribute (item : TagAttribute) :
    ReadsUpToGap ⟨between late, start, tag⟩ position (Piece.eventsFrom position (lateEnd late))
      item.pieces item.endsLate tag := by
  cases item with
  | bare name =>
    refine readsUpToGap_of ?_ (fun _ => reads_name name) beforeGap_attributeName ?_
    · simp [TagAttribute.pieces, Piece.print]
    · simp [TagAttribute.pieces, Piece.event?]
  | valued name value =>
    have hequals : ∀ stop rest, step ⟨.attributeName, position, tag⟩ stop '=' rest =
        (⟨.beforeValue, stop, tag⟩, [.attributeName ⟨position, stop⟩]) := fun _ _ => rfl
    obtain ⟨reported, owed, last, hread, hgap, hevents⟩ :
        ReadsUpToGap ⟨.beforeValue, position + byteLength name.text, tag⟩
          (position + byteLength name.text + 1) [] value.pieces false tag :=
      readsUpToGap_value value
    have hstop : position + byteLength name.text + 1 + byteLength (Piece.printAll value.pieces) =
        position + byteLength (name.text ++ '=' :: Piece.printAll value.pieces) := by
      simp [Char.utf8Size, Nat.add_assoc]
    rw [hstop] at hgap
    refine readsUpToGap_of ?_
      (fun after => (reads_name name).append (Reads.cons (hequals _ _) (hread after))) hgap ?_
    · simp [TagAttribute.pieces, Piece.print]
    · rw [List.append_assoc, List.append_assoc, hevents]
      simp [TagAttribute.pieces, Piece.event?, Piece.print, Char.utf8Size]
  | shorthand inside =>
    have hclose : ∀ braces start stop rest, braces.feed '\x7d' = none →
        step ⟨.shorthand braces, start, tag⟩ stop '\x7d' rest = (⟨.beforeAttribute, stop + 1, tag⟩,
          [.attributeName ⟨start, stop + 1⟩, .attributeEnd .noValue (stop + 1)]) := by
      intro braces start stop rest hfeed
      simp [step, hfeed, enter]
    have hopen : ∀ rest, step ⟨between late, start, tag⟩ position '\x7b' rest =
        (⟨.shorthand .opened, position, tag⟩, Piece.eventsFrom position (lateEnd late)) := by
      intro rest
      rw [step_between rfl (by decide)]
      simp [inTag]
    refine readsUpToGap_of ?_
      (fun _ => reads_withBraces followsBraces_shorthand inside hopen hclose)
      beforeGap_beforeAttribute ?_
    · simp [TagAttribute.pieces, Piece.print]
    · simp [TagAttribute.pieces, Piece.event?, Piece.print]

/-! ### Tags -/

/-- The scanner reads the pieces and reports the events `before`, which were outstanding, and all of
theirs. Behind the pieces it starts a section in the mode. -/
def ReadsPieces (scanner : Scanner) (position : Nat) (before : List Event) (pieces : List Piece)
    (after : List Char) (mode : Mode) (tag : List Char) : Prop :=
  Reads scanner position (Piece.printAll pieces) after
    (before ++ Piece.eventsFrom position pieces)
    ⟨mode, position + byteLength (Piece.printAll pieces), tag⟩

/-- Pieces are read if what is reported are their events. -/
lemma readsPieces_of {before : List Event} {pieces : List Piece} {mode : Mode} {stop : Nat}
    (hprint : Piece.printAll pieces = text)
    (hread : Reads scanner position text after events ⟨mode, stop, tag⟩)
    (hstop : stop = position + byteLength text)
    (hevents : events = before ++ Piece.eventsFrom position pieces) :
    ReadsPieces scanner position before pieces after mode tag := by
  subst hprint hstop hevents
  exact hread

/-- Pieces are read one after the other. -/
lemma ReadsPieces.append {before : List Event} {pieces more : List Piece} {mode mode' : Mode}
    {tag' : List Char}
    (hpieces : ReadsPieces scanner position before pieces (Piece.printAll more ++ after) mode tag)
    (hmore : ReadsPieces ⟨mode, position + byteLength (Piece.printAll pieces), tag⟩
      (position + byteLength (Piece.printAll pieces)) [] more after mode' tag') :
    ReadsPieces scanner position before (pieces ++ more) after mode' tag' := by
  have hread := Reads.append hpieces hmore
  show Reads _ _ _ _ _ _
  simpa [Nat.add_assoc] using hread

/-- The mode after an opening tag. -/
def modeAfter (tag : List Char) : Ending → Mode
  | .open => contentMode tag
  | .selfClosing _ => .text

/-- The end of an attribute that is reported late prints nothing. -/
@[simp] lemma printAll_lateEnd (late : Bool) : Piece.printAll (lateEnd late) = [] := by
  cases late <;> rfl

/-- From where a gap may start, the scanner reads the rest of an opening tag and reports all that it
owes. -/
lemma BeforeGap.reads_tag (h : BeforeGap scanner position events late tag)
    (attributes : List (Gap × TagAttribute)) (ending : Ending) (after : List Char) :
    ReadsPieces scanner position events (tagPieces late attributes ending) after
      (modeAfter tag ending) tag := by
  unfold ReadsPieces
  induction attributes generalizing scanner position events late with
  | nil =>
    cases ending with
    | «open» =>
      have hread := Reads.char (h.close after)
      simpa [tagPieces, modeAfter, Piece.print, Piece.event?, Char.utf8Size] using hread
    | selfClosing gap =>
      obtain ⟨start, hgap⟩ := h.reads gap (['/', '>'] ++ after)
      have hslash : ∀ stop rest, step ⟨between late, start, tag⟩ stop '/' rest =
          (⟨.selfClosing, start, tag⟩, Piece.eventsFrom stop (lateEnd late)) := by
        intro stop rest
        rw [step_between rfl (by decide)]
        simp [inTag]
      have hclose : ∀ stop rest, step ⟨.selfClosing, start, tag⟩ stop '>' rest =
          (⟨.text, stop + 1, tag⟩, [.selfClose stop]) := fun _ _ => rfl
      have hread := hgap.append (Reads.cons (hslash _ _) (Reads.char (hclose _ _)))
      simpa [tagPieces, modeAfter, Piece.print, Piece.event?, Char.utf8Size, Nat.add_assoc]
        using hread
  | cons entry rest ih =>
    obtain ⟨gap, item⟩ := entry
    obtain ⟨start, hgap⟩ := h.reads gap (Piece.printAll item.pieces ++
      Piece.printAll (tagPieces item.endsLate rest ending) ++ after)
    obtain ⟨reported, owed, last, hitem, hnext, hevents⟩ :
        ReadsUpToGap ⟨between late, start, tag⟩ (position + byteLength gap.text) _ item.pieces
          item.endsLate tag := readsUpToGap_attribute item
    have hread := hgap.append ((hitem _).append (ih hnext))
    -- What the attribute leaves owed is reported when the rest of the tag is read.
    have hreported : events ++ (reported ++ (owed ++
        Piece.eventsFrom (position + byteLength gap.text + byteLength (Piece.printAll item.pieces))
          (tagPieces item.endsLate rest ending))) =
        events ++ Piece.eventsFrom position (tagPieces late ((gap, item) :: rest) ending) := by
      rw [← List.append_assoc reported, hevents]
      simp [tagPieces, Piece.print, Piece.event?]
    rw [hreported] at hread
    simpa [tagPieces, Piece.print, Nat.add_assoc] using hread

end Scanner

end ComponentApi.Markup
