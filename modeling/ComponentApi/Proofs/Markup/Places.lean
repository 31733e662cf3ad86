import ComponentApi.Proofs.Markup.Sections
import ComponentApi.Proofs.Markup.Trace

/-!
# The order of events

Which event can come next depends on where the events before it lead: outside of tags, between the
attributes of an opening tag, inside an attribute, or in the content of an element with raw text.
`Next` is this rule as a relation on such places, and `Follows` its closure over a list of events.

The scanner keeps to the rule. `Stands` says how the scanner can stand when the events so far lead
to a place; each of its steps reports events that lead on to a place where it stands again
(`Stands.step`). So the events of every template follow the rule (`Reached.stands`).
-/

namespace ComponentApi.Markup

open Text

/-- Where events lead to. -/
inductive Place where
  | outside
  /-- In the opening tag of the name, between its attributes. -/
  | tag (name : Span)
  /-- Behind the name of an attribute. -/
  | named (name : Span)
  /-- Behind the value of an attribute. -/
  | valued (name : Span)
  /-- In an element with raw text, before its content. -/
  | raw (name : Span)
  /-- In an element with raw text, behind its content. -/
  | rawEnd (name : Span)

/-- The name of a closing tag up to the first slash. -/
def closingName (text : List Char) : List Char :=
  text.takeWhile (· != '/')

/-- The place behind an opening tag. -/
def Place.content (template : List Char) (name : Span) : Place :=
  if isRawTextTag (name.slice template) then .raw name else .outside

/-- Whether the place is in an opening tag, behind its name. -/
def Place.isInTag : Place → Bool
  | .tag _ | .named _ | .valued _ => true
  | .outside | .raw _ | .rawEnd _ => false

/-- The event, which is reported in the mode, leads from one place to another. -/
inductive Next (template : List Char) : Place → Mode × Event → Place → Prop
  | text {mode : Mode} {span : Span} (h : mode ≠ .rawText) :
      Next template .outside (mode, .text span) .outside
  | mustache {mode : Mode} {span : Span} : Next template .outside (mode, .mustache span) .outside
  | comment {mode : Mode} {span : Span} : Next template .outside (mode, .comment span) .outside
  | close {mode : Mode} {span : Span} : Next template .outside (mode, .close span) .outside
  | openName {mode : Mode} {name : Span} :
      Next template .outside (mode, .openName name) (.tag name)
  | attributeName {mode : Mode} {name span : Span} :
      Next template (.tag name) (mode, .attributeName span) (.named name)
  | attributeValue {mode : Mode} {name span : Span} :
      Next template (.named name) (mode, .attributeValue span) (.valued name)
  | bareEnd {mode : Mode} {name : Span} {quote : Quote} {position : Nat} (h : quote ≠ .brace) :
      Next template (.named name) (mode, .attributeEnd quote position) (.tag name)
  | valueEnd {mode : Mode} {name : Span} {quote : Quote} {position : Nat} (h : quote ≠ .noValue) :
      Next template (.valued name) (mode, .attributeEnd quote position) (.tag name)
  | openEnd {mode : Mode} {name : Span} {position : Nat} :
      Next template (.tag name) (mode, .openEnd position) (.content template name)
  | selfClose {mode : Mode} {name : Span} {position : Nat} :
      Next template (.tag name) (mode, .selfClose position) .outside
  | rawText {name span : Span} : Next template (.raw name) (.rawText, .text span) (.rawEnd name)
  | rawClose {place : Place} {mode : Mode} {name span : Span}
      (hplace : place = .raw name ∨ place = .rawEnd name)
      (hname : isRawTextTag (closingName (span.slice template)) = true) :
      Next template place (mode, .close span) .outside

/-- The events lead from one place to another. -/
inductive Follows (template : List Char) : Place → List (Mode × Event) → Place → Prop
  | nil {place : Place} : Follows template place [] place
  | cons {first middle last : Place} {entry : Mode × Event} {entries : List (Mode × Event)}
      (h : Next template first entry middle) (hrest : Follows template middle entries last) :
      Follows template first (entry :: entries) last

namespace Follows

variable {template : List Char} {first middle last : Place} {entry : Mode × Event}
  {entries more : List (Mode × Event)}

/-- Events lead on from where others lead to. -/
lemma append (h : Follows template first entries middle)
    (hmore : Follows template middle more last) :
    Follows template first (entries ++ more) last := by
  induction h with
  | nil => exact hmore
  | cons hnext _ ih => exact .cons hnext (ih hmore)

/-- Between events that follow one another there is a place. -/
lemma of_append (h : Follows template first (entries ++ more) last) :
    ∃ middle, Follows template first entries middle ∧ Follows template middle more last := by
  induction entries generalizing first with
  | nil => exact ⟨first, .nil, h⟩
  | cons entry entries ih =>
    cases h with
    | cons hnext hrest =>
      obtain ⟨middle, hentries, hmore⟩ := ih hrest
      exact ⟨middle, .cons hnext hentries, hmore⟩

end Follows

/-! ### How the scanner stands -/

/-- The parts of a template that a mode can belong to. -/
inductive Region where
  | outside
  /-- In the name of an opening tag. -/
  | tagName
  /-- In an opening tag behind its name, in an attribute at most up to its name. -/
  | tag
  /-- In an attribute behind its name. -/
  | named
  | rawText
  deriving DecidableEq

/-- The part of a template that a mode belongs to. -/
def Mode.region : Mode → Region
  | .tagName => .tagName
  | .beforeAttribute | .selfClosing | .attributeName | .shorthand _ => .tag
  | .afterAttribute | .beforeValue | .doubleQuoted | .singleQuoted | .unquoted
  | .braceValue _ => .named
  | .rawText => .rawText
  | _ => .outside

/-- Whether a mode reads an opening tag, behind its name. -/
def Mode.isInTag (mode : Mode) : Bool :=
  mode.region == .tag || mode.region == .named

/-- Whether a mode reads what is text if the template ends there. -/
def Mode.readsText : Mode → Bool
  | .text | .mustache _ | .rawText => true
  | _ => false

/-- The text starts with the name of an element with raw text, and the name ends there. -/
def StartsWithRawName (text : List Char) : Prop :=
  ∃ name after, text = name ++ after ∧ isRawTextTag name = true ∧
    ∀ c ∈ after.head?, endsTagName c = true

/-- The name of a closing tag ends at its first slash. -/
lemma closingName_append {name more : List Char} (hname : '/' ∉ name)
    (hmore : ∀ c ∈ more.head?, c = '/') : closingName (name ++ more) = name := by
  have hinside : ∀ c ∈ name, (c != '/') = true := by
    intro c hc
    simpa using ne_of_mem_of_not_mem hc hname
  rw [closingName, List.takeWhile_append_of_pos hinside]
  cases more with
  | nil => simp
  | cons c more =>
    cases hmore c rfl
    simp

/-- No element with raw text has a slash in its name. -/
lemma slash_notMem_of_isRawTextTag {name : List Char} (h : isRawTextTag name = true) :
    '/' ∉ name := by
  intro hslash
  cases Scanner.isAlpha_of_isRawTextTag h _ hslash

/-- A closing tag that starts with the name of an element with raw text has that name, up to a
slash. -/
lemma StartsWithRawName.closingName {read rest : List Char} {c : Char}
    (h : StartsWithRawName (read ++ c :: rest))
    (hplain : ∀ c ∈ read, isMarkupBlank c = false ∧ c ≠ '>') (hc : endsTagName c = true) :
    isRawTextTag (closingName read) = true := by
  obtain ⟨name, after, heq, hraw, hafter⟩ := h
  have hslash := slash_notMem_of_isRawTextTag hraw
  have hread : ∃ more, read = name ++ more ∧ ∀ c ∈ more.head?, c = '/' := by
    obtain ⟨more, rfl, hmore⟩ | ⟨more, rfl, rfl⟩ := List.append_eq_append_iff.1 heq
    · cases more with
      | nil => exact ⟨[], by simp, by simp⟩
      | cons x more =>
        -- The character behind the closing tag would be a letter of the name.
        cases hmore
        have hletter := Scanner.isAlpha_of_isRawTextTag hraw c (by simp)
        rw [Scanner.endsTagName_of_isAlpha hletter] at hc
        cases hc
    · refine ⟨more, rfl, ?_⟩
      intro x hx
      have hend : endsTagName x = true :=
        hafter x (by simp [List.head?_append, Option.mem_def.1 hx])
      obtain ⟨hblank, hgt⟩ := hplain x (List.mem_append_right _ (List.mem_of_mem_head? hx))
      simpa [endsTagName, hblank, hgt] using hend
  obtain ⟨more, rfl, hmore⟩ := hread
  rwa [closingName_append hslash hmore]

/-- The scanner reads the closing tag of an element with raw text. -/
inductive Closing (before : List Char) : Scanner → (rest : List Char) → Prop
  | bracket {scanner : Scanner} {rest : List Char} (hmode : scanner.mode = .beforeTag)
      (h : StartsWithRawName rest) : Closing before scanner ('/' :: rest)
  | slash {scanner : Scanner} {rest : List Char} (hmode : scanner.mode = .beforeClose)
      (h : StartsWithRawName rest) : Closing before scanner rest
  | name {scanner : Scanner} {rest : List Char} (front read : List Char)
      (hmode : scanner.mode = .closeName) (hbefore : before = front ++ read)
      (hstart : scanner.start = byteLength front)
      (hplain : ∀ c ∈ read, isMarkupBlank c = false ∧ c ≠ '>')
      (h : StartsWithRawName (read ++ rest)) : Closing before scanner rest

/-- The closing tag of an element with raw text is read outside of tags. -/
lemma Closing.region {before rest : List Char} {scanner : Scanner}
    (h : Closing before scanner rest) : scanner.mode.region = .outside := by
  cases h with
  | bracket hmode | slash hmode | name _ _ hmode =>
    rw [hmode]
    rfl

/-- The scanner has read `before`, `rest` is left, and the events so far lead to the place. -/
inductive Stands (template before : List Char) : Scanner → (rest : List Char) → Place → Prop
  | outside {scanner : Scanner} {rest : List Char} (h : scanner.mode.region = .outside) :
      Stands template before scanner rest .outside
  | tagName {scanner : Scanner} {rest : List Char} (front : List Char)
      (hmode : scanner.mode = .tagName)
      (hbefore : before = front ++ scanner.tag.reverse)
      (hstart : scanner.start = byteLength front) :
      Stands template before scanner rest .outside
  | tag {scanner : Scanner} {rest : List Char} {name : Span} (h : scanner.mode.region = .tag)
      (hname : name.slice? template = some scanner.tag.reverse) :
      Stands template before scanner rest (.tag name)
  | named {scanner : Scanner} {rest : List Char} {name : Span} (h : scanner.mode.region = .named)
      (hname : name.slice? template = some scanner.tag.reverse) :
      Stands template before scanner rest (.named name)
  | rawText {scanner : Scanner} {rest : List Char} {name : Span} (hmode : scanner.mode = .rawText)
      (hname : name.slice? template = some scanner.tag.reverse)
      (hraw : isRawTextTag scanner.tag.reverse = true) :
      Stands template before scanner rest (.raw name)
  | closing {scanner : Scanner} {rest : List Char} {place : Place} {name : Span}
      (hplace : place = .raw name ∨ place = .rawEnd name) (h : Closing before scanner rest) :
      Stands template before scanner rest place

/-- What the scanner reports in the mode leads on from the place, and it stands there again. -/
def Moves (template before rest : List Char) (mode : Mode) (place : Place)
    (result : Scanner × List Event) : Prop :=
  ∃ next, Follows template place (result.2.map (mode, ·)) next ∧
    Stands template before result.1 rest next

section Steps

variable {template before rest : List Char} {mode : Mode} {place next : Place} {scanner : Scanner}
  {event : Event} {events : List Event} {position : Nat} {c : Char} {name : Span}

/-- A scanner that reports nothing stays where it is. -/
lemma Moves.quiet (h : Stands template before scanner rest place) :
    Moves template before rest mode place (scanner, []) :=
  ⟨place, .nil, h⟩

/-- A reported event leads on, and further events lead on from there. -/
lemma Moves.report (hnext : Next template place (mode, event) next)
    (h : Moves template before rest mode next (scanner, events)) :
    Moves template before rest mode place (scanner, event :: events) := by
  obtain ⟨last, hfollows, hstands⟩ := h
  exact ⟨last, .cons hnext hfollows, hstands⟩

/-- Text that is reported leads nowhere else. -/
lemma Moves.pendingText (hmode : mode ≠ .rawText) (start : Scanner)
    (h : Stands template before scanner rest .outside) :
    Moves template before rest mode .outside (scanner, start.pendingText position) := by
  unfold Scanner.pendingText
  split_ifs
  · exact .report (.text hmode) (.quiet h)
  · exact .quiet h

/-- In text, the scanner stays outside of tags. -/
lemma moves_inText (hmode : mode ≠ .rawText) :
    Moves template before rest mode .outside (scanner.inText position c) := by
  unfold Scanner.inText
  split_ifs
  · exact .pendingText hmode _ (.outside rfl)
  · exact .pendingText hmode _ (.outside rfl)
  · exact .quiet (.outside rfl)

/-- Between attributes only the end of the tag is reported, and then the content is raw exactly if
the name that was reported is one of raw text. -/
lemma moves_inTag (hname : name.slice? template = some scanner.tag.reverse) :
    Moves template before rest mode (.tag name) (scanner.inTag position c) := by
  have hslice : name.slice template = scanner.tag.reverse := by simp [Span.slice, hname]
  unfold Scanner.inTag
  split_ifs with _ hraw
  · refine .report .openEnd (.quiet ?_)
    rw [Place.content, hslice, if_pos hraw]
    exact .rawText rfl hname hraw
  · refine .report .openEnd (.quiet ?_)
    rw [Place.content, hslice, if_neg hraw]
    exact .outside rfl
  · exact .quiet (.tag rfl hname)
  · exact .quiet (.tag rfl hname)
  · exact .quiet (.tag rfl hname)
  · exact .quiet (.tag rfl hname)

/-- Behind the name of an attribute, the scanner stays in the attribute or ends it. -/
lemma moves_afterName (hname : name.slice? template = some scanner.tag.reverse) :
    Moves template before rest mode (.named name) (scanner.afterName position c) := by
  unfold Scanner.afterName
  split_ifs
  · exact .quiet (.named rfl hname)
  · exact .quiet (.named rfl hname)
  · exact .report (.bareEnd (by decide)) (moves_inTag hname)

/-- A value that is reported ends its attribute. -/
lemma Moves.valueEvents (quote : Quote) (hbrace : quote ≠ .brace) (hvalue : quote ≠ .noValue)
    (start : Scanner) (h : Moves template before rest mode (.tag name) (scanner, events)) :
    Moves template before rest mode (.named name)
      (scanner, start.valueEvents quote position ++ events) := by
  unfold Scanner.valueEvents
  split_ifs
  · exact .report .attributeValue (.report (.valueEnd hvalue) h)
  · exact .report (.bareEnd hbrace) h

/-- A quote that closes a value ends its attribute. -/
lemma moves_quoted (quote : Quote) (hbrace : quote ≠ .brace) (hvalue : quote ≠ .noValue)
    (start : Scanner) (hname : name.slice? template = some scanner.tag.reverse) :
    Moves template before rest mode (.named name)
      (scanner.enter .beforeAttribute position, start.valueEvents quote position) := by
  rw [← List.append_nil (start.valueEvents quote position)]
  exact .valueEvents quote hbrace hvalue _ (.quiet (.tag rfl hname))

/-- In a value without quotes, the scanner stays in the attribute or ends it. -/
lemma moves_inUnquoted (hname : name.slice? template = some scanner.tag.reverse) :
    Moves template before rest mode (.named name) (scanner.inUnquoted position c) := by
  unfold Scanner.inUnquoted
  split_ifs
  · exact .valueEvents .unquoted (by decide) (by decide) _ (moves_inTag hname)
  · exact .quiet (.named rfl hname)

/-- Outside of tags the scanner stays there or starts to read the name of a tag. -/
lemma step_outside (h : scanner.mode.region = .outside) :
    Moves template (before ++ [c]) rest scanner.mode .outside
      (scanner.step (byteLength before) c rest) := by
  obtain ⟨mode, start, tag⟩ := scanner
  cases mode with
  | text => exact moves_inText (by simp)
  | mustache braces =>
    simp only [Scanner.step]
    split
    · exact .quiet (.outside rfl)
    · exact .report .mustache (.quiet (.outside rfl))
  | beforeTag =>
    simp only [Scanner.step]
    split_ifs
    · exact .quiet (.outside rfl)
    · exact .quiet (.outside rfl)
    · exact .quiet (.tagName before rfl rfl rfl)
    · exact .quiet (.outside rfl)
    · exact moves_inText (by simp)
  | closeName =>
    simp only [Scanner.step]
    split_ifs
    · exact .report .close (.quiet (.outside rfl))
    · exact .report .close (.quiet (.outside rfl))
    · exact .quiet (.outside rfl)
  | comment =>
    simp only [Scanner.step]
    split_ifs
    · exact .report .comment (.quiet (.outside rfl))
    · exact .quiet (.outside rfl)
  | beforeClose =>
    simp only [Scanner.step]
    split_ifs <;> exact .quiet (.outside rfl)
  | afterClose | beforeDeclaration | declaration | instruction | beforeComment | commentEnd =>
    simp only [Scanner.step]
    split_ifs <;> exact .quiet (.outside rfl)
  | _ => cases h

/-- The name of a tag is reported where it ends, with the span of the characters it has. -/
lemma step_tagName {front : List Char} (hmode : scanner.mode = .tagName)
    (hbefore : before = front ++ scanner.tag.reverse) (hstart : scanner.start = byteLength front)
    (htemplate : before ++ c :: rest = template) :
    Moves template (before ++ [c]) rest scanner.mode .outside
      (scanner.step (byteLength before) c rest) := by
  obtain ⟨mode, start, tag⟩ := scanner
  cases hmode
  cases hstart
  -- The span that is reported covers what the scanner has kept of the name.
  have hname : Span.slice? ⟨byteLength front, byteLength before⟩ template = some tag.reverse := by
    rw [← htemplate, hbefore, byteLength_append, List.append_assoc]
    exact Span.slice?_append front tag.reverse (c :: rest)
  simp only [Scanner.step]
  split_ifs
  · exact .report .openName (moves_inTag hname)
  · exact .quiet (.tagName front rfl (by simp [hbefore]) rfl)

/-- Between attributes, a character leads into an attribute or behind the tag. -/
lemma step_tag (h : scanner.mode.region = .tag)
    (hname : name.slice? template = some scanner.tag.reverse) :
    Moves template before rest scanner.mode (.tag name) (scanner.step position c rest) := by
  obtain ⟨mode, start, tag⟩ := scanner
  cases mode with
  | beforeAttribute => exact moves_inTag hname
  | selfClosing =>
    simp only [Scanner.step]
    split_ifs
    · exact .report .selfClose (.quiet (.outside rfl))
    · exact .quiet (.tag rfl hname)
    · exact moves_inTag hname
  | attributeName =>
    simp only [Scanner.step]
    split_ifs
    · exact .report .attributeName (moves_afterName hname)
    · exact .quiet (.tag rfl hname)
  | shorthand braces =>
    simp only [Scanner.step]
    split
    · exact .quiet (.tag rfl hname)
    · exact .report .attributeName (.report (.bareEnd (by decide)) (.quiet (.tag rfl hname)))
  | _ => cases h

/-- Behind the name of an attribute, a character stays in the attribute or ends it. -/
lemma step_named (h : scanner.mode.region = .named)
    (hname : name.slice? template = some scanner.tag.reverse) :
    Moves template before rest scanner.mode (.named name) (scanner.step position c rest) := by
  obtain ⟨mode, start, tag⟩ := scanner
  cases mode with
  | afterAttribute => exact moves_afterName hname
  | unquoted => exact moves_inUnquoted hname
  | beforeValue =>
    simp only [Scanner.step]
    split_ifs
    · exact .quiet (.named rfl hname)
    · exact .quiet (.named rfl hname)
    · exact .quiet (.named rfl hname)
    · exact .quiet (.named rfl hname)
    · exact moves_inUnquoted hname
  | doubleQuoted =>
    simp only [Scanner.step]
    split_ifs
    · exact moves_quoted .double (by decide) (by decide) _ hname
    · exact .quiet (.named rfl hname)
  | singleQuoted =>
    simp only [Scanner.step]
    split_ifs
    · exact moves_quoted .single (by decide) (by decide) _ hname
    · exact .quiet (.named rfl hname)
  | braceValue braces =>
    simp only [Scanner.step]
    split
    · exact .quiet (.named rfl hname)
    · exact .report .attributeValue (.report (.valueEnd (by decide)) (.quiet (.tag rfl hname)))
  | _ => cases h

/-- In raw text, a character stays in it or leads to the closing tag. -/
lemma step_rawText (hmode : scanner.mode = .rawText)
    (hname : name.slice? template = some scanner.tag.reverse)
    (hraw : isRawTextTag scanner.tag.reverse = true) :
    Moves template before rest scanner.mode (.raw name) (scanner.step position c rest) := by
  obtain ⟨mode, start, tag⟩ := scanner
  cases hmode
  simp only [Scanner.step]
  split_ifs with hclose
  · have hcloses : closesRawText tag.reverse rest = true := by
      simp only [Bool.and_eq_true] at hclose
      exact hclose.2
    obtain ⟨spelling, after, rfl, hspelling, hafter⟩ := Scanner.closesRawText_iff.1 hcloses
    have hstarts : StartsWithRawName (spelling ++ after) :=
      ⟨spelling, after, rfl, (Scanner.isRawTextTag_congr hspelling).trans hraw, hafter⟩
    unfold Scanner.pendingText
    split_ifs
    · exact .report .rawText (.quiet (.closing (.inr rfl) (.bracket rfl hstarts)))
    · exact .quiet (.closing (.inl rfl) (.bracket rfl hstarts))
  · exact .quiet (.rawText rfl hname hraw)

/-- The closing tag of an element with raw text is read up to its end. -/
lemma step_closing (hplace : place = .raw name ∨ place = .rawEnd name)
    (h : Closing before scanner (c :: rest)) (htemplate : before ++ c :: rest = template) :
    Moves template (before ++ [c]) rest scanner.mode place
      (scanner.step (byteLength before) c rest) := by
  obtain ⟨mode, start, tag⟩ := scanner
  cases h with
  | bracket hmode hstarts =>
    cases hmode
    exact .quiet (.closing hplace (.slash rfl hstarts))
  | slash hmode hstarts =>
    cases hmode
    -- The name starts here, so neither a blank nor the end of the tag comes first.
    have hletter : c.isAlpha = true := by
      obtain ⟨spelling, after, heq, hraw, _⟩ := hstarts
      cases spelling with
      | nil => cases hraw
      | cons x spelling =>
        cases heq
        exact Scanner.isAlpha_of_isRawTextTag hraw c List.mem_cons_self
    have hplain : isMarkupBlank c = false ∧ c ≠ '>' := by
      have hend := Scanner.endsTagName_of_isAlpha hletter
      simp only [endsTagName, Bool.or_eq_false_iff, beq_eq_false_iff_ne] at hend
      exact ⟨hend.2, hend.1.2⟩
    have hstep : Scanner.step ⟨.beforeClose, start, tag⟩ (byteLength before) c rest =
        (⟨.closeName, byteLength before, tag⟩, []) := by
      simp [Scanner.step, hplain]
    rw [hstep]
    exact .quiet (.closing hplace (.name before [c] rfl rfl rfl (by simpa using hplain) hstarts))
  | name front read hmode hbefore hstart hplain hstarts =>
    cases hmode
    cases hstart
    have hslice : Span.slice ⟨byteLength front, byteLength before⟩ template = read := by
      rw [Span.slice, ← htemplate, hbefore, byteLength_append, List.append_assoc,
        Span.slice?_append]
      rfl
    have hclose : endsTagName c = true →
        Next template place (.closeName, .close ⟨byteLength front, byteLength before⟩)
          .outside := by
      intro hend
      refine .rawClose hplace ?_
      rw [hslice]
      exact hstarts.closingName hplain hend
    simp only [Scanner.step]
    split_ifs with hgt hblank
    · exact .report (hclose (by simp [endsTagName, hgt])) (.quiet (.outside rfl))
    · exact .report (hclose (by simp [endsTagName, hblank])) (.quiet (.outside rfl))
    · refine .quiet (.closing hplace
        (.name front (read ++ [c]) rfl (by simp [hbefore]) rfl ?_ (by simpa using hstarts)))
      intro x hx
      rcases List.mem_append.1 hx with hx | hx
      · exact hplain x hx
      · cases List.mem_singleton.1 hx
        exact ⟨by simpa using hblank, by simpa using hgt⟩

/-- Each step of the scanner reports events that lead on, and it stands where they lead to. -/
lemma Stands.step (h : Stands template before scanner (c :: rest) place)
    (htemplate : before ++ c :: rest = template) :
    Moves template (before ++ [c]) rest scanner.mode place
      (scanner.step (byteLength before) c rest) := by
  cases h with
  | outside hregion => exact step_outside hregion
  | tagName front hmode hbefore hstart => exact step_tagName hmode hbefore hstart htemplate
  | tag hregion hname => exact step_tag hregion hname
  | named hregion hname => exact step_named hregion hname
  | rawText hmode hname hraw => exact step_rawText hmode hname hraw
  | closing hplace hclosing => exact step_closing hplace hclosing htemplate

/-- The scanner is in a tag by its mode exactly if it is by its place. -/
lemma Stands.isInTag_eq (h : Stands template before scanner rest place) :
    place.isInTag = scanner.mode.isInTag := by
  cases h with
  | outside hregion => simp [Place.isInTag, Mode.isInTag, hregion]
  | tagName front hmode => simp [Place.isInTag, Mode.isInTag, Mode.region, hmode]
  | tag hregion => simp [Place.isInTag, Mode.isInTag, hregion]
  | named hregion => simp [Place.isInTag, Mode.isInTag, hregion]
  | rawText hmode => simp [Place.isInTag, Mode.isInTag, Mode.region, hmode]
  | closing hplace hclosing =>
    have hmode : scanner.mode.isInTag = false := by simp [Mode.isInTag, hclosing.region]
    rcases hplace with rfl | rfl <;> exact hmode.symm

/-- Where the template ends, the scanner reports the text or the comment it is in, and the end. -/
lemma finish_cases (scanner : Scanner) (position : Nat) :
    scanner.finish position = [.finish] ∨
    (scanner.mode.readsText = true ∧ scanner.start < position ∧
      scanner.finish position = [.text ⟨scanner.start, position⟩, .finish]) ∨
    (scanner.mode = .comment ∧ scanner.start < position ∧
      scanner.finish position = [.comment ⟨scanner.start, position⟩, .finish]) := by
  obtain ⟨mode, start, tag⟩ := scanner
  by_cases hstart : start < position
  · cases mode with
    | text | mustache | rawText =>
      exact .inr (.inl ⟨rfl, hstart, by simp [Scanner.finish, Scanner.pendingText, hstart]⟩)
    | comment => exact .inr (.inr ⟨rfl, hstart, by simp [Scanner.finish, hstart]⟩)
    | _ => exact .inl rfl
  · left
    cases mode <;> simp [Scanner.finish, Scanner.pendingText, hstart]

/-- What the scanner reads as text it can report as text. -/
lemma Stands.text (h : Stands template before scanner rest place)
    (hmode : scanner.mode.readsText = true) (span : Span) :
    ∃ next, Next template place (scanner.mode, .text span) next ∧
      next.isInTag = scanner.mode.isInTag := by
  obtain ⟨mode, start, tag⟩ := scanner
  cases h with
  | outside hregion =>
    refine ⟨.outside, .text ?_, ?_⟩
    · rintro rfl
      cases hregion
    · simp [Place.isInTag, Mode.isInTag, hregion]
  | tagName front htag =>
    cases htag
    cases hmode
  | tag hregion =>
    cases mode with
    | beforeAttribute | selfClosing | attributeName | shorthand => cases hmode
    | _ => cases hregion
  | named hregion =>
    cases mode with
    | text | mustache | rawText => cases hregion
    | _ => cases hmode
  | rawText hraw =>
    cases hraw
    exact ⟨_, .rawText, rfl⟩
  | closing hplace hclosing =>
    cases hclosing with
    | bracket hclose | slash hclose | name _ _ hclose =>
      cases hclose
      cases hmode

/-- What is reported at the end of the template leads on, and no tag ends there. -/
lemma Stands.finish (h : Stands template before scanner [] place) (position : Nat) :
    ∃ last next, scanner.finish position = last ++ [.finish] ∧
      Follows template place (last.map (scanner.mode, ·)) next ∧
      next.isInTag = scanner.mode.isInTag := by
  obtain hfinish | ⟨hmode, _, hfinish⟩ | ⟨hmode, _, hfinish⟩ := finish_cases scanner position
  · exact ⟨[], place, hfinish, .nil, h.isInTag_eq⟩
  · obtain ⟨next, hnext, hinTag⟩ := h.text hmode ⟨scanner.start, position⟩
    exact ⟨[_], next, hfinish, .cons hnext .nil, hinTag⟩
  · -- A comment is read outside of tags only.
    have hplace : place = .outside := by
      cases h with
      | outside => rfl
      | tagName => rfl
      | tag hregion | named hregion =>
        rw [hmode] at hregion
        cases hregion
      | rawText hraw =>
        rw [hmode] at hraw
        cases hraw
      | closing hplace hclosing =>
        cases hclosing with
        | slash hclose | name _ _ hclose =>
          rw [hmode] at hclose
          cases hclose
    subst hplace
    exact ⟨[_], .outside, hfinish, .cons .comment .nil, h.isInTag_eq⟩

end Steps

/-- Wherever a scan stands, the events so far lead to the place where the scanner stands. -/
lemma Reached.stands {template before rest : List Char} {scanner : Scanner}
    {reported : List (Mode × Event)} (h : Reached template before scanner reported rest) :
    ∃ place, Follows template .outside reported place ∧
      Stands template before scanner rest place := by
  induction h with
  | start => exact ⟨.outside, .nil, .outside rfl⟩
  | step hreached ih =>
    obtain ⟨place, hfollows, hstands⟩ := ih
    obtain ⟨next, hmore, hnext⟩ := hstands.step hreached.append_eq
    exact ⟨next, hfollows.append hmore, hnext⟩

/-- The events of a template follow the rule, up to the end, which is reported last. The template
ends in a tag exactly if the events do. -/
lemma trace_follows (template : List Char) :
    ∃ entries mode place, trace template = entries ++ [(mode, .finish)] ∧
      Follows template .outside entries place ∧ place.isInTag = mode.isInTag := by
  obtain ⟨scanner, reported, hreached, htrace⟩ := exists_reached_end template
  obtain ⟨place, hfollows, hstands⟩ := hreached.stands
  obtain ⟨last, next, hfinish, hlast, hinTag⟩ := hstands.finish (byteLength template)
  refine ⟨_, scanner.mode, next, ?_, hfollows.append hlast, hinTag⟩
  rw [htrace, hfinish]
  simp

/-- An event of a template other than the last leads on from the place that the events before it
lead to. -/
lemma exists_next {template : List Char} {earlier later : List (Mode × Event)} {mode : Mode}
    {event : Event} (h : trace template = earlier ++ (mode, event) :: later)
    (hevent : event ≠ .finish) :
    ∃ place next, Follows template .outside earlier place ∧
      Next template place (mode, event) next := by
  obtain ⟨entries, last, _, htrace, hfollows, _⟩ := trace_follows template
  have hmore : ∃ more, entries = earlier ++ (mode, event) :: more := by
    rcases List.eq_nil_or_concat later with rfl | ⟨more, entry, rfl⟩
    · cases List.append_inj_right' (h.symm.trans htrace) rfl
      exact absurd rfl hevent
    · have heq : (earlier ++ (mode, event) :: more) ++ [entry] = entries ++ [(last, .finish)] := by
        rw [← htrace, h]
        simp
      exact ⟨more, (List.append_inj_left' heq rfl).symm⟩
  obtain ⟨more, rfl⟩ := hmore
  obtain ⟨place, hearlier, hrest⟩ := hfollows.of_append
  cases hrest with
  | cons hnext _ => exact ⟨place, _, hearlier, hnext⟩

end ComponentApi.Markup
