import ComponentApi.Proofs.Markup.Spans

/-!
# Where tags stand

The name of an opening tag is reported without the bracket in front of it, and the end of the tag as
a position. `events_marked` says that the brackets are really there: `<` stands right before every
name that is reported, and `>` at the position of every end. All that is reported of a tag lies
behind its name.
-/

namespace ComponentApi.Markup

open Text

/-- An event that stands for a bracket of an opening tag has the bracket there. -/
def Event.IsMarked (template : List Char) : Event → Prop
  | .openName name =>
    ∃ front back, template = front ++ '<' :: back ∧ name.start = byteLength front + 1
  | .openEnd position | .selfClose position =>
    ∃ front back, template = front ++ '>' :: back ∧ position = byteLength front
  | _ => True

/-- Whether the start of an opening tag is being read. -/
def Mode.opensTag : Mode → Bool
  | .beforeTag | .tagName => true
  | _ => false

namespace Scanner

/-- The scanner, which has read `before`, reads the start of a tag only behind a bracket. -/
structure Bracketed (before : List Char) (scanner : Scanner) : Prop where
  bracket : scanner.mode = .beforeTag → ∃ front, before = front ++ ['<']
  name : scanner.mode = .tagName →
    ∃ front read, before = front ++ '<' :: read ∧ scanner.start = byteLength front + 1

/-- The scanner has read `before` and the events mark brackets of the template. -/
structure Marks (template before : List Char) (result : Scanner × List Event) : Prop where
  scanner : result.1.Bracketed before
  events : ∀ event ∈ result.2, event.IsMarked template

section Steps

variable {template before rest : List Char} {scanner : Scanner} {c : Char}

/-- Behind a bracket, the scanner may start to read a tag. -/
lemma Bracketed.of_bracket (hmode : scanner.mode = .beforeTag)
    (h : ∃ front, before = front ++ ['<']) : scanner.Bracketed before := by
  refine ⟨fun _ => h, fun hname => ?_⟩
  cases hmode.symm.trans hname

/-- Where the section starts behind a bracket, the scanner may read the name of a tag. -/
lemma Bracketed.of_name (hmode : scanner.mode = .tagName)
    (h : ∃ front read, before = front ++ '<' :: read ∧ scanner.start = byteLength front + 1) :
    scanner.Bracketed before := by
  refine ⟨fun hbracket => ?_, fun _ => h⟩
  cases hmode.symm.trans hbracket

/-- Nothing of the start of a tag is being read. -/
lemma marks_elsewhere {result : Scanner × List Event} (hmode : result.1.mode.opensTag = false)
    (hevents : ∀ event ∈ result.2, event.IsMarked template) : Marks template before result := by
  refine ⟨⟨fun h => ?_, fun h => ?_⟩, hevents⟩
  · rw [h] at hmode
    cases hmode
  · rw [h] at hmode
    cases hmode

/-- Nothing of the start of a tag is being read, and nothing is reported. -/
lemma marks_quiet {next : Scanner} (hmode : next.mode.opensTag = false) :
    Marks template before (next, []) :=
  marks_elsewhere hmode (List.forall_mem_nil _)

/-- Text stands for no bracket. -/
lemma isMarked_pendingText {position : Nat} :
    ∀ event ∈ scanner.pendingText position, event.IsMarked template := by
  unfold pendingText
  split_ifs <;> simp [Event.IsMarked]

/-- The value of an attribute stands for no bracket. -/
lemma isMarked_valueEvents {quote : Quote} {position : Nat} :
    ∀ event ∈ scanner.valueEvents quote position, event.IsMarked template := by
  unfold valueEvents
  split_ifs <;> simp [Event.IsMarked]

/-- In text, only a bracket leads to the start of a tag. -/
lemma marks_inText (position : Nat) :
    Marks template (before ++ [c]) (scanner.inText position c) := by
  unfold inText
  split_ifs with hopen
  · refine ⟨.of_bracket rfl ⟨before, ?_⟩, isMarked_pendingText⟩
    rw [beq_iff_eq.1 hopen]
  · exact marks_elsewhere rfl isMarked_pendingText
  · exact marks_quiet rfl

/-- Between attributes, the end of a tag is reported at its bracket. -/
lemma marks_inTag :
    Marks (before ++ c :: rest) (before ++ [c]) (scanner.inTag (byteLength before) c) := by
  unfold inTag
  split_ifs with hclose hraw
  · refine marks_elsewhere rfl ?_
    exact List.forall_mem_singleton.2 ⟨before, rest, by rw [beq_iff_eq.1 hclose], rfl⟩
  · refine marks_elsewhere rfl ?_
    exact List.forall_mem_singleton.2 ⟨before, rest, by rw [beq_iff_eq.1 hclose], rfl⟩
  · exact marks_quiet rfl
  · exact marks_quiet rfl
  · exact marks_quiet rfl
  · exact marks_quiet rfl

/-- Events that mark no bracket come before others. -/
lemma Marks.append {next : Scanner} (events : List Event) {more : List Event}
    (hevents : ∀ event ∈ events, event.IsMarked template)
    (h : Marks template before (next, more)) : Marks template before (next, events ++ more) := by
  refine ⟨h.scanner, ?_⟩
  intro event hevent
  exact (List.mem_append.1 hevent).elim (hevents event) (h.events event)

/-- Behind the name of an attribute, the end of a tag is reported at its bracket. -/
lemma marks_afterName :
    Marks (before ++ c :: rest) (before ++ [c]) (scanner.afterName (byteLength before) c) := by
  unfold afterName
  split_ifs
  · exact marks_quiet rfl
  · exact marks_quiet rfl
  · exact .append [_] (by simp [Event.IsMarked]) marks_inTag

/-- In a value without quotes, the end of a tag is reported at its bracket. -/
lemma marks_inUnquoted :
    Marks (before ++ c :: rest) (before ++ [c]) (scanner.inUnquoted (byteLength before) c) := by
  unfold inUnquoted
  split_ifs
  · exact .append _ isMarked_valueEvents marks_inTag
  · exact marks_quiet rfl

/-- Each step of the scanner marks brackets that are there. -/
lemma Bracketed.step (h : scanner.Bracketed before) (c : Char) (rest : List Char) :
    Marks (before ++ c :: rest) (before ++ [c]) (scanner.step (byteLength before) c rest) := by
  obtain ⟨mode, start, tag⟩ := scanner
  cases mode with
  | text => exact marks_inText _
  | beforeTag =>
    obtain ⟨front, hfront⟩ := h.bracket rfl
    simp only [Scanner.step]
    split_ifs
    · exact marks_quiet rfl
    · exact marks_quiet rfl
    · refine ⟨.of_name rfl ⟨front, [c], ?_, ?_⟩, List.forall_mem_nil _⟩
      · rw [hfront, List.append_assoc, List.singleton_append]
      · rw [hfront, byteLength_append]
        rfl
    · exact marks_quiet rfl
    · exact marks_inText _
  | tagName =>
    obtain ⟨front, read, hfront, hstart⟩ := h.name rfl
    simp only [Scanner.step]
    split_ifs
    · refine .append [_] ?_ marks_inTag
      exact List.forall_mem_singleton.2 ⟨front, read ++ c :: rest, by simp [hfront], hstart⟩
    · refine ⟨.of_name rfl ⟨front, read ++ [c], ?_, hstart⟩, List.forall_mem_nil _⟩
      rw [hfront, List.append_assoc, List.cons_append]
  | selfClosing =>
    simp only [Scanner.step]
    split_ifs with hclose
    · refine marks_elsewhere rfl ?_
      exact List.forall_mem_singleton.2 ⟨before, rest, by rw [beq_iff_eq.1 hclose], rfl⟩
    · exact marks_quiet rfl
    · exact marks_inTag
  | beforeAttribute => exact marks_inTag
  | attributeName =>
    simp only [Scanner.step]
    split_ifs
    · exact .append [_] (by simp [Event.IsMarked]) marks_afterName
    · exact marks_quiet rfl
  | afterAttribute => exact marks_afterName
  | beforeValue =>
    simp only [Scanner.step]
    split_ifs
    · exact marks_quiet rfl
    · exact marks_quiet rfl
    · exact marks_quiet rfl
    · exact marks_quiet rfl
    · exact marks_inUnquoted
  | doubleQuoted | singleQuoted =>
    simp only [Scanner.step]
    split_ifs
    · exact marks_elsewhere rfl isMarked_valueEvents
    · exact marks_quiet rfl
  | unquoted => exact marks_inUnquoted
  | mustache braces | shorthand braces | braceValue braces =>
    simp only [Scanner.step]
    split
    · exact marks_quiet rfl
    · exact marks_elsewhere rfl (by simp [Event.IsMarked])
  | rawText =>
    simp only [Scanner.step]
    split_ifs with hopen
    · refine ⟨.of_bracket rfl ⟨before, ?_⟩, isMarked_pendingText⟩
      rw [beq_iff_eq.1 (Bool.and_eq_true_iff.1 hopen).1]
    · exact marks_quiet rfl
  | _ =>
    simp only [Scanner.step]
    split_ifs <;> exact marks_elsewhere rfl (by simp [Event.IsMarked])

end Steps

end Scanner

/-- Wherever a scan stands, the events so far that stand for brackets have them there. -/
lemma Reached.marked {template before rest : List Char} {scanner : Scanner}
    {reported : List (Mode × Event)} (h : Reached template before scanner reported rest) :
    scanner.Bracketed before ∧ ∀ entry ∈ reported, entry.2.IsMarked template := by
  induction h with
  | start => exact ⟨⟨nofun, nofun⟩, nofun⟩
  | @step before scanner reported c rest hreached ih =>
    obtain ⟨hscanner, hreported⟩ := ih
    have hstep := hscanner.step c rest
    rw [hreached.append_eq] at hstep
    refine ⟨hstep.scanner, ?_⟩
    intro entry hentry
    rcases List.mem_append.1 hentry with hentry | hentry
    · exact hreported entry hentry
    · obtain ⟨event, hevent, rfl⟩ := List.mem_map.1 hentry
      exact hstep.events event hevent

/-- All events of a template have the brackets that they stand for. -/
lemma events_marked {template : List Char} {event : Event} (h : event ∈ events template) :
    event.IsMarked template := by
  obtain ⟨scanner, reported, hreached, htrace⟩ := exists_reached_end template
  rw [← trace_map_snd, htrace] at h
  obtain ⟨entry, hentry, rfl⟩ := List.mem_map.1 h
  rcases List.mem_append.1 hentry with hentry | hentry
  · exact hreached.marked.2 entry hentry
  · -- At the end only texts and comments are reported.
    obtain ⟨event, hevent, rfl⟩ := List.mem_map.1 hentry
    obtain hfinish | ⟨_, _, hfinish⟩ | ⟨_, _, hfinish⟩ := finish_cases scanner (byteLength template)
    all_goals
      rw [hfinish] at hevent
      simp only [List.mem_cons, List.not_mem_nil, or_false] at hevent
      rcases hevent with rfl | rfl <;> trivial

/-! ### What lies behind the name of a tag -/

/-- The span of an event of a template covers a part of it. -/
lemma events_covers {template : List Char} {event : Event} {span : Span}
    (h : event ∈ events template) (hspan : event.extent? = some span) :
    Covers template event span := by
  obtain ⟨reported, hevents, hbetween⟩ := events_between template
  rw [hevents] at h
  rcases List.mem_append.1 h with h | h
  · obtain ⟨span', hcovers, _, _⟩ := hbetween.covers event h
    cases hspan.symm.trans hcovers.extent
    exact hcovers
  · cases List.mem_singleton.1 h
    cases hspan

/-- An event stops before the events behind it start. -/
lemma stop_le_start {template : List Char} {earlier later : List Event} {event next : Event}
    {span span' : Span} (h : events template = earlier ++ later) (hevent : event ∈ earlier)
    (hnext : next ∈ later) (hspan : event.extent? = some span)
    (hspan' : next.extent? = some span') : span.stop ≤ span'.start := by
  obtain ⟨reported, hevents, hbetween⟩ := events_between template
  have hpairwise : ((events template).filterMap Event.extent?).Pairwise
      fun first second => first.stop ≤ second.start := by
    rw [hevents, List.filterMap_append, List.filterMap_cons_none rfl, List.filterMap_nil,
      List.append_nil]
    exact hbetween.pairwise
  rw [h, List.filterMap_append, List.pairwise_append] at hpairwise
  exact hpairwise.2.2 span (List.mem_filterMap.2 ⟨event, hevent, hspan⟩) span'
    (List.mem_filterMap.2 ⟨next, hnext, hspan'⟩)

/-- The name of the last tag is one that is reported. -/
lemma mem_of_lastName? {events : List Event} {name : Span} (h : lastName? events = some name) :
    .openName name ∈ events := by
  obtain ⟨event, hevent, hname⟩ := List.mem_filterMap.1 (List.mem_of_getLast? h)
  cases event with
  | openName span =>
    cases hname
    exact hevent
  | _ => cases hname

/-- The value of an attribute lies behind the name of its tag. -/
lemma attributeValue_start_pos {template : List Char} {value : Span}
    (h : .attributeValue value ∈ events template) : 0 < value.start := by
  have hevents := trace_map_snd template
  rw [← hevents] at h
  obtain ⟨⟨mode, event⟩, hentry, rfl⟩ := List.mem_map.1 h
  obtain ⟨earlier, later, htrace⟩ := List.append_of_mem hentry
  obtain ⟨place, next, hfollows, hnext⟩ := exists_next htrace nofun
  cases hnext with
  | @attributeValue _ name =>
    have hname : .openName name ∈ earlier.map Prod.snd :=
      mem_of_lastName? (hfollows.lastName? [] nofun name rfl)
    rw [htrace, List.map_append] at hevents
    have hvalue : .attributeValue value ∈ ((mode, .attributeValue value) :: later).map Prod.snd :=
      List.mem_cons_self ..
    have hbehind := stop_le_start hevents.symm hname hvalue rfl rfl
    have hopened : Covers template (.openName name) name :=
      events_covers (hevents ▸ List.mem_append_left _ hname) rfl
    have hsolid := hopened.solid rfl
    omega

end ComponentApi.Markup
