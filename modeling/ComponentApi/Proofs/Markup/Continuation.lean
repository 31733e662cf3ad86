import ComponentApi.Proofs.Markup.Grammar

/-!
# Templates that go on

A template can be the start of a longer one. What comes behind it matters to the scanner in two
decisions only, where a comment ends and where raw text ends, and only if the template stops in the
mark that decides. `CutOff` says how the scanner stands then: it reads what is left of the template
and reports nothing more. So the events of the longer template are those of the template, up to the
last tag that the template completes at least (`exists_common_events`).

Where the scan of a template ends outside of all sections (`EndsClear`), the scanner keeps nothing
that a template which starts there could meet, and so the two templates are scanned each on its
own (`events_append`).
-/

namespace ComponentApi.Markup

open Text

/-! ### Marks that are cut off -/

/-- In the mode, the scanner reads what is left of the template without meeting the end of a comment
or of raw text: what could end it stands behind the template. -/
inductive CutOff : Mode → (rest : List Char) → Prop
  | comment {rest : List Char} (h : rest <+: ['-']) : CutOff .comment rest
  | rawText {rest : List Char} (h : '<' ∉ rest) : CutOff .rawText rest
  | bracket {name : List Char} (h : ∀ c ∈ name, c.isAlpha = true) : CutOff .beforeTag ('/' :: name)
  | slash {name : List Char} (h : ∀ c ∈ name, c.isAlpha = true) : CutOff .beforeClose name
  | name {name : List Char} (h : ∀ c ∈ name, c.isAlpha = true) : CutOff .closeName name

/-- Text is never cut off. -/
lemma CutOff.ne_text {mode : Mode} {rest : List Char} (h : CutOff mode rest) : mode ≠ .text := by
  cases h <;> nofun

section Steps

variable {scanner : Scanner} {position : Nat} {c : Char} {rest more : List Char}

/-- A letter is no blank and ends no tag. -/
lemma isPlain_of_isAlpha (h : c.isAlpha = true) : isMarkupBlank c = false ∧ c ≠ '>' := by
  have hend := Scanner.endsTagName_of_isAlpha h
  simp only [endsTagName, Bool.or_eq_false_iff, beq_eq_false_iff_ne] at hend
  exact ⟨hend.2, hend.1.2⟩

/-- What is cut off stays so, and nothing is reported. -/
lemma CutOff.step (h : CutOff scanner.mode (c :: rest)) (position : Nat) :
    CutOff (scanner.step position c rest).1.mode rest ∧
      (scanner.step position c rest).2 = [] := by
  obtain ⟨mode, start, tag⟩ := scanner
  cases h with
  | comment h =>
    obtain ⟨rfl, hrest⟩ := List.cons_prefix_cons.1 h
    cases List.prefix_nil.1 hrest
    exact ⟨.comment List.nil_prefix, rfl⟩
  | rawText h =>
    obtain ⟨hne, hrest⟩ := not_or.1 (mt List.mem_cons.2 h)
    have hstep : Scanner.step ⟨.rawText, start, tag⟩ position c rest =
        (⟨.rawText, start, tag⟩, []) := by
      simp [Scanner.step, Ne.symm hne]
    rw [hstep]
    exact ⟨.rawText hrest, rfl⟩
  | bracket h => exact ⟨.slash h, rfl⟩
  | slash h =>
    obtain ⟨hc, hrest⟩ := List.forall_mem_cons.1 h
    have hstep : Scanner.step ⟨.beforeClose, start, tag⟩ position c rest =
        (⟨.closeName, position, tag⟩, []) := by
      simp [Scanner.step, isPlain_of_isAlpha hc]
    rw [hstep]
    exact ⟨.name hrest, rfl⟩
  | name h =>
    obtain ⟨hc, hrest⟩ := List.forall_mem_cons.1 h
    have hstep : Scanner.step ⟨.closeName, start, tag⟩ position c rest =
        (⟨.closeName, start, tag⟩, []) := by
      simp [Scanner.step, isPlain_of_isAlpha hc]
    rw [hstep]
    exact ⟨.name hrest, rfl⟩

/-- Whether a mark stands at the start of what is left can depend on what comes behind only if that
is a part of the mark. -/
lemma prefix_of_isSome_dropStart? {mark : List Char}
    (h : (dropStart? mark (rest ++ more)).isSome ≠ (dropStart? mark rest).isSome) :
    rest <+: mark ∧ rest ≠ mark := by
  cases hrest : dropStart? mark rest with
  | some behind =>
    have hmore : dropStart? mark (rest ++ more) = some (behind ++ more) := by
      rw [dropStart?_eq_some_iff] at hrest ⊢
      rw [hrest, List.append_assoc]
    rw [hrest, hmore] at h
    exact absurd rfl h
  | none =>
    cases hmore : dropStart? mark (rest ++ more) with
    | none =>
      rw [hrest, hmore] at h
      exact absurd rfl h
    | some behind =>
      have hne : ∀ behind, rest ≠ mark ++ behind := by
        intro behind heq
        rw [dropStart?_eq_some_iff.2 heq] at hrest
        cases hrest
      rw [dropStart?_eq_some_iff] at hmore
      obtain ⟨tail, hmark, _⟩ | ⟨tail, heq, _⟩ := List.append_eq_append_iff.1 hmore
      · exact ⟨⟨tail, hmark.symm⟩, fun heq => hne [] (by simpa using heq)⟩
      · exact absurd heq (hne tail)

/-- Whether raw text ends can depend on what comes behind only if the template stops in the name of
the closing tag or right behind it. -/
lemma closesRawText_append {tag : List Char} (hraw : isRawTextTag tag = true)
    (h : closesRawText tag (rest ++ more) ≠ closesRawText tag rest) :
    (closesRawText tag rest = false ∧ '<' ∉ rest) ∨
      (closesRawText tag rest = true ∧
        ∃ name, rest = '/' :: name ∧ ∀ c ∈ name, c.isAlpha = true) := by
  have hletters : ∀ {spelling}, equalIgnoringCase spelling tag = true →
      ∀ c ∈ spelling, c.isAlpha = true := by
    intro spelling hname
    exact Scanner.isAlpha_of_isRawTextTag ((Scanner.isRawTextTag_congr hname).trans hraw)
  cases hrest : closesRawText tag rest with
  | true =>
    obtain ⟨spelling, after, rfl, hname, hend⟩ := Scanner.closesRawText_iff.1 hrest
    cases after with
    | nil => exact .inr ⟨rfl, spelling, by simp, hletters hname⟩
    | cons x after =>
      have hmore : closesRawText tag ('/' :: spelling ++ x :: after ++ more) = true :=
        Scanner.closesRawText_iff.2 ⟨spelling, x :: after ++ more, by simp, hname, hend⟩
      exact absurd (hmore.trans hrest.symm) h
  | false =>
    refine .inl ⟨rfl, ?_⟩
    have hmore : closesRawText tag (rest ++ more) = true := by simpa [hrest] using h
    obtain ⟨spelling, after, heq, hname, hend⟩ := Scanner.closesRawText_iff.1 hmore
    obtain ⟨tail, hspelling, _⟩ | ⟨tail, rfl, rfl⟩ := List.append_eq_append_iff.1 heq
    · -- What is left is a slash and letters.
      intro hmem
      have hin : '<' ∈ '/' :: spelling := hspelling ▸ List.mem_append_left tail hmem
      rcases List.mem_cons.1 hin with hslash | hletter
      · cases hslash
      · cases hletters hname _ hletter
    · -- The closing tag is complete, and so is the decision.
      have hclosed : closesRawText tag ('/' :: spelling ++ tail) = true := by
        refine Scanner.closesRawText_iff.2 ⟨spelling, tail, rfl, hname, ?_⟩
        intro x hx
        exact hend x (by simp [List.head?_append, Option.mem_def.1 hx])
      cases hclosed.symm.trans hrest

/-- Text ends no tag. -/
lemma not_endsTag_pendingText (scanner : Scanner) (position : Nat) :
    ∀ event ∈ scanner.pendingText position, event.endsTag = false := by
  unfold Scanner.pendingText
  split_ifs <;> simp [Event.endsTag]

/-- A step does not depend on what comes behind the template, unless a mark is cut off. -/
lemma step_append_or_cutOff
    (hraw : scanner.mode = .rawText → isRawTextTag scanner.tag.reverse = true) (position : Nat)
    (c : Char) (rest more : List Char) :
    scanner.step position c (rest ++ more) = scanner.step position c rest ∨
      (CutOff (scanner.step position c rest).1.mode rest ∧
        ∀ event ∈ (scanner.step position c rest).2, event.endsTag = false) := by
  obtain ⟨mode, start, tag⟩ := scanner
  cases mode with
  | comment =>
    by_cases hsame : (dropStart? ['-', '>'] (rest ++ more)).isSome =
        (dropStart? ['-', '>'] rest).isSome
    · left
      simp only [Scanner.step, hsame]
    · right
      obtain ⟨hrest, hne⟩ := prefix_of_isSome_dropStart? hsame
      have hcut : rest <+: ['-'] := by
        rw [show ['-', '>'] = ['-'] ++ ['>'] from rfl, List.prefix_concat_iff] at hrest
        exact hrest.resolve_left hne
      have hnone : dropStart? ['-', '>'] rest = none := by
        rcases List.prefix_cons_iff.1 hcut with rfl | ⟨tail, rfl, htail⟩
        · rfl
        · cases List.prefix_nil.1 htail
          rfl
      simp only [Scanner.step, hnone]
      exact ⟨by simpa using CutOff.comment hcut, by simp⟩
  | rawText =>
    have htag : isRawTextTag tag.reverse = true := hraw rfl
    by_cases hsame : closesRawText tag.reverse (rest ++ more) = closesRawText tag.reverse rest
    · left
      simp only [Scanner.step, hsame]
    by_cases hc : c = '<'
    · right
      obtain ⟨hopen, hrest⟩ | ⟨hclosed, name, rfl, hletters⟩ := closesRawText_append htag hsame
      · simp only [Scanner.step, hopen, Bool.and_false, Bool.false_eq_true, if_false]
        exact ⟨.rawText hrest, by simp⟩
      · simp only [Scanner.step, hclosed, hc, BEq.rfl, Bool.and_true, if_true]
        exact ⟨.bracket hletters, not_endsTag_pendingText _ _⟩
    · left
      simp [Scanner.step, hc]
  | _ => exact .inl rfl

end Steps

/-! ### The events of a longer template -/

/-- Where the scanner reads raw text, the tag that it remembers has the name of an element with raw
text. -/
lemma Stands.isRawTextTag {template before rest : List Char} {scanner : Scanner} {place : Place}
    (h : Stands template before scanner rest place) (hmode : scanner.mode = .rawText) :
    isRawTextTag scanner.tag.reverse = true := by
  have hregion : scanner.mode.region = .rawText := by rw [hmode]; rfl
  cases h with
  | rawText _ _ hraw => exact hraw
  | outside h | tag h | named h => cases hregion.symm.trans h
  | tagName _ h => cases hmode.symm.trans h
  | closing _ h => cases hregion.symm.trans h.region

/-- The scan of the longer template goes along with that of the template. If it does not go all the
way, a mark is cut off, and no tag ends from there on. -/
lemma Reached.continued {template before rest : List Char} {scanner : Scanner}
    {reported : List (Mode × Event)} (h : Reached template before scanner reported rest)
    (more : List Char) :
    Reached (template ++ more) before scanner reported (rest ++ more) ∨
      (CutOff scanner.mode rest ∧ ∃ common own before' scanner' rest',
        reported = common ++ own ∧ Reached (template ++ more) before' scanner' common rest' ∧
        ∀ entry ∈ own, entry.2.endsTag = false) := by
  -- Once the two scans part, the one of the template stays cut off and reports nothing more, so
  -- what it reports of its own is what the parting step reports.
  induction h with
  | start => exact .inl .start
  | @step before scanner reported c rest hreached ih =>
    obtain ih | ⟨hcut, common, own, before', scanner', rest', rfl, hcommon, hown⟩ := ih
    · obtain ⟨place, _, hstands⟩ := hreached.stands
      obtain hsame | ⟨hcut, hquiet⟩ := step_append_or_cutOff
        (fun hmode => hstands.isRawTextTag hmode) (byteLength before) c rest more
      · left
        rw [← hsame]
        exact ih.step
      · refine .inr ⟨hcut, reported, _, _, _, _, rfl, ih, ?_⟩
        simpa using hquiet
    · obtain ⟨hnext, hnone⟩ := hcut.step (byteLength before)
      refine .inr ⟨hnext, common, own, before', scanner', rest', ?_, hcommon, hown⟩
      simp [hnone]

/-- At the end of a template, no tag ends. -/
lemma not_endsTag_finish (scanner : Scanner) (position : Nat) :
    ∀ event ∈ scanner.finish position, event.endsTag = false := by
  obtain hfinish | ⟨_, _, hfinish⟩ | ⟨_, _, hfinish⟩ := finish_cases scanner position <;>
    rw [hfinish] <;> simp [Event.endsTag]

/-- The events of a template are those reported so far and those of the rest. -/
lemma Reached.events_eq {template before rest : List Char} {scanner : Scanner}
    {reported : List (Mode × Event)} (h : Reached template before scanner reported rest) :
    events template = reported.map Prod.snd ++ scanner.run (byteLength before) rest := by
  rw [← trace_map_snd, h.trace_eq, List.map_append, Scanner.map_snd_trace]

/-- A template and a longer one have their events in common up to some point, behind which no tag
ends in the template. -/
lemma exists_common_events (template more : List Char) :
    ∃ common own later, events template = common ++ own ∧
      events (template ++ more) = common ++ later ∧ ∀ event ∈ own, event.endsTag = false := by
  obtain ⟨scanner, reported, hreached, _⟩ := exists_reached_end template
  have hfinish := not_endsTag_finish scanner (byteLength template)
  obtain hall | ⟨_, common, own, before, scanner', rest, rfl, hcommon, hown⟩ :=
    hreached.continued more
  · exact ⟨_, _, _, hreached.events_eq, hall.events_eq, hfinish⟩
  · refine ⟨common.map Prod.snd, own.map Prod.snd ++ scanner.finish (byteLength template), _, ?_,
      hcommon.events_eq, ?_⟩
    · rw [hreached.events_eq, List.map_append, List.append_assoc, Scanner.run_nil]
    · intro event hevent
      rcases List.mem_append.1 hevent with hevent | hevent
      · obtain ⟨entry, hentry, rfl⟩ := List.mem_map.1 hevent
        exact hown entry hentry
      · exact hfinish event hevent

/-! ### Scans of moved templates -/

/-- The event at a place further back. -/
def Event.shift (offset : Nat) : Event → Event
  | .text span => .text (span.shift offset)
  | .mustache span => .mustache (span.shift offset)
  | .openName span => .openName (span.shift offset)
  | .openEnd position => .openEnd (position + offset)
  | .selfClose position => .selfClose (position + offset)
  | .close span => .close (span.shift offset)
  | .attributeName span => .attributeName (span.shift offset)
  | .attributeValue span => .attributeValue (span.shift offset)
  | .attributeEnd quote position => .attributeEnd quote (position + offset)
  | .comment span => .comment (span.shift offset)
  | .finish => .finish

namespace Scanner

variable (scanner : Scanner) (offset position : Nat) (c : Char) (rest : List Char)

/-- The scanner in a section that starts further back. -/
def shift : Scanner :=
  { scanner with start := scanner.start + offset }

/-- What a step further back leads to and reports. -/
def shiftResult (result : Scanner × List Event) : Scanner × List Event :=
  (result.1.shift offset, result.2.map (Event.shift offset))

/-- Text that is reported further back is the same text at its place there. -/
lemma pendingText_shift :
    (scanner.shift offset).pendingText (position + offset) =
      (scanner.pendingText position).map (Event.shift offset) := by
  unfold pendingText
  by_cases h : scanner.start < position <;> simp [shift, h, Event.shift, Span.shift]

/-- A value that is reported further back is the same value at its place there. -/
lemma valueEvents_shift (quote : Quote) :
    (scanner.shift offset).valueEvents quote (position + offset) =
      (scanner.valueEvents quote position).map (Event.shift offset) := by
  unfold valueEvents
  by_cases h : scanner.start < position <;> simp [shift, h, Event.shift, Span.shift]

/-- A section that is entered further back starts at its place there. -/
lemma enter_shift (mode : Mode) :
    (scanner.shift offset).enter mode (position + offset) =
      (scanner.enter mode position).shift offset := by
  simp [enter, shift, Nat.add_right_comm]

/-- In text, a character further back does the same at its place there. -/
lemma inText_shift :
    (scanner.shift offset).inText (position + offset) c =
      shiftResult offset (scanner.inText position c) := by
  unfold inText
  rw [pendingText_shift]
  split_ifs <;> simp [shiftResult, shift, Nat.add_right_comm]

/-- Between attributes, a character further back does the same at its place there. -/
lemma inTag_shift :
    (scanner.shift offset).inTag (position + offset) c =
      shiftResult offset (scanner.inTag position c) := by
  unfold inTag
  simp only [enter_shift]
  split_ifs <;> simp_all [shiftResult, shift, Event.shift]

/-- Behind the name of an attribute, a character further back does the same at its place there. -/
lemma afterName_shift :
    (scanner.shift offset).afterName (position + offset) c =
      shiftResult offset (scanner.afterName position c) := by
  unfold afterName
  rw [inTag_shift]
  split_ifs <;> simp [shiftResult, shift, Event.shift]

/-- In a value without quotes, a character further back does the same at its place there. -/
lemma inUnquoted_shift :
    (scanner.shift offset).inUnquoted (position + offset) c =
      shiftResult offset (scanner.inUnquoted position c) := by
  unfold inUnquoted
  rw [valueEvents_shift, enter_shift, inTag_shift]
  split_ifs <;> simp [shiftResult, shift]

/-- A scanner that stands further back takes the same steps there. -/
lemma step_shift :
    (scanner.shift offset).step (position + offset) c rest =
      shiftResult offset (scanner.step position c rest) := by
  obtain ⟨mode, start, tag⟩ := scanner
  cases mode with
  | text => exact inText_shift _ offset position c
  | beforeAttribute => exact inTag_shift _ offset position c
  | afterAttribute => exact afterName_shift _ offset position c
  | unquoted => exact inUnquoted_shift _ offset position c
  | mustache braces | shorthand braces | braceValue braces =>
    simp only [step, shift]
    cases braces.feed c <;>
      simp [shiftResult, shift, enter, Event.shift, Span.shift, Nat.add_right_comm]
  | beforeTag =>
    have hinText := inText_shift ⟨.beforeTag, start, tag⟩ offset position c
    simp only [step, shift] at hinText ⊢
    rw [hinText]
    split_ifs <;> simp [shiftResult, shift, enter, Nat.add_right_comm]
  | tagName =>
    have hinTag := inTag_shift ⟨.tagName, position, tag⟩ offset position c
    simp only [step, shift] at hinTag ⊢
    rw [hinTag]
    split_ifs <;> simp [shiftResult, shift, Event.shift, Span.shift]
  | selfClosing =>
    have hinTag := inTag_shift ⟨.selfClosing, start, tag⟩ offset position c
    simp only [step, shift] at hinTag ⊢
    rw [hinTag]
    split_ifs <;> simp [shiftResult, shift, enter, Event.shift, Nat.add_right_comm]
  | attributeName =>
    have hafter := afterName_shift ⟨.attributeName, position, tag⟩ offset position c
    simp only [step, shift] at hafter ⊢
    rw [hafter]
    split_ifs <;> simp [shiftResult, shift, Event.shift, Span.shift]
  | beforeValue =>
    have hunquoted := inUnquoted_shift ⟨.beforeValue, position, tag⟩ offset position c
    simp only [step, shift] at hunquoted ⊢
    rw [hunquoted]
    split_ifs <;> simp [shiftResult, shift, enter, Nat.add_right_comm]
  | doubleQuoted =>
    have hvalue := valueEvents_shift ⟨.doubleQuoted, start, tag⟩ offset position .double
    simp only [step, shift] at hvalue ⊢
    rw [hvalue]
    split_ifs <;> simp [shiftResult, shift, enter, Nat.add_right_comm]
  | singleQuoted =>
    have hvalue := valueEvents_shift ⟨.singleQuoted, start, tag⟩ offset position .single
    simp only [step, shift] at hvalue ⊢
    rw [hvalue]
    split_ifs <;> simp [shiftResult, shift, enter, Nat.add_right_comm]
  | rawText =>
    have hpending := pendingText_shift ⟨.rawText, start, tag⟩ offset position
    simp only [step, shift] at hpending ⊢
    rw [hpending]
    split_ifs <;> simp_all [shiftResult, shift]
  | _ =>
    simp only [step, shift]
    split_ifs <;> simp [shiftResult, shift, enter, Event.shift, Span.shift, Nat.add_right_comm]

/-- At an end further back, the same is reported at its place there. -/
lemma finish_shift :
    (scanner.shift offset).finish (position + offset) =
      (scanner.finish position).map (Event.shift offset) := by
  have hpending := pendingText_shift scanner offset position
  obtain ⟨mode, start, tag⟩ := scanner
  cases mode with
  | text | mustache | rawText =>
    simp only [shift] at hpending
    simp [finish, shift, hpending, Event.shift]
  | comment =>
    by_cases h : start < position <;> simp [finish, shift, h, Event.shift, Span.shift]
  | _ => rfl

/-- A scan that starts further back reports the same events there. -/
lemma run_shift (text : List Char) :
    (scanner.shift offset).run (position + offset) text =
      (scanner.run position text).map (Event.shift offset) := by
  induction text generalizing scanner position with
  | nil => exact finish_shift scanner offset position
  | cons c text ih =>
    rw [run_cons, run_cons, step_shift, List.map_append, Nat.add_right_comm]
    exact congrArg _ (ih _ _)

/-- Outside of tags, the name of the tag that was opened last does not matter: it is not looked at,
and either it stays or a new one takes its place. -/
lemma step_withTag {mode : Mode} (h : mode.region = .outside) (start : Nat) (tag : List Char) :
    step ⟨mode, start, tag⟩ position c rest = step ⟨mode, start, []⟩ position c rest ∨
      ∃ next start' events, next.region = .outside ∧
        step ⟨mode, start, tag⟩ position c rest = (⟨next, start', tag⟩, events) ∧
        step ⟨mode, start, []⟩ position c rest = (⟨next, start', []⟩, events) := by
  cases mode with
  | text =>
    simp only [step, inText]
    split_ifs <;> exact .inr ⟨_, _, _, rfl, rfl, rfl⟩
  | beforeTag =>
    by_cases hname : c ≠ '!' ∧ c ≠ '?' ∧ c.isAlpha = true
    · -- A letter starts the name of a tag, and the name that was kept is forgotten.
      left
      simp [step, hname]
    · right
      simp only [step, inText]
      split_ifs with hbang hquestion hletter
      · exact ⟨_, _, _, rfl, rfl, rfl⟩
      · exact ⟨_, _, _, rfl, rfl, rfl⟩
      · exact absurd ⟨by simpa using hbang, by simpa using hquestion, hletter⟩ hname
      all_goals exact ⟨_, _, _, rfl, rfl, rfl⟩
  | mustache braces =>
    simp only [step]
    split <;> exact .inr ⟨_, _, _, rfl, rfl, rfl⟩
  | beforeClose | closeName | afterClose | beforeDeclaration | declaration | instruction
  | beforeComment | comment | commentEnd =>
    simp only [step]
    split_ifs <;> exact .inr ⟨_, _, _, rfl, rfl, rfl⟩
  | _ => cases h

/-- Outside of tags, the name of the last tag does not matter. -/
lemma run_withTag {mode : Mode} (h : mode.region = .outside) (start : Nat) (tag text : List Char) :
    run ⟨mode, start, tag⟩ position text = run ⟨mode, start, []⟩ position text := by
  induction text generalizing mode start position with
  | nil => cases mode <;> rfl
  | cons c text ih =>
    rw [run_cons, run_cons]
    obtain hsame | ⟨next, start', events, hnext, htag, hnone⟩ :=
      step_withTag position c text h start tag
    · rw [hsame]
    · rw [htag, hnone]
      exact congrArg _ (ih _ hnext _)

/-- How the scanner stands behind the text. -/
def last (scanner : Scanner) (position : Nat) : List Char → Scanner
  | [] => scanner
  | c :: rest => (scanner.step position c rest).1.last (position + c.utf8Size) rest

end Scanner

/-! ### Templates one behind the other -/

/-- A scan reaches the end of the template where it stands behind all of the rest. -/
lemma Reached.last {template before rest : List Char} {scanner : Scanner}
    {reported : List (Mode × Event)} (h : Reached template before scanner reported rest) :
    ∃ all, Reached template template (scanner.last (byteLength before) rest) all [] := by
  induction rest generalizing before scanner reported with
  | nil =>
    have hbefore : before = template := by simpa using h.append_eq
    subst hbefore
    exact ⟨reported, h⟩
  | cons c rest ih =>
    have hnext := ih h.step
    rwa [byteLength_append] at hnext

/-- The scan of the template ends in no section: right behind a tag, a comment, an expression or a
declaration, or at the start of an empty template. -/
structure EndsClear (template : List Char) : Prop where
  mode : (({} : Scanner).last 0 template).mode = .text
  start : (({} : Scanner).last 0 template).start = byteLength template

/-- Behind a template whose scan ends in no section, a second one is scanned as if it stood alone:
the events of both together are those of the first without its end, and those of the second, moved
by the length of the first. -/
theorem events_append {first : List Char} (h : EndsClear first) (second : List Char) :
    events first = (events first).dropLast ++ [.finish] ∧
      events (first ++ second) =
        (events first).dropLast ++ (events second).map (Event.shift (byteLength first)) := by
  have hbegin : Reached first [] {} [] first := .start
  obtain ⟨reported, hreached⟩ := hbegin.last
  obtain ⟨hmode, hstart⟩ := h
  generalize hscanner : ({} : Scanner).last 0 first = scanner at hmode hstart
  rw [byteLength_nil, hscanner] at hreached
  obtain ⟨mode, start, tag⟩ := scanner
  cases hmode
  cases hstart
  have hevents : events first = reported.map Prod.snd ++ [.finish] := by
    rw [hreached.events_eq]
    simp [Scanner.finish, Scanner.pendingText]
  -- In text no mark is cut off, so the scan of both templates comes by the end of the first.
  have hboth := (hreached.continued second).resolve_right fun hcut => hcut.1.ne_text rfl
  have hsecond := Scanner.run_shift {} (byteLength first) 0 second
  rw [Scanner.shift, Nat.zero_add] at hsecond
  refine ⟨by rw [hevents, List.dropLast_concat], ?_⟩
  rw [hboth.events_eq, hevents, List.dropLast_concat, List.nil_append, events, ← hsecond]
  -- The scanner there differs from a new one in the name of the last tag only.
  exact congrArg _ (Scanner.run_withTag _ rfl _ _ _)

/-- A comment ends the first template, and the second starts as if with the end of one. -/
theorem events_append_comment :
    EndsClear "<title>a</title><!--b-->".toList ∧
    events ("<title>a</title><!--b-->".toList ++ "-><i/>".toList) =
      [.openName ⟨1, 6⟩, .openEnd 6, .text ⟨7, 8⟩, .close ⟨10, 15⟩, .comment ⟨20, 21⟩] ++
        [.text ⟨24, 26⟩, .openName ⟨27, 28⟩, .selfClose 29, .finish] := by
  have hclear : EndsClear "<title>a</title><!--b-->".toList := ⟨by decide, by decide⟩
  refine ⟨hclear, (events_append hclear _).2.trans ?_⟩
  decide

end ComponentApi.Markup
