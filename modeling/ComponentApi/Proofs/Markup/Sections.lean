import Mathlib.Data.List.Basic
import Mathlib.Data.List.Infix
import Mathlib.Tactic.Basic
import ComponentApi.Markup.Scanner

/-!
# Reading the sections of a template

What the scanner does with a stretch of text is stated by `Reads`: which events it reports and how
it stands behind the stretch, whatever follows. Stretches are joined by `Reads.append`. For each
mode that reads a section of any length there is one lemma: text, names, quoted values, expressions
in braces, comments and raw text. None of these sections reports anything before its end.
-/

namespace ComponentApi.Markup

open Text

namespace Scanner

/-- The scanner reads the text, with `after` behind it: it reports the events and stands as `last`
where `after` starts. -/
def Reads (first : Scanner) (position : Nat) (text after : List Char) (events : List Event)
    (last : Scanner) : Prop :=
  first.run position (text ++ after) = events ++ last.run (position + byteLength text) after

variable {first middle last : Scanner} {position start : Nat} {c : Char}
  {text more after tag : List Char} {events events' : List Event}

namespace Reads

/-- What is read first is reported first. -/
lemma run_eq (h : Reads first position text after events last) :
    first.run position (text ++ after) =
      events ++ last.run (position + byteLength text) after := h

/-- Reading nothing reports nothing. -/
lemma nil (scanner : Scanner) (position : Nat) (after : List Char) :
    Reads scanner position [] after [] scanner := rfl

/-- One character and what follows it. -/
lemma cons (hstep : first.step position c (text ++ after) = (middle, events))
    (hrest : Reads middle (position + c.utf8Size) text after events' last) :
    Reads first position (c :: text) after (events ++ events') last := by
  show first.run position (c :: text ++ after) = _
  rw [List.cons_append, run_cons, hstep, hrest.run_eq, List.append_assoc, byteLength_cons,
    Nat.add_assoc]

/-- One character that reports nothing and what follows it. -/
lemma skip (hstep : first.step position c (text ++ after) = (middle, []))
    (hrest : Reads middle (position + c.utf8Size) text after events last) :
    Reads first position (c :: text) after events last :=
  cons hstep hrest

/-- One character. -/
lemma char (hstep : first.step position c after = (last, events)) :
    Reads first position [c] after events last := by
  have h := cons hstep (nil last (position + c.utf8Size) after)
  rwa [List.append_nil] at h

/-- Two stretches of text in a row. -/
lemma append (hfirst : Reads first position text (more ++ after) events middle)
    (hrest : Reads middle (position + byteLength text) more after events' last) :
    Reads first position (text ++ more) after (events ++ events') last := by
  show first.run position (text ++ more ++ after) = _
  rw [List.append_assoc, hfirst.run_eq, hrest.run_eq, List.append_assoc, byteLength_append,
    Nat.add_assoc]

/-- Characters that leave the scanner as it is. -/
lemma loop (h : ∀ c ∈ text, ∀ position rest, first.step position c rest = (first, [])) :
    Reads first position text after [] first := by
  induction text generalizing position with
  | nil => exact nil _ _ _
  | cons c text ih =>
    refine skip (h c List.mem_cons_self _ _) ?_
    exact ih fun c hc => h c (List.mem_cons_of_mem _ hc)

end Reads

/-! ### Plain sections -/

/-- Text is read on without a report, up to a bracket or a brace. -/
lemma reads_text (h : ∀ c ∈ text, c ≠ '<' ∧ c ≠ '\x7b') :
    Reads ⟨.text, start, tag⟩ position text after [] ⟨.text, start, tag⟩ := by
  apply Reads.loop
  intro c hc position rest
  obtain ⟨hlt, hbrace⟩ := h c hc
  simp [step, inText, hlt, hbrace]

/-- The name of an opening tag is kept, in reverse. -/
lemma reads_tagName (h : ∀ c ∈ text, endsTagName c = false) :
    Reads ⟨.tagName, start, tag⟩ position text after [] ⟨.tagName, start, text.reverse ++ tag⟩ := by
  induction text generalizing position tag with
  | nil => exact Reads.nil _ _ _
  | cons c text ih =>
    have hc := h c List.mem_cons_self
    have hstep : step ⟨.tagName, start, tag⟩ position c (text ++ after) =
        (⟨.tagName, start, c :: tag⟩, []) := by
      simp [step, hc]
    rw [List.reverse_cons, List.append_assoc]
    exact Reads.skip hstep (ih fun c hc => h c (List.mem_cons_of_mem _ hc))

/-- The name of a closing tag is read on without a report, up to a blank or a bracket. -/
lemma reads_closeName (h : ∀ c ∈ text, isMarkupBlank c = false ∧ c ≠ '>') :
    Reads ⟨.closeName, start, tag⟩ position text after [] ⟨.closeName, start, tag⟩ := by
  apply Reads.loop
  intro c hc position rest
  obtain ⟨hblank, hgt⟩ := h c hc
  simp [step, hblank, hgt]

/-- The name of an attribute is read on without a report, up to what ends it. -/
lemma reads_attributeName (h : ∀ c ∈ text, c ≠ '=' ∧ endsTagName c = false) :
    Reads ⟨.attributeName, start, tag⟩ position text after [] ⟨.attributeName, start, tag⟩ := by
  apply Reads.loop
  intro c hc position rest
  obtain ⟨heq, hend⟩ := h c hc
  simp [step, heq, hend]

/-- A value without quotes is read on without a report, up to a blank or a bracket. -/
lemma reads_unquoted (h : ∀ c ∈ text, isMarkupBlank c = false ∧ c ≠ '>') :
    Reads ⟨.unquoted, start, tag⟩ position text after [] ⟨.unquoted, start, tag⟩ := by
  apply Reads.loop
  intro c hc position rest
  obtain ⟨hblank, hgt⟩ := h c hc
  simp [step, inUnquoted, hblank, hgt]

/-! ### Quotes -/

/-- A mode that reads a value between two marks of one byte. -/
structure QuotedMode (mode : Mode) (mark : Char) (quote : Quote) : Prop where
  size : mark.utf8Size = 1
  opens : ∀ start tag position rest,
    step ⟨.beforeValue, start, tag⟩ position mark rest = (⟨mode, position + 1, tag⟩, [])
  keeps : ∀ start tag position c rest, c ≠ mark →
    step ⟨mode, start, tag⟩ position c rest = (⟨mode, start, tag⟩, [])
  closes : ∀ start tag position rest,
    step ⟨mode, start, tag⟩ position mark rest =
      (⟨.beforeAttribute, position + 1, tag⟩, valueEvents ⟨mode, start, tag⟩ quote position)

/-- A value in double quotes ends at a double quote. -/
lemma quotedMode_double : QuotedMode .doubleQuoted '"' .double where
  size := rfl
  opens _ _ _ _ := rfl
  keeps _ _ _ _ _ h := by simp [step, h]
  closes _ _ _ _ := rfl

/-- A value in single quotes ends at a single quote. -/
lemma quotedMode_single : QuotedMode .singleQuoted '\'' .single where
  size := rfl
  opens _ _ _ _ := rfl
  keeps _ _ _ _ _ h := by simp [step, h]
  closes _ _ _ _ := rfl

/-- A value in quotes is reported at its closing quote. -/
lemma reads_quoted {mode : Mode} {mark : Char} {quote : Quote} (hmode : QuotedMode mode mark quote)
    (h : mark ∉ text) :
    Reads ⟨.beforeValue, start, tag⟩ position (mark :: text ++ [mark]) after
      (valueEvents ⟨mode, position + 1, tag⟩ quote (position + 1 + byteLength text))
      ⟨.beforeAttribute, position + 1 + byteLength text + 1, tag⟩ := by
  have hinside : Reads ⟨mode, position + 1, tag⟩ (position + 1) text ([mark] ++ after) []
      ⟨mode, position + 1, tag⟩ := by
    apply Reads.loop
    intro c hc position rest
    exact hmode.keeps _ _ _ _ _ (ne_of_mem_of_not_mem hc h)
  refine Reads.skip (hmode.opens _ _ _ _) ?_
  rw [hmode.size]
  exact hinside.append (Reads.char (hmode.closes _ _ _ _))

/-! ### Braces -/

/-- A mode that reads an expression in braces follows the nesting. -/
def FollowsBraces (mode : Braces → Mode) : Prop :=
  ∀ (braces next : Braces) (start : Nat) (tag : List Char) (position : Nat) (c : Char)
    (rest : List Char), braces.feed c = some next →
    step ⟨mode braces, start, tag⟩ position c rest = (⟨mode next, start, tag⟩, [])

/-- An expression in text follows the braces in it. -/
lemma followsBraces_mustache : FollowsBraces .mustache := by
  intro braces next start tag position c rest h
  simp [step, h]

/-- An attribute in braces follows the braces in it. -/
lemma followsBraces_shorthand : FollowsBraces .shorthand := by
  intro braces next start tag position c rest h
  simp [step, h]

/-- A value in braces follows the braces in it. -/
lemma followsBraces_braceValue : FollowsBraces .braceValue := by
  intro braces next start tag position c rest h
  simp [step, h]

/-- What is in braces is read on without a report, as long as the braces do not close. -/
lemma reads_braces {mode : Braces → Mode} (hmode : FollowsBraces mode) {braces next : Braces}
    (h : text.foldlM Braces.feed braces = some next) :
    Reads ⟨mode braces, start, tag⟩ position text after [] ⟨mode next, start, tag⟩ := by
  induction text generalizing position braces with
  | nil =>
    cases h
    exact Reads.nil _ _ _
  | cons c text ih =>
    rw [List.foldlM_cons, Option.bind_eq_bind, Option.bind_eq_some_iff] at h
    obtain ⟨middle, hfeed, hrest⟩ := h
    exact Reads.skip (hmode _ _ _ _ _ _ _ hfeed) (ih hrest)

/-- Outside of inner braces and quotes a closing brace closes the first one. -/
lemma feed_close {braces : Braces} (hdepth : braces.depth = 1) (hquote : braces.quote = none) :
    braces.feed '\x7d' = none := by
  simp [Braces.feed, hdepth, hquote]

/-! ### Comments -/

/-- A comment goes on as long as its closing mark has not been read: the mark cannot start inside
the content and end behind it. -/
lemma reads_comment (h : ¬ ['-', '-', '>'] <:+: text) :
    Reads ⟨.comment, start, tag⟩ position text ('-' :: '-' :: '>' :: after) []
      ⟨.comment, start, tag⟩ := by
  induction text generalizing position with
  | nil => exact Reads.nil _ _ _
  | cons c text ih =>
    have hrest : ¬ ['-', '-', '>'] <:+: text := by
      intro hin
      exact h (hin.trans (List.suffix_cons _ _).isInfix)
    refine Reads.skip ?_ (ih hrest)
    -- A mark that starts here and ends behind the content would have a `-` for its `>`.
    have hopen : ¬ (c = '-' ∧
        (dropStart? ['-', '>'] (text ++ '-' :: '-' :: '>' :: after)).isSome) := by
      rintro ⟨rfl, hmark⟩
      obtain ⟨behind, hbehind⟩ := Option.isSome_iff_exists.1 hmark
      rw [dropStart?_eq_some_iff] at hbehind
      match text, hbehind with
      | [], hbehind => simp at hbehind
      | [x], hbehind => simp at hbehind
      | x :: y :: rest, hbehind =>
        simp only [List.cons_append, List.cons.injEq] at hbehind
        obtain ⟨rfl, rfl, _⟩ := hbehind
        exact h (List.prefix_append ['-', '-', '>'] rest).isInfix
    simp only [step]
    rw [if_neg]
    simpa using hopen

/-! ### Raw text -/

/-- The names of tags with raw text have only letters. -/
lemma isAlpha_of_isRawTextTag {name : List Char} (h : isRawTextTag name = true) :
    ∀ c ∈ name, c.isAlpha = true := by
  intro c hc
  have hletters : rawTextTags.all (·.all Char.isAlpha) = true := by decide
  have hraw : lowercaseAscii name ∈ rawTextTags := List.contains_iff_mem.1 h
  have hlower := List.all_eq_true.1 (List.all_eq_true.1 hletters _ hraw) c.toLower
    (List.mem_map_of_mem hc)
  unfold Char.toLower at hlower
  split at hlower
  case isTrue hupper =>
    have hcapital : c.isUpper = true := decide_eq_true hupper
    show (c.isUpper || c.isLower) = true
    rw [hcapital, Bool.true_or]
  case isFalse => exact hlower

/-- A letter does not end the name of a tag. -/
lemma endsTagName_of_isAlpha (h : c.isAlpha = true) : endsTagName c = false := by
  have hne : ∀ mark : Char, mark.isAlpha = false → c ≠ mark := by
    rintro mark hmark rfl
    rw [h] at hmark
    cases hmark
  have hmark : c ≠ '/' ∧ c ≠ '>' ∧ c ≠ ' ' ∧ c ≠ '\t' ∧ c ≠ '\n' ∧ c ≠ '\x0c' ∧ c ≠ '\r' :=
    ⟨hne _ rfl, hne _ rfl, hne _ rfl, hne _ rfl, hne _ rfl, hne _ rfl, hne _ rfl⟩
  simp [endsTagName, isMarkupBlank, hmark]

/-- Texts that are equal up to case have the same length. -/
lemma length_of_equalIgnoringCase {a b : List Char} (h : equalIgnoringCase a b = true) :
    a.length = b.length := by
  have hlower : lowercaseAscii a = lowercaseAscii b := eq_of_beq h
  simpa [lowercaseAscii] using congrArg List.length hlower

/-- Whether a tag has raw text does not depend on the case of its name. -/
lemma isRawTextTag_congr {a b : List Char} (h : equalIgnoringCase a b = true) :
    isRawTextTag a = isRawTextTag b := by
  have hlower : lowercaseAscii a = lowercaseAscii b := eq_of_beq h
  rw [isRawTextTag, isRawTextTag, hlower]

/-- When raw text ends: a slash, the name of the tag in any case, and the end of that name. -/
lemma closesRawText_iff {name text : List Char} :
    closesRawText name text = true ↔ ∃ spelling rest, text = '/' :: spelling ++ rest ∧
      equalIgnoringCase spelling name = true ∧ ∀ c ∈ rest.head?, endsTagName c = true := by
  have hdrop : ∀ rest, (dropStart? ['/'] text).bind (dropStartIgnoringCase? name) = some rest ↔
      ∃ spelling, text = '/' :: spelling ++ rest ∧ equalIgnoringCase spelling name = true := by
    intro rest
    simp only [Option.bind_eq_some_iff, dropStart?_eq_some_iff, dropStartIgnoringCase?,
      Option.ite_none_right_eq_some, Option.some.injEq]
    constructor
    · rintro ⟨named, rfl, hname, rfl⟩
      exact ⟨named.take name.length, by simp, hname⟩
    · rintro ⟨spelling, rfl, hname⟩
      refine ⟨spelling ++ rest, rfl, ?_, ?_⟩
      · rwa [← length_of_equalIgnoringCase hname, List.take_left]
      · rw [← length_of_equalIgnoringCase hname, List.drop_left]
  unfold closesRawText
  cases hrest : (dropStart? ['/'] text).bind (dropStartIgnoringCase? name) with
  | none =>
    simp only [Bool.false_eq_true, false_iff]
    rintro ⟨spelling, rest, htext, hname, _⟩
    rw [(hdrop rest).2 ⟨spelling, htext, hname⟩] at hrest
    cases hrest
  | some rest =>
    obtain ⟨spelling, htext, hname⟩ := (hdrop rest).1 hrest
    constructor
    · intro hclose
      refine ⟨spelling, rest, htext, hname, ?_⟩
      cases rest with
      | nil => simp
      | cons c rest => simpa using hclose
    · rintro ⟨spelling', rest', htext', hname', hend⟩
      rw [(hdrop rest').2 ⟨spelling', htext', hname'⟩] at hrest
      cases hrest
      cases rest with
      | nil => rfl
      | cons c rest => simpa using hend

/-- Raw text goes on as long as its element is not closed: a closing tag cannot start inside the
content and end behind it, since there is no `<` in the name. -/
lemma reads_rawText {name : List Char} (hraw : isRawTextTag name = true)
    (h : ∀ spelling c, equalIgnoringCase spelling name = true → endsTagName c = true →
      ¬ '<' :: '/' :: spelling ++ [c] <:+: text) :
    Reads ⟨.rawText, start, name.reverse⟩ position text ('<' :: after) []
      ⟨.rawText, start, name.reverse⟩ := by
  induction text generalizing position with
  | nil => exact Reads.nil _ _ _
  | cons c text ih =>
    refine Reads.skip ?_ (ih ?_)
    · have hopen : ¬ (c = '<' ∧ closesRawText name (text ++ '<' :: after) = true) := by
        rintro ⟨rfl, hclose⟩
        obtain ⟨spelling, rest, heq, hname, hend⟩ := closesRawText_iff.1 hclose
        -- Neither the slash nor the name reaches the `<` behind the content.
        have hletter := isAlpha_of_isRawTextTag ((isRawTextTag_congr hname).trans hraw)
        have hno : '<' ∉ '/' :: spelling := by
          intro hmem
          rcases List.mem_cons.1 hmem with heq | hmem
          · cases heq
          · cases hletter _ hmem
        have hstart : rest.head? ≠ some '<' := by
          intro heq
          cases hend _ heq
        obtain ⟨inner, rfl, rfl⟩ | ⟨outer, hspelling, houter⟩ :=
          List.append_eq_append_iff.1 heq.symm
        · cases inner with
          | nil => exact hstart rfl
          | cons x inner =>
            refine h spelling x hname (hend x rfl) ?_
            exact ⟨[], inner, by simp⟩
        · cases outer with
          | nil => exact hstart (congrArg List.head? houter).symm
          | cons x outer =>
            cases houter
            exact hno (hspelling ▸ by simp)
      simp only [step, List.reverse_reverse]
      rw [if_neg]
      simpa using hopen
    · intro spelling c hname hend hin
      exact h spelling c hname hend (hin.trans (List.suffix_cons _ _).isInfix)

end Scanner

end ComponentApi.Markup
