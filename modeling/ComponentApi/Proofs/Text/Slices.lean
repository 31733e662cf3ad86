import ComponentApi.Proofs.Markup.Spans
import ComponentApi.Text.Naming

/-!
# Slices of texts

A span of a text covers the part that stands between its two positions. This module says how slices
of a text that stands in another one are slices of that, and where the text in braces stands in a
value. `Locates` says that a place in the file of a component is that of a part of a text, which
starts somewhere in the file.
-/

namespace ComponentApi

namespace Text

/-- Bytes are dropped from the start exactly if they are those of a part of the text. -/
lemma dropBytes?_eq_some_iff {position : Nat} {text rest : List Char} :
    dropBytes? position text = some rest ↔
      ∃ before, text = before ++ rest ∧ byteLength before = position := by
  constructor
  · intro h
    fun_induction dropBytes? position text with
    | case1 text =>
      cases h
      exact ⟨[], rfl, rfl⟩
    | case2 => cases h
    | case3 position c text hle ih =>
      obtain ⟨before, rfl, hlength⟩ := ih h
      refine ⟨c :: before, rfl, ?_⟩
      rw [byteLength_cons, hlength]
      omega
    | case4 => cases h
  · rintro ⟨before, rfl, rfl⟩
    exact dropBytes?_append before rest

/-- A part is what a span covers exactly if it stands between the two positions. -/
lemma slice?_eq_some_iff {span : Span} {text part : List Char} :
    span.slice? text = some part ↔ ∃ before after, text = before ++ (part ++ after) ∧
      span.start = byteLength before ∧ span.stop = byteLength before + byteLength part := by
  constructor
  · intro h
    simp only [Span.slice?, Option.ite_none_right_eq_some, Option.bind_eq_bind,
      Option.bind_eq_some_iff] at h
    obtain ⟨hle, rest, hdrop, htake⟩ := h
    obtain ⟨before, rfl, hbefore⟩ := dropBytes?_eq_some_iff.1 hdrop
    obtain ⟨⟨after, rfl⟩, hpart⟩ := takeBytes?_eq_some_iff.1 htake
    exact ⟨before, after, rfl, hbefore.symm, by omega⟩
  · rintro ⟨before, after, rfl, hstart, hstop⟩
    obtain ⟨start, stop⟩ := span
    dsimp only at hstart hstop
    subst hstart hstop
    exact Span.slice?_append before part after

/-- A part that is not empty is where the span says. -/
lemma slice?_of_slice_ne_nil {span : Span} {text : List Char} (h : span.slice text ≠ []) :
    span.slice? text = some (span.slice text) := by
  unfold Span.slice at h ⊢
  cases hslice : span.slice? text with
  | none => simp [hslice] at h
  | some part => rfl

/-- What a span covers of a text, the moved span covers of a text in which that stands. -/
lemma slice?_shift {span : Span} {text part : List Char} (h : span.slice? text = some part)
    (front back : List Char) :
    (span.shift (byteLength front)).slice? (front ++ (text ++ back)) = some part := by
  obtain ⟨before, after, rfl, hstart, hstop⟩ := slice?_eq_some_iff.1 h
  refine slice?_eq_some_iff.2 ⟨front ++ before, after ++ back, by simp, ?_, ?_⟩
  · simp only [Span.shift, byteLength_append]
    omega
  · simp only [Span.shift, byteLength_append]
    omega

/-- What a span covers of a text between two marks, without them, it covers of the text. -/
lemma slice?_between {span : Span} {text part : List Char} {first last : Char}
    (hfirst : first.utf8Size = 1) (h : span.slice? (first :: (text ++ [last])) = some part)
    (hstart : 0 < span.start) (hstop : span.stop ≤ byteLength text + 1) :
    Span.slice? ⟨span.start - 1, span.stop - 1⟩ text = some part := by
  obtain ⟨before, after, htext, hbefore, hpart⟩ := slice?_eq_some_iff.1 h
  cases before with
  | nil =>
    rw [byteLength_nil] at hbefore
    omega
  | cons c before =>
    rw [List.cons_append] at htext
    obtain ⟨rfl, hrest⟩ := List.cons.inj htext
    rw [byteLength_cons, hfirst] at hbefore hpart
    -- The part ends before the last mark, so the mark is in what follows.
    have hlength := congrArg byteLength hrest
    simp only [byteLength_append, byteLength_cons, byteLength_nil] at hlength
    have hpos := last.utf8Size_pos
    rcases List.eq_nil_or_concat after with rfl | ⟨after, c, rfl⟩
    · rw [byteLength_nil] at hlength
      omega
    · rw [List.concat_eq_append, ← List.append_assoc, ← List.append_assoc] at hrest
      obtain ⟨rfl, _⟩ := List.append_inj' hrest rfl
      refine slice?_eq_some_iff.2 ⟨before, after, by simp, ?_, ?_⟩
      · dsimp only
        omega
      · dsimp only
        omega

/-! ### Trimmed texts -/

/-- Trimming the end leaves out blanks. -/
lemma trimEnd_append (text : List Char) : ∃ blanks, text = trimEnd text ++ blanks := by
  refine ⟨(text.reverse.takeWhile isBlank).reverse, ?_⟩
  rw [trimEnd, ← List.reverse_append, List.takeWhile_append_dropWhile, List.reverse_reverse]

/-- The trimmed text stands behind the leading blanks. -/
lemma trim_append (text : List Char) :
    ∃ blanks, text = text.takeWhile isBlank ++ (trim text ++ blanks) := by
  obtain ⟨blanks, hblanks⟩ := trimEnd_append (trimStart text)
  refine ⟨blanks, ?_⟩
  rw [trim, ← hblanks, trimStart, List.takeWhile_append_dropWhile]

/-- What is inside of braces stands between them. -/
lemma mustacheInside?_eq_some {text inside : List Char} (h : mustacheInside? text = some inside) :
    text = '\x7b' :: (inside ++ ['\x7d']) := by
  obtain ⟨rest, hstart, hend⟩ := Option.bind_eq_some_iff.1 h
  obtain ⟨reversed, hreversed, rfl⟩ := Option.map_eq_some_iff.1 hend
  rw [dropStart?_eq_some_iff] at hstart hreversed
  have hrest : rest = reversed.reverse ++ ['\x7d'] := by
    simpa using congrArg List.reverse hreversed
  rw [hstart, hrest]
  rfl

/-- The text without blanks and braces around it stands where it is said to start. -/
lemma stripMustache_append (value : List Char) :
    ∃ before after, value = before ++ (stripMustache value ++ after) ∧
      byteLength before = mustacheStart value := by
  obtain ⟨blanks, hvalue⟩ := trim_append value
  unfold stripMustache mustacheStart
  cases hinside : mustacheInside? (trim value) with
  | none => exact ⟨_, blanks, hvalue, rfl⟩
  | some inside =>
    obtain ⟨more, hmore⟩ := trim_append inside
    refine ⟨value.takeWhile isBlank ++ '\x7b' :: inside.takeWhile isBlank,
      more ++ '\x7d' :: blanks, ?_, ?_⟩
    · rw [mustacheInside?_eq_some hinside] at hvalue
      conv_lhs => rw [hvalue, hmore]
      simp
    · have hbrace : '\x7b'.utf8Size = 1 := rfl
      simp [blankStart, hbrace, Nat.add_assoc]

end Text

open Text

/-- In a file in which the text starts at the offset, the part of the text has the location. -/
structure Locates (text : List Char) (offset : Nat) (location : Span) (part : List Char) :
    Prop where
  start : offset ≤ location.start
  lt : location.start < location.stop
  stop : location.stop ≤ offset + byteLength text
  slice : Span.slice? ⟨location.start - offset, location.stop - offset⟩ text = some part

/-- What a span covers has the moved span for its location. -/
lemma Locates.of_slice? {text part : List Char} {span : Span} (h : span.slice? text = some part)
    (hpart : part ≠ []) (offset : Nat) : Locates text offset (span.shift offset) part := by
  have hspan : (⟨span.start + offset - offset, span.stop + offset - offset⟩ : Span) = span := by
    simp
  obtain ⟨before, after, rfl, hstart, hstop⟩ := slice?_eq_some_iff.1 h
  have hlength : 0 < byteLength part := by
    cases part with
    | nil => exact absurd rfl hpart
    | cons c part => exact Nat.add_pos_left c.utf8Size_pos _
  refine ⟨by simp [Span.shift], ?_, ?_, ?_⟩
  · simp only [Span.shift]
    omega
  · simp only [Span.shift, byteLength_append]
    omega
  · simp only [Span.shift]
    rw [hspan]
    exact h

end ComponentApi
