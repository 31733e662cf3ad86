import ComponentApi.Text.Blank

/-!
# Lengths of cut texts

Dropping, trimming and splitting never lengthen a text. Readers that go on with what is left of a
text end for this reason.
-/

namespace ComponentApi.Text

/-- Dropping characters from the start never makes a text longer. -/
theorem length_dropWhile_le (p : Char → Bool) (l : List Char) :
    (l.dropWhile p).length ≤ l.length := by
  induction l with
  | nil => simp
  | cons c l ih =>
    rw [List.dropWhile_cons]
    split
    · simp only [List.length_cons]; omega
    · exact Nat.le_refl _

/-- Trimming never makes a text longer. -/
theorem length_trim_le (l : List Char) : (trim l).length ≤ l.length := by
  have hs := length_dropWhile_le isBlank l
  have he := length_dropWhile_le isBlank (trimStart l).reverse
  simp only [trim, trimEnd, trimStart, List.length_reverse] at *
  omega

/-- A start that is dropped and the rest make up the length of the text. -/
theorem length_dropStart? {start text rest : List Char} (h : dropStart? start text = some rest) :
    text.length = start.length + rest.length := by
  fun_induction dropStart? start text with
  | case1 => simp_all
  | case2 => simp at h
  | case3 s start c text _ ih => simp only [List.length_cons, ih h]; omega
  | case4 => simp at h

/-- An end that is dropped and the rest make up the length of the text. -/
theorem length_dropEnd? {tail text rest : List Char} (h : dropEnd? tail text = some rest) :
    text.length = tail.length + rest.length := by
  obtain ⟨r, hr, rfl⟩ := Option.map_eq_some_iff.1 h
  simpa using length_dropStart? hr

/-- The part behind a separator is no longer than the text. -/
theorem length_splitOnce?_le {separator : Char} {text before after : List Char}
    (h : splitOnce? separator text = some (before, after)) : after.length ≤ text.length := by
  unfold splitOnce? cutAt at h
  split at h
  · simp at h
  · next b c a hcut =>
    have hlen := length_dropWhile_le (fun x => !(x == separator)) text
    simp only [Prod.mk.injEq] at hcut
    obtain ⟨rfl, rfl⟩ : b = before ∧ a = after := by simpa using h
    rw [hcut.2] at hlen
    simp only [List.length_cons] at hlen
    omega

end ComponentApi.Text
