import ComponentApi.Proofs.Report.Parallel

/-!
# Reading does not depend on what is requested

While scripts and markup are read, the settings of an extraction are carried along. The only ones
that are looked at are the visibilities of methods and actions without a visibility of their own. So
what is found under two settings that are `Alike` in these differs in the settings alone: reading
commutes with `withSettings`. This is the case of two readings side by side in which the component
is not moved.
-/

namespace ComponentApi

/-- A span that is moved by nothing stays where it is. -/
lemma Span.shift_zero (span : Span) : span.shift 0 = span := rfl

/-- An item that is moved by nothing stays where it is. -/
lemma Item.shift_zero (item : Item) : item.shift 0 = item := by
  simp [shift, Span.shift_zero]

/-- A diagnostic that is moved by nothing stays where it is. -/
lemma Diagnostic.shift_zero (diagnostic : Diagnostic) : diagnostic.shift 0 = diagnostic := rfl

/-- A failure that is moved by nothing stays where it is. -/
lemma Failure.shift_zero (failure : Failure) : failure.shift 0 = failure := by
  cases failure <;> rfl

/-- Findings that are moved by nothing stay where they are. -/
lemma Extraction.shift_zero (found : Extraction) : found.shift 0 = found := by
  simp [shift, Item.shift_zero, Diagnostic.shift_zero]

namespace Source

/-- A source that is moved by nothing stays where it is. -/
lemma shift_zero (source : Source) : source.shift 0 = source := by
  simp [shift, ScriptBlock.shift]

/-- What is found under alike settings differs in the settings alone, and so does what fails. -/
theorem extract_alike (source : Source) {first second : Settings} (h : first.Alike second) :
    source.extract second = (source.extract first).map (·.withSettings second) := by
  have hparallel := source.extract_parallel 0 h
  rw [shift_zero] at hparallel
  generalize source.extract first = result at hparallel
  generalize source.extract second = result' at hparallel
  cases hparallel with
  | error failure =>
    rw [Failure.shift_zero]
    rfl
  | ok hfound =>
    rw [hfound.eq, Extraction.shift_zero]
    rfl

/-- An extraction keeps the settings it was started with. -/
lemma settings_of_extract {source : Source} {settings : Settings} {found : Extraction}
    (h : source.extract settings = .ok found) : found.settings = settings := by
  have hsame := source.extract_alike (.refl settings)
  rw [h] at hsame
  rw [Except.ok.inj hsame, Extraction.withSettings_settings]

end Source

end ComponentApi
