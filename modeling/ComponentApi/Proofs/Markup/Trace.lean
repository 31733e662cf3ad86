import Mathlib.Data.List.Basic
import Mathlib.Tactic.Basic
import ComponentApi.Markup.Scanner

/-!
# Scans

`trace` gives the events of a template, each with the mode in which the scanner reports it.
`Reached` says where the scan of a template can stand between two characters. What holds of every
scan is proved by induction over `Reached`: it holds at the start, and every step keeps it. The scan
reaches the end of the template, where the last events are reported (`exists_reached_end`).
-/

namespace ComponentApi.Markup

open Text

namespace Scanner

/-- The events of the rest of a template, each with the mode in which it is reported. -/
def trace (scanner : Scanner) (position : Nat) : List Char → List (Mode × Event)
  | [] => (scanner.finish position).map (scanner.mode, ·)
  | c :: rest =>
    (scanner.step position c rest).2.map (scanner.mode, ·) ++
      (scanner.step position c rest).1.trace (position + c.utf8Size) rest

/-- Without the modes, the trace of a run is what the run reports. -/
lemma map_snd_trace (scanner : Scanner) (position : Nat) (text : List Char) :
    (scanner.trace position text).map Prod.snd = scanner.run position text := by
  induction text generalizing scanner position with
  | nil => simp [trace, Function.comp_def]
  | cons c rest ih =>
    rw [trace, run_cons, List.map_append, ih]
    simp [Function.comp_def]

end Scanner

/-- The events of a template, each with the mode in which it is reported. -/
def trace (template : List Char) : List (Mode × Event) :=
  ({} : Scanner).trace 0 template

/-- Without the modes, the trace of a template gives its events. -/
lemma trace_map_snd (template : List Char) : (trace template).map Prod.snd = events template :=
  Scanner.map_snd_trace _ _ _

/-- The scan of the template has read `before`, has reported the events in `reported` and stands as
`scanner`; `rest` is left. -/
inductive Reached (template : List Char) :
    (before : List Char) → Scanner → (reported : List (Mode × Event)) → (rest : List Char) → Prop
  | start : Reached template [] {} [] template
  | step {before : List Char} {scanner : Scanner} {reported : List (Mode × Event)} {c : Char}
      {rest : List Char} (h : Reached template before scanner reported (c :: rest)) :
      Reached template (before ++ [c]) (scanner.step (byteLength before) c rest).1
        (reported ++ (scanner.step (byteLength before) c rest).2.map (scanner.mode, ·)) rest

namespace Reached

variable {template before rest : List Char} {scanner : Scanner} {reported : List (Mode × Event)}

/-- What a scan has read and what is left make up the template. -/
lemma append_eq (h : Reached template before scanner reported rest) :
    before ++ rest = template := by
  induction h with
  | start => rfl
  | step _ ih => rw [← ih, List.append_assoc, List.singleton_append]

/-- The trace of a template is what has been reported so far and the trace of the rest. -/
lemma trace_eq (h : Reached template before scanner reported rest) :
    trace template = reported ++ scanner.trace (byteLength before) rest := by
  induction h with
  | start => rfl
  | step _ ih =>
    rw [ih, Scanner.trace, List.append_assoc, byteLength_append]
    rfl

/-- From wherever it stands, a scan goes on to the end of the template. -/
lemma to_end (h : Reached template before scanner reported rest) :
    ∃ last all, Reached template template last all [] := by
  induction rest generalizing before scanner reported with
  | nil =>
    have hbefore : before = template := by simpa using h.append_eq
    subst hbefore
    exact ⟨scanner, reported, h⟩
  | cons c rest ih => exact ih h.step

end Reached

/-- The scan of a template reaches its end, and there it reports the last events. -/
lemma exists_reached_end (template : List Char) :
    ∃ scanner reported, Reached template template scanner reported [] ∧
      trace template =
        reported ++ (scanner.finish (byteLength template)).map (scanner.mode, ·) := by
  have hstart : Reached template [] {} [] template := .start
  obtain ⟨scanner, reported, h⟩ := hstart.to_end
  exact ⟨scanner, reported, h, h.trace_eq⟩

end ComponentApi.Markup
