import ComponentApi.Session
import ComponentApi.Proofs.Markup.Extension
import ComponentApi.Proofs.Report.Locations

/-!
# Why a component cannot be documented

The failures that lie on the way to a report (`Source.failures`) are those of the options, of the
script blocks and of the handlers in the template, in this order. The main statement is that a
report fails at the first of them and is made if there is none. In a session, a script or an
expression that cannot be read changes nothing, and what stands behind a handler that cannot be
read has no effect.
-/

namespace ComponentApi

open Script Markup

/-! ### Options -/

namespace Options

/-- The words in the options that mean nothing, as failures: features first. -/
def failures (options : Options) : List Failure :=
  (options.features.filter fun word => (Feature.ofWord? word).isNone).map .unsupportedFeature ++
    (options.ignoredVisibilities.filter fun word => (Visibility.ofName? word).isNone).map
      .unsupportedVisibility

/-- Checking the features stops at the first word that names none. -/
lemma checkFeatures_stopsAt (words : List String) :
    StopsAt ((words.filter fun word => (Feature.ofWord? word).isNone).map .unsupportedFeature)
      (checkFeatures words) := by
  induction words with
  | nil => exact .ok []
  | cons word rest ih =>
    rw [checkFeatures, List.filter_cons]
    cases Feature.ofWord? word with
    | none => exact .error _ _
    | some feature => exact ih.map _

/-- Checking the visibilities stops at the first word that names none. -/
lemma checkVisibilities_stopsAt (words : List String) (seen : List Visibility) :
    StopsAt ((words.filter fun word => (Visibility.ofName? word).isNone).map
      .unsupportedVisibility) (checkVisibilities seen words) := by
  induction words generalizing seen with
  | nil => exact .ok seen
  | cons word rest ih =>
    rw [checkVisibilities, List.filter_cons]
    cases Visibility.ofName? word with
    | none => exact .error _ _
    | some visibility => exact ih _

/-- Checking options stops at the first of their failures. -/
lemma check_stopsAt (options : Options) : StopsAt options.failures options.check := by
  refine (checkFeatures_stopsAt options.features).bind fun features => ?_
  rw [← List.append_nil (List.map _ _)]
  exact (checkVisibilities_stopsAt options.ignoredVisibilities []).bind fun _ => .ok _

end Options

/-! ### Components -/

namespace Source

/-- The failures on the way to a report: those of the options, of the script blocks and of the
handlers in the template. -/
def failures (source : Source) (options : Options) : List Failure :=
  options.failures ++
    (source.scripts.filterMap ScriptBlock.failure? ++ Markup.failures source.markup)

/-- Reading a component stops at the first script, or else the first handler, that cannot be read.
-/
lemma extract_stopsAt (source : Source) (settings : Settings) :
    StopsAt (source.scripts.filterMap ScriptBlock.failure? ++ Markup.failures source.markup)
      (source.extract settings) := by
  refine (Extraction.readScripts_stopsAt _ source.scripts).bind fun found => ?_
  -- The failures of the template do not depend on what the scripts have shown.
  have hfailure : (found.readMarkup source.template.toList source.templateOffset).2 = _ :=
    readMarkup_failure found source.markup
  generalize found.readMarkup source.template.toList source.templateOffset = result at hfailure ⊢
  generalize Markup.failures source.markup = failures at hfailure ⊢
  obtain ⟨next, failure?⟩ := result
  cases failures with
  | nil =>
    cases hfailure
    exact .ok next
  | cons failure rest =>
    cases hfailure
    exact .error failure rest

/-- A report stops at the first failure of the options or the component. -/
lemma report_stopsAt (source : Source) (options : Options) :
    StopsAt (source.failures options) (source.report options) := by
  refine options.check_stopsAt.bind fun settings => ?_
  rw [← List.append_nil (_ ++ _)]
  exact (source.extract_stopsAt settings).bind fun _ => .ok _

/-- Nothing fails exactly if all words name something and all scripts and handlers can be read. -/
lemma failures_eq_nil_iff (source : Source) (options : Options) :
    source.failures options = [] ↔
      (∀ word ∈ options.features, (Feature.ofWord? word).isSome) ∧
      (∀ word ∈ options.ignoredVisibilities, (Visibility.ofName? word).isSome) ∧
      (∀ block ∈ source.scripts, (parseModule? block.isTypeScript block.content.toList).isSome) ∧
      ∀ handler ∈ handlers source.markup,
        (parseExpression? ('(' :: (handler.1 ++ [')']))).isSome := by
  simp only [failures, Options.failures, Markup.failures, List.append_eq_nil_iff,
    List.map_eq_nil_iff, List.filter_eq_nil_iff, List.filterMap_eq_nil_iff, ScriptBlock.failure?,
    handlerFailure?, inlineFailure?, Option.isNone_iff_eq_none, ite_eq_left_iff, reduceCtorEq,
    imp_false, Decidable.not_not, and_assoc, ← Option.ne_none_iff_isSome, ne_eq]

end Source

/-! ### Sessions -/

namespace Extraction

/-- What cannot be read changes nothing. -/
lemma settle_of_stopsAt {found : Extraction} {failure? : Option Failure}
    {result : Except Failure Extraction} (h : StopsAt failure?.toList result) :
    (found.settle result).2 = failure? ∧
      (failure?.isSome = true → (found.settle result).1 = found) := by
  cases failure? with
  | none =>
    cases h
    exact ⟨rfl, nofun⟩
  | some failure =>
    cases h
    exact ⟨rfl, fun _ => rfl⟩

end Extraction

/-- A tag with two handlers, of which the second cannot be read. -/
def brokenTag : List Char := "<i on:a=\x7bd('e')\x7d on:b=\x7bf(\x7d/>".toList

/-- Another tag with a handler that cannot be read. -/
def nextTag : List Char := "<b on:c=\x7bd('e') g\x7d/>".toList

/-- What is known when `d` dispatches events. -/
def dispatching : Extraction := { settings := {}, names := { dispatchers := ["d"] } }

end ComponentApi
