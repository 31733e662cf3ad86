import ComponentApi.Document.Basic
import ComponentApi.Document.Layout
import ComponentApi.Markup.Reading

/-!
# Documenting a component

The scripts of a component are read in their order, then its template. What is found is merged and
laid out in a document.
-/

namespace ComponentApi

/-- The document of a component, and what is worth telling about its scripts. -/
structure Report where
  document : Document
  diagnostics : List Diagnostic

namespace Extraction

/-- The document of all that was found. -/
def document (found : Extraction) (name? : Option String) : Document :=
  (Catalog.ofItems found.items).document found.settings found.overview? name?

end Extraction

namespace Source

/-- The name of the component: the stem of its file name. -/
def componentName? (source : Source) : Option String :=
  source.fileName?.map fun path => String.ofList (Text.fileStem path.toList)

/-- All that is found in a component. -/
def extract (source : Source) (settings : Settings) : Except Failure Extraction := do
  let found ← Extraction.readScripts { settings } source.scripts
  match found.readMarkup source.template.toList source.templateOffset with
  | (found, none) => return found
  | (_, some failure) => throw failure

/-- The report on a component under checked options. -/
def reportWith (source : Source) (settings : Settings) : Except Failure Report := do
  let found ← source.extract settings
  return { document := found.document source.componentName?, diagnostics := found.diagnostics }

/-- The report on a component. The options are checked first. -/
def report (source : Source) (options : Options) : Except Failure Report := do
  source.reportWith (← options.check)

/-- A report is made exactly if the options pass their check and the extraction succeeds. -/
theorem report_eq_ok_iff {source : Source} {options : Options} {report : Report} :
    source.report options = .ok report ↔
      ∃ settings found, options.check = .ok settings ∧ source.extract settings = .ok found ∧
        report = ⟨found.document source.componentName?, found.diagnostics⟩ := by
  unfold Source.report reportWith
  cases hcheck : options.check with
  | error failure => simp [bind, Except.bind]
  | ok settings =>
    cases hfound : source.extract settings with
    | error failure => simp [bind, Except.bind, hfound]
    | ok found => simp [bind, Except.bind, pure, Except.pure, hfound, eq_comm]

end Source

/-- A report as JSON. -/
def Report.toJson (report : Report) : Json :=
  .object [("document", report.document.toJson),
    ("diagnostics", .ofList Diagnostic.toJson report.diagnostics)]

end ComponentApi
