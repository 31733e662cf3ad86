import ComponentApi.Markup.Reading

/-!
# Sessions

The parts of a component can be read one by one into the same extraction, and its table of names can
be changed in between. A script or an expression that cannot be read leaves everything as it was. Of
a template, what was found in front of the failure stays. In either case the session goes on.
-/

namespace ComponentApi

/-- A step of a session. -/
inductive Step where
  | script (block : ScriptBlock)
  /-- An expression of the markup, which starts at the offset. -/
  | inline (expression : List Char) (offset : Nat)
  /-- A template, which starts at the offset. -/
  | markup (template : List Char) (offset : Nat)
  | declare (name : String) (declaration : Declaration)
  | addFactory (name : String)
  | addDispatcher (name : String)

namespace Extraction

/-- What has been found after an attempt to read more: if it fails, what was found before. -/
def settle (found : Extraction) : Except Failure Extraction → Extraction × Option Failure
  | .ok next => (next, none)
  | .error failure => (found, some failure)

/-- What has been found after a step, and why the step failed, if it did. -/
def perform (found : Extraction) : Step → Extraction × Option Failure
  | .script block => found.settle (found.readScript block)
  | .inline expression offset => found.settle (found.readInline expression offset)
  | .markup template offset => found.readMarkup template offset
  | .declare name declaration => (found.declare name declaration, none)
  | .addFactory name => ({ found with names := found.names.addFactory name }, none)
  | .addDispatcher name => ({ found with names := found.names.addDispatcher name }, none)

/-- What has been found after steps, one after the other. -/
def performAll (found : Extraction) (steps : List Step) : Extraction :=
  steps.foldl (fun found step => (found.perform step).1) found

end Extraction

end ComponentApi
