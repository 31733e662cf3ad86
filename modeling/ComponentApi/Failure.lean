import ComponentApi.Visibility

/-!
# Failures

Why a component cannot be documented. A failure stops the work; each cause has its own message.
-/

namespace ComponentApi

/-- Where a script stands in a component. -/
inductive ScriptScope where
  /-- In the block that all instances of the component share. -/
  | shared
  /-- In a block of each instance. -/
  | individual
  /-- In an attribute of the markup. -/
  | inline
  deriving DecidableEq, Repr, Inhabited

/-- The word for a scope. -/
def ScriptScope.name : ScriptScope → String
  | .shared => "module"
  | .individual => "instance"
  | .inline => "inline"

/-- Why a component cannot be documented. -/
inductive Failure where
  /-- The options ask for a feature that there is not. -/
  | unsupportedFeature (name : String)
  /-- The options ignore a visibility that there is not. -/
  | unsupportedVisibility (name : String)
  /-- The script at the offset cannot be read. -/
  | syntaxError (scope : ScriptScope) (offset : Nat)
  deriving DecidableEq, Repr, Inhabited

end ComponentApi
