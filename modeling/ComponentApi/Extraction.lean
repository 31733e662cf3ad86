import ComponentApi.Diagnostic
import ComponentApi.Names.Table
import ComponentApi.Options.Basic

/-!
# What is extracted from a component

What has been found in the scripts and in the markup of a component so far.
-/

namespace ComponentApi

/-- What has been found in a component. -/
structure Extraction where
  settings : Settings
  names : NameTable := {}
  /-- The items in the order in which they were found, not yet merged. -/
  items : List Item := []
  diagnostics : List Diagnostic := []
  /-- The comment on the whole component. -/
  overview? : Option DocComment := none
  /-- The events that the markup forwards, each with the visibility of the item last found for
  it. -/
  forwarded : Assoc String Visibility := []
  deriving Inhabited

namespace Extraction

/-- The extraction with one more item. -/
def emit (found : Extraction) (item : Item) : Extraction :=
  { found with items := found.items ++ [item] }

/-- The extraction with one more diagnostic. -/
def report (found : Extraction) (diagnostic : Diagnostic) : Extraction :=
  { found with diagnostics := found.diagnostics ++ [diagnostic] }

/-- The extraction with one more declared name. -/
def declare (found : Extraction) (name : String) (declaration : Declaration) : Extraction :=
  { found with names := found.names.record name declaration }

end Extraction

end ComponentApi
