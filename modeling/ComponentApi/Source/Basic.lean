import ComponentApi.Failure
import ComponentApi.Source.Attributes

/-!
# Sources

A component as it comes in: its template and its script blocks, each with its place in the file.
-/

namespace ComponentApi

/-- A script block, cut out of the file of its component. -/
structure ScriptBlock where
  content : String
  /-- The attributes of the script tag, as written. -/
  attributes : String := ""
  /-- Where the content starts in the file. -/
  offset : Nat := 0
  deriving DecidableEq, Repr, Inhabited

namespace ScriptBlock

/-- The value of an attribute; empty if the attribute has none. -/
def attribute? (block : ScriptBlock) (name : String) : Option String :=
  (Source.attribute? block.attributes.toList name.toList).map String.ofList

/-- Whether all instances of the component share the block. -/
def isModule (block : ScriptBlock) : Bool :=
  block.attribute? "context" == some "module" || (block.attribute? "module").isSome

/-- Whether the block is written in TypeScript. -/
def isTypeScript (block : ScriptBlock) : Bool :=
  block.attribute? "lang" == some "ts" || block.attribute? "lang" == some "typescript"

/-- The scope of the block. -/
def scope (block : ScriptBlock) : ScriptScope :=
  if block.isModule then .shared else .individual

end ScriptBlock

/-- A component, split into its template and its script blocks. -/
structure Source where
  fileName? : Option String := none
  template : String := ""
  /-- Where the template starts in the file. -/
  templateOffset : Nat := 0
  /-- The script blocks in the order of the file. -/
  scripts : List ScriptBlock := []
  deriving DecidableEq, Repr, Inhabited

end ComponentApi
