import ComponentApi.Comment.Basic
import ComponentApi.Failure
import ComponentApi.Script.LeadingComment

/-!
# Excerpts

The text of a script together with its place in the file of its component.
-/

namespace ComponentApi.Script

/-- A script block, or an expression in the markup. -/
structure Excerpt where
  scope : ScriptScope
  /-- Where the text starts in the file. -/
  offset : Nat
  text : List Char
  deriving Inhabited

namespace Excerpt

/-- The place of a span of the text in the file. -/
def location (excerpt : Excerpt) (span : Span) : Span :=
  span.shift excerpt.offset

/-- The text of a span. -/
def slice (excerpt : Excerpt) (span : Span) : String :=
  String.ofList (span.slice excerpt.text)

/-- Whether all instances of the component share what the text declares. -/
def isShared (excerpt : Excerpt) : Bool :=
  excerpt.scope == .shared

/-- The comment in front of the first position that has one; one that says nothing if none
has. -/
def comment (excerpt : Excerpt) (positions : List Nat) (default : Visibility) : DocComment :=
  match positions.findSome? (leadingComment? excerpt.text) with
  | some text => Comment.parse text default
  | none => .empty default

end Excerpt

end ComponentApi.Script
