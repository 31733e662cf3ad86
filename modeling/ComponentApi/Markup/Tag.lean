import ComponentApi.Markup.Event
import ComponentApi.Text.Naming

/-!
# Tags

An opening tag with its attributes, gathered from markup events.
-/

namespace ComponentApi.Markup

/-- An attribute of an opening tag. -/
structure Attribute where
  name : Span
  value? : Option Span := none
  quote : Quote := .noValue
  deriving DecidableEq, Repr, Inhabited

/-- The attribute with a further part of its value. -/
def Attribute.extend (attr : Attribute) (part : Span) : Attribute :=
  { attr with
    value? := match attr.value? with
      | some value => some ⟨value.start, part.stop⟩
      | none => some part }

/-- An opening tag. -/
structure Tag where
  name : Span
  attributes : List Attribute := []
  deriving DecidableEq, Repr, Inhabited

/-- Where the tag starts: its bracket stands right before its name. -/
def Tag.start (tag : Tag) : Nat :=
  tag.name.start - 1

/-- What the name of an attribute asks for. -/
inductive Directive where
  /-- `bind:this`: the variable refers to the element. -/
  | reference
  /-- `bind:property`. -/
  | bind (property : List Char)
  /-- `on:event`, with modifiers after bars. -/
  | on (event : List Char)
  /-- `use:action`. -/
  | use (action : List Char)
  deriving DecidableEq, Repr, Inhabited

/-- The directive that a name of an attribute stands for. -/
def Directive.ofName? (name : List Char) : Option Directive :=
  match Text.dropStart? "bind:".toList name with
  | some property => some (if property == "this".toList then .reference else .bind property)
  | none =>
    match Text.dropStart? "on:".toList name with
    | some event => some (.on event)
    | none => (Text.dropStart? "use:".toList name).map .use

end ComponentApi.Markup
