import ComponentApi.Text.Position

/-!
# Markup events

A template is reported as a sequence of events. Positions and spans count bytes from the start of
the template.
-/

namespace ComponentApi.Markup

/-- How the value of an attribute is delimited. -/
inductive Quote where
  | noValue
  | unquoted
  | single
  | double
  /-- An expression in braces, which belong to the value. -/
  | brace
  deriving DecidableEq, Repr, Inhabited

/-- What is met in a template. -/
inductive Event where
  | text (span : Span)
  /-- The content between the braces of an expression in the text. -/
  | mustache (span : Span)
  /-- The name of a tag that opens. -/
  | openName (span : Span)
  /-- The end of an opening tag. -/
  | openEnd (position : Nat)
  /-- The end of an opening tag that closes itself. -/
  | selfClose (position : Nat)
  /-- The name of a tag that closes. -/
  | close (span : Span)
  /-- The name of an attribute; an attribute in braces is its own name, braces included. -/
  | attributeName (span : Span)
  | attributeValue (span : Span)
  | attributeEnd (quote : Quote) (position : Nat)
  /-- The content of a comment. -/
  | comment (span : Span)
  /-- The end of the template. -/
  | finish
  deriving DecidableEq, Repr, Inhabited

end ComponentApi.Markup
