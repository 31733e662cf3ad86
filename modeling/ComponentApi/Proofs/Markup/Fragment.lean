import Mathlib.Data.List.Basic
import Mathlib.Data.List.Infix
import Mathlib.Tactic.Basic
import ComponentApi.Markup.Scanner

/-!
# Templates as lists of nodes

A fragment of a template is a list of nodes: text, expressions in braces, comments, tags and
elements with raw text. The types carry what makes a node readable, so that a text with a `<` in it
or a value in quotes that holds its own quote cannot be built.

A node is laid out as a list of pieces. A piece is printed, reported, or both: printing joins the
texts of the pieces (`Piece.printAll`), and `Piece.eventsFrom` gives the events that report them at
their places in bytes.
-/

namespace ComponentApi.Markup

open Text

/-! ### Pieces -/

/-- A piece of a template. -/
inductive Piece where
  /-- Printed and not reported. -/
  | mark (text : List Char)
  | text (content : List Char)
  | mustache (content : List Char)
  | openName (name : List Char)
  /-- Reported and not printed, as are `selfClose` and `attributeEnd`. -/
  | openEnd
  | selfClose
  | close (name : List Char)
  | attributeName (name : List Char)
  | attributeValue (value : List Char)
  | attributeEnd (quote : Quote)
  | comment (content : List Char)
  deriving DecidableEq, Repr

namespace Piece

/-- The text of a piece. -/
def print : Piece → List Char
  | .mark content | .text content | .mustache content | .openName content | .close content
  | .attributeName content | .attributeValue content | .comment content => content
  | .openEnd | .selfClose | .attributeEnd _ => []

/-- The event that reports a piece which starts at the position. -/
def event? (position : Nat) : Piece → Option Event
  | .mark _ => none
  | .text content => some (.text ⟨position, position + byteLength content⟩)
  | .mustache content => some (.mustache ⟨position, position + byteLength content⟩)
  | .openName name => some (.openName ⟨position, position + byteLength name⟩)
  | .openEnd => some (.openEnd position)
  | .selfClose => some (.selfClose position)
  | .close name => some (.close ⟨position, position + byteLength name⟩)
  | .attributeName name => some (.attributeName ⟨position, position + byteLength name⟩)
  | .attributeValue value => some (.attributeValue ⟨position, position + byteLength value⟩)
  | .attributeEnd quote => some (.attributeEnd quote position)
  | .comment content => some (.comment ⟨position, position + byteLength content⟩)

/-- Whether a piece is reported. -/
def isReported : Piece → Bool
  | .mark _ => false
  | _ => true

/-- The text of a list of pieces. -/
def printAll (pieces : List Piece) : List Char :=
  pieces.flatMap print

/-- The events that report a list of pieces which starts at the position. -/
@[simp] def eventsFrom (position : Nat) : List Piece → List Event
  | [] => []
  | piece :: rest =>
    (piece.event? position).toList ++ eventsFrom (position + byteLength piece.print) rest

/-- Without pieces, nothing is printed. -/
@[simp] lemma printAll_nil : printAll [] = [] := rfl

/-- The first piece is printed in front of the others. -/
@[simp] lemma printAll_cons (piece : Piece) (rest : List Piece) :
    printAll (piece :: rest) = piece.print ++ printAll rest := rfl

/-- Pieces are printed one after the other. -/
@[simp] lemma printAll_append (pieces more : List Piece) :
    printAll (pieces ++ more) = printAll pieces ++ printAll more :=
  List.flatMap_append

/-- What follows some pieces is reported from where they end. -/
@[simp] lemma eventsFrom_append (position : Nat) (pieces more : List Piece) :
    eventsFrom position (pieces ++ more) =
      eventsFrom position pieces ++ eventsFrom (position + byteLength (printAll pieces)) more := by
  induction pieces generalizing position with
  | nil => rfl
  | cons piece pieces ih => simp [ih, Nat.add_assoc]

/-- The piece for a text, unless there is no text. -/
def unlessEmpty (piece : List Char → Piece) (text : List Char) : List Piece :=
  if text.isEmpty then [] else [piece text]

/-- A text prints the same whether or not its empty piece is left out. -/
lemma printAll_unlessEmpty {piece : List Char → Piece} (h : ∀ text, (piece text).print = text)
    (text : List Char) : printAll (unlessEmpty piece text) = text := by
  cases text with
  | nil => rfl
  | cons c text => simp [unlessEmpty, h]

/-- The piece that an event about the template reports. -/
def ofEvent? (template : List Char) : Event → Option Piece
  | .text span => (span.slice? template).map .text
  | .mustache span => (span.slice? template).map .mustache
  | .openName span => (span.slice? template).map .openName
  | .openEnd _ => some .openEnd
  | .selfClose _ => some .selfClose
  | .close span => (span.slice? template).map .close
  | .attributeName span => (span.slice? template).map .attributeName
  | .attributeValue span => (span.slice? template).map .attributeValue
  | .attributeEnd quote _ => some (.attributeEnd quote)
  | .comment span => (span.slice? template).map .comment
  | .finish => none

end Piece

/-! ### Attributes -/

/-- Blanks that separate what stands in a tag. -/
structure Gap where
  text : List Char
  nonempty : text ≠ []
  blank : ∀ c ∈ text, isMarkupBlank c = true

/-- What may stand between braces: read after an opening brace it never closes that brace, and it
ends outside of inner braces and quotes. -/
structure Enclosed where
  text : List Char
  balanced : ∃ braces, text.foldlM Braces.feed .opened = some braces ∧
    braces.depth = 1 ∧ braces.quote = none

namespace Enclosed

/-- The text with its braces. -/
def withBraces (inside : Enclosed) : List Char :=
  '\x7b' :: inside.text ++ ['\x7d']

end Enclosed

/-- The name of an attribute, up to what ends it. -/
structure AttributeName where
  text : List Char
  nonempty : text ≠ []
  noBrace : text.head? ≠ some '\x7b'
  plain : ∀ c ∈ text, c ≠ '=' ∧ endsTagName c = false

/-- The value of an attribute, by its delimiters. -/
inductive AttributeValue where
  | double (text : List Char) (plain : '"' ∉ text)
  | single (text : List Char) (plain : '\'' ∉ text)
  | unquoted (text : List Char) (nonempty : text ≠ [])
    (start : text.head? ≠ some '"' ∧ text.head? ≠ some '\'' ∧ text.head? ≠ some '\x7b')
    (plain : ∀ c ∈ text, isMarkupBlank c = false ∧ c ≠ '>')
  | brace (inside : Enclosed)

/-- An attribute of an opening tag. -/
inductive TagAttribute where
  | bare (name : AttributeName)
  | valued (name : AttributeName) (value : AttributeValue)
  /-- An attribute in braces. -/
  | shorthand (inside : Enclosed)

open Piece (unlessEmpty)

/-- The pieces of a value in quotes; an empty value is not reported. -/
def quotedPieces (mark : Char) (quote : Quote) (text : List Char) : List Piece :=
  .mark [mark] :: unlessEmpty .attributeValue text ++ [.attributeEnd quote, .mark [mark]]

/-- The pieces of a value; the braces of an expression belong to it, quotes do not. -/
def AttributeValue.pieces : AttributeValue → List Piece
  | .double text _ => quotedPieces '"' .double text
  | .single text _ => quotedPieces '\'' .single text
  | .unquoted text _ _ _ => [.attributeValue text, .attributeEnd .unquoted]
  | .brace inside => [.attributeValue inside.withBraces, .attributeEnd .brace]

namespace TagAttribute

/-- The pieces of an attribute, without the end of a bare one. -/
def pieces : TagAttribute → List Piece
  | .bare name => [.attributeName name.text]
  | .valued name value => .attributeName name.text :: .mark ['='] :: value.pieces
  | .shorthand inside => [.attributeName inside.withBraces, .attributeEnd .noValue]

/-- Whether the end of the attribute is reported only where the next thing starts: blanks may still
be followed by the value of a bare attribute. -/
def endsLate : TagAttribute → Bool
  | .bare _ => true
  | _ => false

end TagAttribute

/-! ### Nodes -/

/-- How an opening tag ends. -/
inductive Ending where
  | «open»
  | selfClosing (gap : Gap)

/-- The end of an attribute that is reported late. -/
def lateEnd (late : Bool) : List Piece :=
  if late then [.attributeEnd .noValue] else []

/-- The pieces of an opening tag after its name, or after an attribute whose end may be
outstanding. -/
def tagPieces (late : Bool) : List (Gap × TagAttribute) → Ending → List Piece
  | [], .open => lateEnd late ++ [.openEnd, .mark ['>']]
  | [], .selfClosing gap =>
    .mark gap.text :: lateEnd late ++ [.mark ['/'], .selfClose, .mark ['>']]
  | (gap, first) :: rest, ending =>
    .mark gap.text :: lateEnd late ++ first.pieces ++ tagPieces first.endsLate rest ending

/-- Text outside of tags. -/
structure PlainText where
  text : List Char
  nonempty : text ≠ []
  plain : ∀ c ∈ text, c ≠ '<' ∧ c ≠ '\x7b'

/-- The content of a comment, which does not hold its end. -/
structure CommentText where
  text : List Char
  unclosed : ¬ ['-', '-', '>'] <:+: text

/-- The name of an opening tag. -/
structure TagName where
  first : Char
  rest : List Char
  letter : first.isAlpha = true
  plain : ∀ c ∈ rest, endsTagName c = false

/-- The name of a closing tag. -/
structure CloseName where
  text : List Char
  nonempty : text ≠ []
  plain : ∀ c ∈ text, isMarkupBlank c = false ∧ c ≠ '>'

/-- An element whose content is raw text. The content does not close the element, that is, hold its
name after `</` and before what ends the name of a tag. The closing tag may spell the name with
other capitals. -/
structure RawElement where
  name : List Char
  raw : isRawTextTag name = true
  attributes : List (Gap × TagAttribute)
  content : List Char
  unclosed : ∀ spelling c, equalIgnoringCase spelling name = true → endsTagName c = true →
    ¬ '<' :: '/' :: spelling ++ [c] <:+: content
  closing : List Char
  closes : equalIgnoringCase closing name = true

namespace TagName

/-- The whole name. -/
def text (name : TagName) : List Char :=
  name.first :: name.rest

end TagName

/-- A node of a fragment. -/
inductive Node where
  | text (plain : PlainText)
  | mustache (inside : Enclosed)
  | comment (note : CommentText)
  | openTag (name : TagName) (plain : isRawTextTag name.text = false)
    (attributes : List (Gap × TagAttribute)) (ending : Ending)
  | closeTag (name : CloseName)
  | raw (element : RawElement)

namespace Node

/-- Whether the node is a text. -/
def isText : Node → Bool
  | .text _ => true
  | _ => false

/-- The pieces of a closing tag. -/
def closePieces (name : List Char) : List Piece :=
  [.mark ['<', '/'], .close name, .mark ['>']]

/-- The pieces of a node. -/
def pieces : Node → List Piece
  | .text plain => [.text plain.text]
  | .mustache inside => [.mark ['\x7b'], .mustache inside.text, .mark ['\x7d']]
  | .comment note => [.mark ['<', '!', '-', '-'], .comment note.text, .mark ['-', '-', '>']]
  | .openTag name _ attributes ending =>
    .mark ['<'] :: .openName name.text :: tagPieces false attributes ending
  | .closeTag name => closePieces name.text
  | .raw element =>
    .mark ['<'] :: .openName element.name :: tagPieces false element.attributes .open ++
      unlessEmpty .text element.content ++ closePieces element.closing

end Node

/-- A list of nodes in which no text follows another: two texts in a row are one text. -/
structure Fragment where
  nodes : List Node
  separated : nodes.IsChain fun first second => ¬ (first.isText ∧ second.isText)

namespace Fragment

/-- The pieces of a fragment are those of its nodes. -/
def pieces (fragment : Fragment) : List Piece :=
  fragment.nodes.flatMap Node.pieces

/-- The text of a fragment. -/
def print (fragment : Fragment) : List Char :=
  Piece.printAll fragment.pieces

end Fragment

end ComponentApi.Markup
