import ComponentApi.Text.Blank
import ComponentApi.Text.Position
import ComponentApi.Text.WordPart

/-!
# Names in component files

Small readings of names and of the texts that hold them: component names, tags with raw text,
values in mustache braces, the root of an expression and the stem of a file name.
-/

namespace ComponentApi.Text

/-- Whether the name starts with an upper-case letter, as the names of components do. -/
def isComponentName : List Char → Bool
  | [] => false
  | c :: _ => isUppercase c

/-- Whether the text holds only blanks of markup. -/
def isMarkupBlankText (text : List Char) : Bool :=
  text.all isMarkupBlank

/-- What one pair of surrounding braces encloses, if the text has one. -/
def mustacheInside? (text : List Char) : Option (List Char) :=
  (dropStart? ['\x7b'] text).bind (dropEnd? ['\x7d'])

/-- The trimmed text, without one pair of surrounding braces if it has one. -/
def stripMustache (value : List Char) : List Char :=
  match mustacheInside? (trim value) with
  | some inner => trim inner
  | none => trim value

/-- The number of bytes of the blanks in front of the text. -/
def blankStart (text : List Char) : Nat :=
  byteLength (text.takeWhile isBlank)

/-- Where the text without blanks and braces around it starts, in bytes. -/
def mustacheStart (value : List Char) : Nat :=
  match mustacheInside? (trim value) with
  | some inner => blankStart value + 1 + blankStart inner
  | none => blankStart value

/-- Whether the character may stand in an identifier of an expression. -/
def isIdentifierPart (c : Char) : Bool :=
  isAlphanumeric c || c == '_' || c == '$'

/-- The identifier at the start of an expression such as `user.name`; empty if there is none. -/
def rootIdentifier (expression : List Char) : List Char :=
  match trimStart expression with
  | [] => []
  | c :: rest =>
    if isIdentifierPart c && !c.isDigit then c :: rest.takeWhile isIdentifierPart else []

/-- The last part of a path: what follows its last slash or backslash. -/
def fileName (path : List Char) : List Char :=
  (path.reverse.takeWhile fun c => !(c == '/' || c == '\\')).reverse

/-- The file name up to its first dot; a name that starts with a dot is kept whole. -/
def fileStem (path : List Char) : List Char :=
  match fileName path with
  | [] => []
  | '.' :: rest => '.' :: rest
  | name => name.takeWhile (· != '.')

/-- The text with its ASCII capitals made small. -/
def lowercaseAscii (text : List Char) : List Char :=
  text.map Char.toLower

/-- Whether two texts are equal up to the case of ASCII letters. -/
def equalIgnoringCase (a b : List Char) : Bool :=
  lowercaseAscii a == lowercaseAscii b

/-- The tags whose content is raw text. -/
def rawTextTags : List (List Char) :=
  ["script".toList, "style".toList, "textarea".toList, "title".toList]

/-- Whether the content of the tag is raw text, whatever the case of its name. -/
def isRawTextTag (tag : List Char) : Bool :=
  rawTextTags.contains (lowercaseAscii tag)

end ComponentApi.Text
