import ComponentApi.Text.Blank
import ComponentApi.Text.WordPart
import ComponentApi.Visibility

/-!
# Documentation comments

A comment describes a symbol: text first, then keywords such as `@type {string}`. `parse` reads
block comments, runs of line comments and markup comments alike: it takes off the delimiters,
cleans each line, and gives every line either to the description or to the last keyword.
-/

namespace ComponentApi

/-- A keyword of a comment, written `@name description`. -/
structure Keyword where
  name : String
  description : String
  deriving DecidableEq, Repr, Inhabited

/-- What a comment says of a symbol. -/
structure DocComment where
  visibility : Visibility
  description : String
  keywords : List Keyword
  deriving DecidableEq, Repr, Inhabited

namespace DocComment

/-- The comment that says nothing but a visibility. -/
def empty (visibility : Visibility) : DocComment :=
  ⟨visibility, "", []⟩

/-- The first keyword of a name. -/
def keyword? (doc : DocComment) (name : String) : Option Keyword :=
  doc.keywords.find? (·.name == name)

/-- All keywords of a name, in their order. -/
def keywordsNamed (doc : DocComment) (name : String) : List Keyword :=
  doc.keywords.filter (·.name == name)

/-- Whether one of the keywords names a visibility. -/
def hasVisibilityKeyword (doc : DocComment) : Bool :=
  doc.keywords.any fun k => (Visibility.ofName? k.name).isSome

end DocComment

namespace Comment

open Text

/-- The inside of a comment: the text without the delimiters of a markup or a block comment. -/
def body (text : List Char) : List Char :=
  let text := trim text
  match dropStart? "<!--".toList text with
  | some inner => dropEnd "-->".toList inner
  | none =>
    match dropStart? "/*".toList text with
    | some inner => dropEnd "*/".toList (dropStart ['*'] inner)
    | none => text

/-- A line without the slashes of a line comment and the single star of a block comment. -/
def cleanLine (line : List Char) : List Char :=
  let line := dropStart "//".toList (trim line)
  match line with
  | '*' :: '*' :: _ => trim line
  | '*' :: rest => trim rest
  | _ => trim line

/-- Whether the character may start the name of a keyword. -/
def isKeywordStart (c : Char) : Bool :=
  c.isAlpha || c == '_'

/-- Whether the character may continue the name of a keyword. -/
def isKeywordPart (c : Char) : Bool :=
  isWordPart c || c == '-'

/-- The keyword that a line opens, if it opens one: `@`, a name, and then nothing, a blank or an
opening brace. -/
def keywordLine? : List Char → Option (List Char × List Char)
  | '@' :: c :: rest =>
    if isKeywordStart c then
      let (tail, value) := cutAt (!isKeywordPart ·) rest
      match value with
      | [] => some (c :: tail, [])
      | v :: _ => if isBlank v || v == '{' then some (c :: tail, trim value) else none
    else none
  | _ => none

/-- A comment while its lines are read; keywords stand in reverse order, each with its name and
its lines in reverse order. -/
structure Draft where
  description : List (List Char) := []
  keywords : List (List Char × List (List Char)) := []

/-- The draft with one more clean line. A line that opens no keyword continues the last keyword,
unless it is empty; before the first keyword it belongs to the description. -/
def Draft.add (draft : Draft) (line : List Char) : Draft :=
  match keywordLine? line with
  | some (name, value) =>
    { draft with keywords := (name, if value.isEmpty then [] else [value]) :: draft.keywords }
  | none =>
    match draft.keywords with
    | [] => { draft with description := line :: draft.description }
    | (name, lines) :: earlier =>
      if line.isEmpty then draft
      else { draft with keywords := (name, line :: lines) :: earlier }

/-- Lines put together with line feeds between them. -/
def joinLines (lines : List (List Char)) : List Char :=
  ['\n'].intercalate lines

/-- The keywords of a draft in the order of the text. -/
def Draft.finishKeywords (draft : Draft) : List Keyword :=
  draft.keywords.reverse.map fun (name, lines) =>
    ⟨String.ofList name, String.ofList (joinLines lines.reverse)⟩

/-- Reads a comment. A keyword `description` replaces the text before the first keyword, and the
first keyword that names a visibility replaces the default one. -/
def parse (text : List Char) (default : Visibility) : DocComment :=
  let draft := ((lines (body text)).map cleanLine).foldl Draft.add {}
  let keywords := draft.finishKeywords
  { visibility := (keywords.findSome? fun k => Visibility.ofName? k.name).getD default
    description :=
      match keywords.find? (·.name == "description") with
      | some k => k.description
      | none => String.ofList (trim (joinLines draft.description.reverse))
    keywords := keywords }

end Comment

end ComponentApi
