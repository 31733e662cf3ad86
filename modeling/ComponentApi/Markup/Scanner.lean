import ComponentApi.Markup.Event
import ComponentApi.Text.Naming

/-!
# Scanning markup

`events` turns a template into events. The scanner reads one character at a time; what a character
means depends on the mode the scanner is in. All characters that have a meaning are ASCII, so one
byte long. Only two decisions look ahead: where a comment ends and where raw text ends.
-/

namespace ComponentApi.Markup

open Text

/-- The nesting inside an expression in braces. Braces inside quotes do not count. -/
structure Braces where
  depth : Nat
  quote : Option Char
  escaped : Bool
  deriving DecidableEq, Repr, Inhabited

namespace Braces

/-- The nesting after the first opening brace. -/
def opened : Braces :=
  ⟨1, none, false⟩

/-- The nesting after one more character; nothing if the character closes the first brace. -/
def feed (braces : Braces) (c : Char) : Option Braces :=
  match braces.quote with
  | some quote =>
    if braces.escaped then some { braces with escaped := false }
    else if c == '\\' then some { braces with escaped := true }
    else if c == quote then some { braces with quote := none }
    else some braces
  | none =>
    if c == '\'' || c == '"' || c == '\x60' then some { braces with quote := some c }
    else if c == '\x7b' then some { braces with depth := braces.depth + 1 }
    else if c == '\x7d' then
      if braces.depth ≤ 1 then none else some { braces with depth := braces.depth - 1 }
    else some braces

end Braces

/-- What the scanner is reading. -/
inductive Mode where
  | text
  | mustache (braces : Braces)
  /-- After `<`. -/
  | beforeTag
  | tagName
  /-- After a slash in an opening tag. -/
  | selfClosing
  /-- After `</`. -/
  | beforeClose
  | closeName
  | afterClose
  | beforeAttribute
  | attributeName
  /-- In an attribute in braces. -/
  | shorthand (braces : Braces)
  | afterAttribute
  | beforeValue
  | doubleQuoted
  | singleQuoted
  | unquoted
  | braceValue (braces : Braces)
  /-- After `<!`. -/
  | beforeDeclaration
  | declaration
  /-- After `<?`. -/
  | instruction
  /-- After `<!-`. -/
  | beforeComment
  | comment
  /-- In the last two characters of a comment's closing mark. -/
  | commentEnd
  | rawText
  deriving DecidableEq, Repr, Inhabited

/-- The scanner between two characters. -/
structure Scanner where
  mode : Mode := .text
  /-- Where the section that is being read starts. -/
  start : Nat := 0
  /-- The name of the tag that was opened last, in reverse. -/
  tag : List Char := []
  deriving DecidableEq, Repr, Inhabited

/-- Whether the character ends the name of an opening tag. -/
def endsTagName (c : Char) : Bool :=
  c == '/' || c == '>' || isMarkupBlank c

/-- What follows `start` in the text, if the text starts with it up to the case of ASCII
letters. -/
def dropStartIgnoringCase? (start text : List Char) : Option (List Char) :=
  if equalIgnoringCase (text.take start.length) start then some (text.drop start.length) else none

/-- Whether the text, which follows a `<`, closes the tag whose raw content is being read. -/
def closesRawText (tag text : List Char) : Bool :=
  match (dropStart? ['/'] text).bind (dropStartIgnoringCase? tag) with
  | some [] => true
  | some (c :: _) => endsTagName c
  | none => false

namespace Scanner

/-- The text since the start of the section, if there is any. -/
def pendingText (scanner : Scanner) (position : Nat) : List Event :=
  if scanner.start < position then [.text ⟨scanner.start, position⟩] else []

/-- Reads a character of plain text. -/
def inText (scanner : Scanner) (position : Nat) (c : Char) : Scanner × List Event :=
  if c == '<' then
    ({ scanner with mode := .beforeTag, start := position }, scanner.pendingText position)
  else if c == '\x7b' then
    ({ scanner with mode := .mustache .opened, start := position + 1 },
      scanner.pendingText position)
  else ({ scanner with mode := .text }, [])

/-- The scanner after a section that ends with the character at the position. -/
def enter (scanner : Scanner) (mode : Mode) (position : Nat) : Scanner :=
  { scanner with mode, start := position + 1 }

/-- Reads a character between the attributes of an opening tag. -/
def inTag (scanner : Scanner) (position : Nat) (c : Char) : Scanner × List Event :=
  if c == '>' then
    let mode := if isRawTextTag scanner.tag.reverse then .rawText else .text
    (scanner.enter mode position, [.openEnd position])
  else if c == '/' then ({ scanner with mode := .selfClosing }, [])
  else if c == '\x7b' then ({ scanner with mode := .shorthand .opened, start := position }, [])
  else if isMarkupBlank c then ({ scanner with mode := .beforeAttribute }, [])
  else ({ scanner with mode := .attributeName, start := position }, [])

/-- Reads a character after the name of an attribute. -/
def afterName (scanner : Scanner) (position : Nat) (c : Char) : Scanner × List Event :=
  if c == '=' then ({ scanner with mode := .beforeValue }, [])
  else if isMarkupBlank c then ({ scanner with mode := .afterAttribute }, [])
  else
    let (scanner, events) := scanner.inTag position c
    (scanner, .attributeEnd .noValue position :: events)

/-- The events of a value that ends at the position. -/
def valueEvents (scanner : Scanner) (quote : Quote) (position : Nat) : List Event :=
  (if scanner.start < position then [.attributeValue ⟨scanner.start, position⟩] else []) ++
    [.attributeEnd quote position]

/-- Reads a character of a value without quotes. -/
def inUnquoted (scanner : Scanner) (position : Nat) (c : Char) : Scanner × List Event :=
  if isMarkupBlank c || c == '>' then
    let events := scanner.valueEvents .unquoted position
    let (scanner, more) := (scanner.enter .beforeAttribute position).inTag position c
    (scanner, events ++ more)
  else ({ scanner with mode := .unquoted }, [])

/-- Reads the character `c` at the position; `rest` follows it. -/
def step (scanner : Scanner) (position : Nat) (c : Char) (rest : List Char) :
    Scanner × List Event :=
  match scanner.mode with
  | .text => scanner.inText position c
  | .mustache braces =>
    match braces.feed c with
    | some braces => ({ scanner with mode := .mustache braces }, [])
    | none => (scanner.enter .text position, [.mustache ⟨scanner.start, position⟩])
  | .beforeTag =>
    if c == '!' then (scanner.enter .beforeDeclaration position, [])
    else if c == '?' then (scanner.enter .instruction position, [])
    else if c.isAlpha then
      ({ scanner with mode := .tagName, start := position, tag := [c] }, [])
    else if c == '/' then ({ scanner with mode := .beforeClose }, [])
    else scanner.inText position c
  | .tagName =>
    if endsTagName c then
      let (next, events) := { scanner with start := position }.inTag position c
      (next, .openName ⟨scanner.start, position⟩ :: events)
    else ({ scanner with tag := c :: scanner.tag }, [])
  | .selfClosing =>
    if c == '>' then (scanner.enter .text position, [.selfClose position])
    else if isMarkupBlank c then (scanner, [])
    else scanner.inTag position c
  | .beforeClose =>
    if isMarkupBlank c then (scanner, [])
    else if c == '>' then (scanner.enter .text position, [])
    else ({ scanner with mode := .closeName, start := position }, [])
  | .closeName =>
    if c == '>' then (scanner.enter .text position, [.close ⟨scanner.start, position⟩])
    else if isMarkupBlank c then
      (scanner.enter .afterClose position, [.close ⟨scanner.start, position⟩])
    else (scanner, [])
  | .afterClose => if c == '>' then (scanner.enter .text position, []) else (scanner, [])
  | .beforeAttribute => scanner.inTag position c
  | .attributeName =>
    if c == '=' || endsTagName c then
      let (next, events) := { scanner with start := position }.afterName position c
      (next, .attributeName ⟨scanner.start, position⟩ :: events)
    else (scanner, [])
  | .shorthand braces =>
    match braces.feed c with
    | some braces => ({ scanner with mode := .shorthand braces }, [])
    | none =>
      (scanner.enter .beforeAttribute position,
        [.attributeName ⟨scanner.start, position + 1⟩, .attributeEnd .noValue (position + 1)])
  | .afterAttribute => scanner.afterName position c
  | .beforeValue =>
    if c == '"' then (scanner.enter .doubleQuoted position, [])
    else if c == '\'' then (scanner.enter .singleQuoted position, [])
    else if c == '\x7b' then
      ({ scanner with mode := .braceValue .opened, start := position }, [])
    else if isMarkupBlank c then (scanner, [])
    else { scanner with start := position }.inUnquoted position c
  | .doubleQuoted =>
    if c == '"' then
      (scanner.enter .beforeAttribute position, scanner.valueEvents .double position)
    else (scanner, [])
  | .singleQuoted =>
    if c == '\'' then
      (scanner.enter .beforeAttribute position, scanner.valueEvents .single position)
    else (scanner, [])
  | .unquoted => scanner.inUnquoted position c
  | .braceValue braces =>
    match braces.feed c with
    | some braces => ({ scanner with mode := .braceValue braces }, [])
    | none =>
      (scanner.enter .beforeAttribute position,
        [.attributeValue ⟨scanner.start, position + 1⟩, .attributeEnd .brace (position + 1)])
  | .beforeDeclaration =>
    if c == '-' then (scanner.enter .beforeComment position, [])
    else ({ scanner with mode := .declaration }, [])
  | .declaration => if c == '>' then (scanner.enter .text position, []) else (scanner, [])
  | .instruction => if c == '>' then (scanner.enter .text position, []) else (scanner, [])
  | .beforeComment =>
    if c == '-' then (scanner.enter .comment position, [])
    else ({ scanner with mode := .declaration }, [])
  | .comment =>
    if c == '-' && (dropStart? ['-', '>'] rest).isSome then
      ({ scanner with mode := .commentEnd }, [.comment ⟨scanner.start, position⟩])
    else (scanner, [])
  | .commentEnd => if c == '>' then (scanner.enter .text position, []) else (scanner, [])
  | .rawText =>
    if c == '<' && closesRawText scanner.tag.reverse rest then
      ({ scanner with mode := .beforeTag, start := position }, scanner.pendingText position)
    else (scanner, [])

/-- The events at the end of the template: text and comments are reported as far as they go. -/
def finish (scanner : Scanner) (position : Nat) : List Event :=
  match scanner.mode with
  | .text | .mustache _ | .rawText => scanner.pendingText position ++ [.finish]
  | .comment =>
    (if scanner.start < position then [.comment ⟨scanner.start, position⟩] else []) ++ [.finish]
  | _ => [.finish]

/-- The events of the rest of a template, which starts at the position. -/
def run (scanner : Scanner) (position : Nat) : List Char → List Event
  | [] => scanner.finish position
  | c :: rest =>
    match scanner.step position c rest with
    | (next, []) => next.run (position + c.utf8Size) rest
    | (next, events) => events ++ next.run (position + c.utf8Size) rest

/-- At the end of the template, a run reports what the scanner still has to report. -/
@[simp] theorem run_nil (scanner : Scanner) (position : Nat) :
    scanner.run position [] = scanner.finish position := rfl

/-- A run reports what its first step reports, and then what a run from there on reports. -/
theorem run_cons (scanner : Scanner) (position : Nat) (c : Char) (rest : List Char) :
    scanner.run position (c :: rest) =
      (scanner.step position c rest).2 ++
        (scanner.step position c rest).1.run (position + c.utf8Size) rest := by
  rw [run]
  split <;> simp_all

end Scanner

/-- The events of a template. -/
def events (template : List Char) : List Event :=
  ({} : Scanner).run 0 template

end ComponentApi.Markup
