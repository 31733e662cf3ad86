import ComponentApi.Json.Basic

/-!
# Writing JSON

Two written forms: `compact` on one line without blanks, and `pretty` with every item and every
field on a line of its own, two more blanks deep than what holds it. Both escape in strings the
quotation mark, the backslash and the control characters, and nothing else.
-/

namespace ComponentApi.Json

/-- The digit of a number below sixteen, with small letters. -/
def hexDigit (n : Nat) : Char :=
  if n < 10 then Char.ofNat (48 + n) else Char.ofNat (87 + n)

/-- How a character stands in a string literal. -/
def escaped (c : Char) : List Char :=
  match c with
  | '"' => ['\\', '"']
  | '\\' => ['\\', '\\']
  | '\x08' => ['\\', 'b']
  | '\x0c' => ['\\', 'f']
  | '\n' => ['\\', 'n']
  | '\r' => ['\\', 'r']
  | '\t' => ['\\', 't']
  | c =>
    if c.toNat < 32 then ['\\', 'u', '0', '0', hexDigit (c.toNat / 16), hexDigit (c.toNat % 16)]
    else [c]

/-- The string literal of a text. -/
def quoted (text : String) : List Char :=
  '"' :: text.toList.flatMap escaped ++ ['"']

/-- Texts put together with a separator between them. -/
def separated (separator : List Char) (texts : List (List Char)) : List Char :=
  separator.intercalate texts

mutual

/-- The value on one line, without blanks. -/
def compact : Json → List Char
  | .null => "null".toList
  | .bool true => "true".toList
  | .bool false => "false".toList
  | .number lexeme => lexeme.toList
  | .string text => quoted text
  | .unpaired => "null".toList
  | .array items => '[' :: separated [','] (compactItems items) ++ [']']
  | .object fields => '\x7b' :: separated [','] (compactFields fields) ++ ['\x7d']

/-- Each item on its own. -/
def compactItems : List Json → List (List Char)
  | [] => []
  | item :: rest => compact item :: compactItems rest

/-- Each field on its own. -/
def compactFields : List (String × Json) → List (List Char)
  | [] => []
  | (name, value) :: rest => (quoted name ++ ':' :: compact value) :: compactFields rest

end

/-- A new line that starts with two blanks for each level. -/
def newLine (level : Nat) : List Char :=
  '\n' :: List.replicate (2 * level) ' '

/-- Lines between an opening and a closing mark, one level deeper than the marks. -/
def block (opening closing : Char) (level : Nat) : List (List Char) → List Char
  | [] => [opening, closing]
  | texts =>
    opening :: newLine (level + 1) ++ separated (',' :: newLine (level + 1)) texts ++
      newLine level ++ [closing]

mutual

/-- The value over several lines; the line on which it starts is `level` levels deep. -/
def prettyAt (level : Nat) : Json → List Char
  | .array items => block '[' ']' level (prettyItems (level + 1) items)
  | .object fields => block '\x7b' '\x7d' level (prettyFields (level + 1) fields)
  | value => compact value

/-- Each item on its own. -/
def prettyItems (level : Nat) : List Json → List (List Char)
  | [] => []
  | item :: rest => prettyAt level item :: prettyItems level rest

/-- Each field on its own. -/
def prettyFields (level : Nat) : List (String × Json) → List (List Char)
  | [] => []
  | (name, value) :: rest =>
    (quoted name ++ ':' :: ' ' :: prettyAt level value) :: prettyFields level rest

end

/-- The value over several lines. -/
def pretty (value : Json) : String :=
  String.ofList (prettyAt 0 value)

end ComponentApi.Json
