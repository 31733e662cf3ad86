import ComponentApi.Json.Basic

/-!
# Reading JSON

`parse?` reads a text as one JSON value, by the strict grammar: no comments, no trailing commas,
no blanks but space, tab, line feed and carriage return, and nothing after the value. The
recursion is bounded by the length of the text, since every value takes up a character.
-/

namespace ComponentApi.Json

/-- Whether the character is a blank between the parts of a value. -/
def isGap (c : Char) : Bool :=
  c == ' ' || c == '\n' || c == '\t' || c == '\r'

/-- The text without the blanks at its start. -/
def skipGap (text : List Char) : List Char :=
  text.dropWhile isGap

/-- The value of a hexadecimal digit. -/
def hexValue? (c : Char) : Option Nat :=
  if c.isDigit then some (c.toNat - 48)
  else if 'a' ≤ c && c ≤ 'f' then some (c.toNat - 87)
  else if 'A' ≤ c && c ≤ 'F' then some (c.toNat - 55)
  else none

/-- The value of four hexadecimal digits. -/
def hexQuad? (a b c d : Char) : Option Nat := do
  return (((← hexValue? a) * 16 + (← hexValue? b)) * 16 + (← hexValue? c)) * 16 + (← hexValue? d)

/-- The content of a string literal while it is read: the characters in reverse, the first half
of a surrogate pair that waits for the second, and whether a half was left alone. -/
structure Content where
  chars : List Char := []
  high : Option Nat := none
  broken : Bool := false

/-- The content after one more code unit. -/
def Content.addUnit (content : Content) (unit : Nat) : Content :=
  match content.high with
  | some high =>
    if 0xDC00 ≤ unit && unit < 0xE000 then
      let c := Char.ofNat (0x10000 + (high - 0xD800) * 0x400 + (unit - 0xDC00))
      { content with chars := c :: content.chars, high := none }
    else { content with high := none, broken := true }
  | none =>
    if 0xD800 ≤ unit && unit < 0xDC00 then { content with high := some unit }
    else if 0xDC00 ≤ unit && unit < 0xE000 then { content with broken := true }
    else { content with chars := Char.ofNat unit :: content.chars }

/-- The content after one more character that stands for itself. -/
def Content.addChar (content : Content) (c : Char) : Content :=
  { content with
    chars := c :: content.chars, high := none, broken := content.broken || content.high.isSome }

/-- The text of the content, or nothing if half of a pair stands alone in it. -/
def Content.text? (content : Content) : Option String :=
  if content.broken || content.high.isSome then none
  else some (String.ofList content.chars.reverse)

/-- The character that a short escape stands for. -/
def shortEscape? : Char → Option Char
  | '"' => some '"'
  | '\\' => some '\\'
  | '/' => some '/'
  | 'b' => some '\x08'
  | 'f' => some '\x0c'
  | 'n' => some '\n'
  | 'r' => some '\r'
  | 't' => some '\t'
  | _ => none

/-- Reads a string literal after its opening mark, up to and with its closing mark. -/
def readString (content : Content) : List Char → Option (Content × List Char)
  | '"' :: rest => some (content, rest)
  | '\\' :: 'u' :: a :: b :: c :: d :: rest =>
    match hexQuad? a b c d with
    | some unit => readString (content.addUnit unit) rest
    | none => none
  | '\\' :: e :: rest =>
    match shortEscape? e with
    | some c => readString (content.addChar c) rest
    | none => none
  | c :: rest => if c.toNat < 32 || c == '\\' then none else readString (content.addChar c) rest
  | [] => none

/-- A run of at least one digit. -/
def readDigits? (text : List Char) : Option (List Char × List Char) :=
  match text.takeWhile Char.isDigit with
  | [] => none
  | digits => some (digits, text.dropWhile Char.isDigit)

/-- The whole part of a number: a zero, or digits that start with no zero. -/
def readWhole? : List Char → Option (List Char × List Char)
  | '0' :: rest => some (['0'], rest)
  | text => readDigits? text

/-- The fraction of a number, if it has one. -/
def readFraction? : List Char → Option (List Char × List Char)
  | '.' :: rest => (readDigits? rest).map fun (digits, rest) => ('.' :: digits, rest)
  | text => some ([], text)

/-- The exponent of a number, if it has one. -/
def readExponent? : List Char → Option (List Char × List Char)
  | e :: rest =>
    if e == 'e' || e == 'E' then
      match rest with
      | s :: digits =>
        if s == '+' || s == '-' then
          (readDigits? digits).map fun (digits, rest) => (e :: s :: digits, rest)
        else (readDigits? rest).map fun (digits, rest) => (e :: digits, rest)
      | [] => none
    else some ([], e :: rest)
  | [] => some ([], [])

/-- Reads a number; what follows the number is not looked at, save that a zero in front of more
digits is no number. -/
def readNumber? (text : List Char) : Option (Json × List Char) := do
  let (sign, text) := match text with
    | '-' :: rest => (['-'], rest)
    | _ => ([], text)
  let (whole, text) ← readWhole? text
  if whole == ['0'] && (text.head?.any Char.isDigit) then none
  let (fraction, text) ← readFraction? text
  let (exponent, text) ← readExponent? text
  return (.number (String.ofList (sign ++ whole ++ fraction ++ exponent)), text)

mutual

/-- Reads a value; the text starts with no blank. -/
def readValue : Nat → List Char → Option (Json × List Char)
  | 0, _ => none
  | bound + 1, text =>
    match text with
    | 'n' :: 'u' :: 'l' :: 'l' :: rest => some (.null, rest)
    | 't' :: 'r' :: 'u' :: 'e' :: rest => some (.bool true, rest)
    | 'f' :: 'a' :: 'l' :: 's' :: 'e' :: rest => some (.bool false, rest)
    | '"' :: rest =>
      (readString {} rest).map fun (content, rest) =>
        ((content.text?.map Json.string).getD .unpaired, rest)
    | '[' :: rest =>
      match skipGap rest with
      | ']' :: rest => some (.array [], rest)
      | rest => (readItems bound [] rest).map fun (items, rest) => (.array items, rest)
    | '\x7b' :: rest =>
      match skipGap rest with
      | '\x7d' :: rest => some (.object [], rest)
      | rest => (readFields bound [] rest).map fun (fields, rest) => (.object fields, rest)
    | text => readNumber? text

/-- Reads the items of an array from its first item to its closing bracket; `done` holds those
read before, in reverse. -/
def readItems : Nat → List Json → List Char → Option (List Json × List Char)
  | 0, _, _ => none
  | bound + 1, done, text =>
    match readValue bound text with
    | none => none
    | some (item, rest) =>
      match skipGap rest with
      | ',' :: rest => readItems bound (item :: done) (skipGap rest)
      | ']' :: rest => some ((item :: done).reverse, rest)
      | _ => none

/-- Reads the fields of an object from its first name to its closing brace; `done` holds those
read before, in reverse. -/
def readFields : Nat → List (String × Json) → List Char → Option (List (String × Json) × List Char)
  | 0, _, _ => none
  | bound + 1, done, text =>
    match text with
    | '"' :: rest =>
      match readString {} rest with
      | none => none
      | some (content, rest) =>
        match content.text?, skipGap rest with
        | some name, ':' :: rest =>
          match readValue bound (skipGap rest) with
          | none => none
          | some (value, rest) =>
            match skipGap rest with
            | ',' :: rest => readFields bound ((name, value) :: done) (skipGap rest)
            | '\x7d' :: rest => some (((name, value) :: done).reverse, rest)
            | _ => none
        | _, _ => none
    | _ => none

end

/-- The value that a text is written for. -/
def parse? (text : String) : Option Json :=
  let chars := text.toList
  match readValue (2 * chars.length + 2) (skipGap chars) with
  | some (value, rest) => if (skipGap rest).isEmpty then some value else none
  | none => none

end ComponentApi.Json
