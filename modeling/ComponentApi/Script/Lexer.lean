import ComponentApi.Json.Printer
import ComponentApi.Json.Reader
import ComponentApi.Script.Number
import ComponentApi.Script.Token
import ComponentApi.Text.Blank

/-!
# Cutting a script into tokens

`next?` reads the token at the start of an input. Where the meaning of a character depends on the
grammar, the parser asks again: `regExp?` reads a regular expression where `next?` saw a slash,
`template?` reads on in a template, and `wideAngle` joins what follows a `>`.

Loops over characters are bounded by the length of the input.
-/

namespace ComponentApi.Script

open Text

/-! ### Blanks and comments -/

/-- Where blanks and comments are being skipped. -/
inductive GapMode where
  | code
  | lineComment
  | blockComment

/-- The input after its blanks and comments, and whether a line ends in them; nothing if a block
comment does not end. -/
def skipGap? (mode : GapMode) (newline : Bool) (position : Nat) :
    List Char → Option (Input × Bool)
  | [] =>
    match mode with
    | .blockComment => none
    | _ => some (⟨[], position⟩, newline)
  | c :: rest =>
    match mode, c, rest with
    | .blockComment, '*', '/' :: rest => skipGap? .code newline (position + 2) rest
    | .blockComment, c, rest =>
      skipGap? .blockComment (newline || isLineEnd c) (position + c.utf8Size) rest
    | .lineComment, c, rest =>
      if isLineEnd c then skipGap? .code true (position + c.utf8Size) rest
      else skipGap? .lineComment newline (position + c.utf8Size) rest
    | .code, '/', '/' :: rest => skipGap? .lineComment newline (position + 2) rest
    | .code, '/', '*' :: rest => skipGap? .blockComment newline (position + 2) rest
    | .code, c, rest =>
      if isLineEnd c then skipGap? .code true (position + c.utf8Size) rest
      else if isSpace c then skipGap? .code newline (position + c.utf8Size) rest
      else some (⟨c :: rest, position⟩, newline)

/-! ### Escapes -/

/-- The value of hexadecimal digits. -/
def hexNumber? (digits : List Char) : Option Nat :=
  digits.foldlM (fun n c => (Json.hexValue? c).map (16 * n + ·)) 0

/-- The code point of a Unicode escape after its `\u`, with the number of characters it takes:
four digits, or digits in braces. -/
def unicodeEscape? : List Char → Option (Nat × Nat)
  | '\x7b' :: rest =>
    let digits := rest.takeWhile (· != '\x7d')
    if digits.isEmpty || rest.length ≤ digits.length then none
    else (hexNumber? digits).bind fun n =>
      if n ≤ 0x10FFFF then some (n, digits.length + 2) else none
  | a :: b :: c :: d :: _ => (Json.hexQuad? a b c d).map fun n => (n, 4)
  | _ => none

/-- The code points of a Unicode escape after its `\u`: one, or the one that two halves of a
surrogate pair make together. The escape after a first half must have four digits. -/
def unicodeUnit? (text : List Char) : Option (Nat × Nat) := do
  let (high, count) ← unicodeEscape? text
  let alone := some (high, count)
  if text.head? == some '\x7b' || high < 0xD800 || 0xDC00 ≤ high then alone
  else
    match text.drop count with
    | '\\' :: 'u' :: rest =>
      match rest with
      | a :: b :: c :: d :: _ =>
        let low ← Json.hexQuad? a b c d
        if 0xDC00 ≤ low && low < 0xE000 then
          some (0x10000 + (high - 0xD800) * 0x400 + (low - 0xDC00), 10)
        else alone
      | _ => none
    | _ => alone

/-- Whether the number is half of a surrogate pair. -/
def isSurrogate (n : Nat) : Bool :=
  0xD800 ≤ n && n < 0xE000

/-- Four hexadecimal digits. -/
def hexQuad (n : Nat) : List Char :=
  [n / 0x1000, n / 0x100 % 16, n / 0x10 % 16, n % 16].map Json.hexDigit

/-- The text of code points. Where half of a surrogate pair stands alone, each such half is
written as a replacement character and four digits, and so is the replacement character. -/
def textOfPoints (points : List Nat) : String :=
  if points.any isSurrogate then
    String.ofList <| points.flatMap fun n =>
      if isSurrogate n || n == 0xFFFD then '\uFFFD' :: hexQuad n else [Char.ofNat n]
  else String.ofList (points.map Char.ofNat)

/-- The value of an octal escape, and the number of its digits. -/
def octalEscape (digits : List Char) : Nat × Nat :=
  let isOctal (c : Char) : Bool := '0' ≤ c && c ≤ '7'
  let all := (digits.take 3).takeWhile isOctal
  let count := match all with
    | c :: _ => if c ≤ '3' then all.length else min 2 all.length
    | [] => 0
  ((all.take count).foldl (fun n c => 8 * n + (c.toNat - 48)) 0, count)

/-- The code points that an escape after its backslash stands for, and the number of characters it
takes. Octal escapes are for strings only. -/
def escape? (octal : Bool) : List Char → Option (List Nat × Nat)
  | [] => none
  | '\r' :: '\n' :: _ => some ([], 2)
  | 'u' :: rest => (unicodeUnit? rest).map fun (n, count) => ([n], count + 1)
  | 'x' :: a :: b :: _ => (hexNumber? [a, b]).map fun n => ([n], 3)
  | 'x' :: _ => none
  | c :: rest =>
    if isLineEnd c then some ([], 1)
    else if c == '0' && !(rest.head?.any Char.isDigit) then some ([0], 1)
    else if c.isDigit then
      if !octal then none
      else if c == '8' || c == '9' then some ([c.toNat], 1)
      else
        let (n, count) := octalEscape (c :: rest)
        some ([n], count)
    else
      let value := match c with
        | 'b' => 8
        | 't' => 9
        | 'n' => 10
        | 'v' => 11
        | 'f' => 12
        | 'r' => 13
        | c => c.toNat
      some ([value], 1)

/-! ### Words -/

/-- The characters of a word at the start of an input, in reverse; `escaped` tells whether an
escape was met. Nothing if an escape does not fit. -/
def readWord? : Nat → (chars : List Char) → (escaped : Bool) → Input →
    Option (List Char × Bool × Input)
  | 0, chars, escaped, input => some (chars, escaped, input)
  | bound + 1, chars, escaped, input =>
    match input.chars with
    | '\\' :: 'u' :: rest =>
      match unicodeEscape? rest with
      | none => none
      | some (n, count) =>
        let c := Char.ofNat n
        if !isSurrogate n && (if chars.isEmpty then isWordStart c else isWordChar c) then
          readWord? bound (c :: chars) true (input.skip (count + 2))
        else none
    | '\\' :: _ => none
    | c :: rest =>
      if isWordChar c then
        readWord? bound (c :: chars) escaped ⟨rest, input.position + c.utf8Size⟩
      else some (chars, escaped, input)
    | [] => some (chars, escaped, input)

/-- The word at the start of an input, which starts one. -/
def word? (input : Input) : Option (String × Bool × Input) :=
  let plain := input.chars.takeWhile isWordChar
  let rest := input.skip plain.length
  match rest.chars with
  | '\\' :: _ =>
    (readWord? (rest.chars.length + 1) plain.reverse false rest).map fun (chars, escaped, rest) =>
      (String.ofList chars.reverse, escaped, rest)
  | _ => some (String.ofList plain, false, rest)

/-! ### Numbers -/

/-- Digits, with single underscores between them: the digits, and how many characters they and
the underscores take. Nothing if an underscore stands elsewhere. -/
def readDigits? (isDigit : Char → Bool) (text : List Char) : Option (List Char × Nat) :=
  let all := text.takeWhile fun c => isDigit c || c == '_'
  let misplaced := all.head? == some '_' || all.getLast? == some '_' ||
    (all.zip all.tail).any fun (a, b) => a == '_' && b == '_'
  if misplaced then none else some (all.filter (· != '_'), all.length)

/-- The number of digits in a base. -/
def ofDigits (base : Nat) (digits : List Char) : Nat :=
  digits.foldl (fun n c => base * n + (Json.hexValue? c).getD 0) 0

/-- The digit test of a base. -/
def isDigitOf (base : Nat) (c : Char) : Bool :=
  (Json.hexValue? c).any (· < base)

/-- The token of a whole number and the number of its characters; a final `n` makes it big. -/
def wholeNumber (value count : Nat) (rest : List Char) : Token × Nat :=
  match rest with
  | 'n' :: _ => (.bigInt (toString value), count + 1)
  | _ => (.number (Number.name value 1), count)

/-- A number after its base mark, such as `0x`. -/
def basedNumber? (base : Nat) (text : List Char) : Option (Token × Nat) := do
  let (digits, count) ← readDigits? (isDigitOf base) text
  if digits.isEmpty then none
  return wholeNumber (ofDigits base digits) (count + 2) (text.drop count)

/-- The exponent at the start of a text, and the number of its characters. -/
def exponent? : List Char → Option (Int × Nat)
  | e :: rest =>
    if e == 'e' || e == 'E' then
      let (negative, sign) := match rest with
        | '-' :: _ => (true, 1)
        | '+' :: _ => (false, 1)
        | _ => (false, 0)
      (readDigits? Char.isDigit (rest.drop sign)).bind fun (digits, count) =>
        if digits.isEmpty then none
        else
          let value : Int := ofDigits 10 digits
          some (if negative then -value else value, 1 + sign + count)
    else some (0, 0)
  | [] => some (0, 0)

/-- The fraction at the start of a text, after its point, and the number of its characters. -/
def fraction? (text : List Char) : Option (List Char × Nat) :=
  if text.head?.any Char.isDigit then readDigits? Char.isDigit text else some ([], 0)

/-- The rest of a decimal number after its whole digits. -/
def decimalTail? (whole : Nat) (count : Nat) (text : List Char) : Option (Token × Nat) := do
  let (places, taken) ← match text with
    | '.' :: rest => (fraction? rest).map fun (digits, n) => (digits, n + 1)
    | _ => some ([], 0)
  let (exponent, exponentCount) ← exponent? (text.drop taken)
  return (.number (Number.decimalName whole (ofDigits 10 places) places.length exponent),
    count + taken + exponentCount)

/-- A number that starts with a zero and further digits: octal unless it has an eight or a
nine. An exponent directly after its digits starts with a small letter. -/
def legacyNumber? (text : List Char) : Option (Token × Nat) :=
  let digits := text.takeWhile Char.isDigit
  let rest := text.drop digits.length
  if digits.any fun c => c == '8' || c == '9' then
    let whole := ofDigits 10 digits
    if rest.head? == some 'E' then some (.number (Number.name whole 1), digits.length)
    else decimalTail? whole digits.length rest
  else some (.number (Number.name (ofDigits 8 digits) 1), digits.length)

/-- A decimal number that starts with a digit other than zero. -/
def decimalNumber? (text : List Char) : Option (Token × Nat) := do
  let (digits, count) ← readDigits? Char.isDigit text
  let rest := text.drop count
  let value := ofDigits 10 digits
  if rest.head? == some 'n' then return wholeNumber value count rest
  else decimalTail? value count rest

/-- The number at the start of a text and the number of its characters. -/
def numberStart? : List Char → Option (Token × Nat)
  | '0' :: c :: rest =>
    if c == 'x' || c == 'X' then basedNumber? 16 rest
    else if c == 'o' || c == 'O' then basedNumber? 8 rest
    else if c == 'b' || c == 'B' then basedNumber? 2 rest
    else if c.isDigit then legacyNumber? ('0' :: c :: rest)
    else if c == 'n' then some (wholeNumber 0 1 (c :: rest))
    else decimalTail? 0 1 (c :: rest)
  | ['0'] => some (.number "0", 1)
  | '.' :: rest => decimalTail? 0 0 ('.' :: rest)
  | text => decimalNumber? text

/-- Whether a number starts with a zero and has an exponent directly after its digits. -/
def isScaledZero : List Char → Bool
  | '0' :: rest =>
    match rest.dropWhile Char.isDigit with
    | c :: _ => c == 'e' || c == 'E'
    | [] => false
  | _ => false

/-- The number at the start of an input. No digit and no word may follow it directly, unless it
starts with a zero and ends with an exponent directly after its digits. -/
def number? (input : Input) : Option (Token × Input) := do
  let (token, count) ← numberStart? input.chars
  let rest := input.skip count
  let meetsWord := rest.chars.head?.any fun c => c.isDigit || isWordStart c
  if meetsWord && !isScaledZero (input.chars.take count) then none
  return (token, rest)

/-! ### Strings and templates -/

/-- The code points of a string up to its closing mark, in reverse. -/
def readString? (quote : Char) : Nat → (points : List Nat) → Input → Option (List Nat × Input)
  | 0, _, _ => none
  | bound + 1, points, input =>
    match input.chars with
    | [] => none
    | '\\' :: rest =>
      match escape? true rest with
      | none => none
      | some (more, count) =>
        readString? quote bound (more.reverse ++ points) (input.skip (count + 1))
    | c :: rest =>
      let after : Input := ⟨rest, input.position + c.utf8Size⟩
      if c == quote then some (points, after)
      else if c == '\n' || c == '\r' then none
      else readString? quote bound (c.toNat :: points) after

/-- A text of a template up to the end of the template or the next expression. `points` holds the
code points so far in reverse, or nothing once an escape was invalid. -/
def readTemplate? : Nat → (points : Option (List Nat)) → Input → Option (Token × Input)
  | 0, _, _ => none
  | bound + 1, points, input =>
    let finish (last : Bool) : Token := .template (points.map fun p => textOfPoints p.reverse) last
    match input.chars with
    | [] => none
    | '\x60' :: _ => some (finish true, input.skip 1)
    | '$' :: '\x7b' :: _ => some (finish false, input.skip 2)
    | '\\' :: rest =>
      match escape? false rest with
      | some (more, count) =>
        readTemplate? bound (points.map (more.reverse ++ ·)) (input.skip (count + 1))
      | none => readTemplate? bound none (input.skip 2)
    | '\r' :: '\n' :: _ => readTemplate? bound (points.map (10 :: ·)) (input.skip 2)
    | c :: rest =>
      let point := if c == '\r' then 10 else c.toNat
      readTemplate? bound (points.map (point :: ·)) ⟨rest, input.position + c.utf8Size⟩

/-- The text of a template at the start of an input. -/
def template? (input : Input) : Option (Token × Input) :=
  readTemplate? (input.chars.length + 1) (some []) input

/-! ### Regular expressions -/

/-- The input after the body of a regular expression and its closing slash; `inClass` between
brackets. -/
def skipRegExpBody? : Nat → (inClass : Bool) → Input → Option Input
  | 0, _, _ => none
  | bound + 1, inClass, input =>
    match input.chars with
    | [] => none
    | '\\' :: c :: _ => if isLineEnd c then none else skipRegExpBody? bound inClass (input.skip 2)
    | c :: rest =>
      let after : Input := ⟨rest, input.position + c.utf8Size⟩
      if isLineEnd c then none
      else if c == '[' then skipRegExpBody? bound true after
      else if c == ']' then skipRegExpBody? bound false after
      else if c == '/' && !inClass then some after
      else skipRegExpBody? bound inClass after

/-- Whether the flags of a regular expression are known and stand once each. -/
def knownFlags : List Char → Bool
  | [] => true
  | c :: rest => "dgimsuvy".toList.contains c && !rest.contains c && knownFlags rest

/-- Whether the flags of a regular expression are valid: known, once each, and not both of the two
that choose a Unicode mode. -/
def validFlags (flags : List Char) : Bool :=
  knownFlags flags && !(flags.contains 'u' && flags.contains 'v')

/-- The input after a regular expression whose opening slash has been read, and whether its flags
are valid. -/
def regExp? (input : Input) : Option (Input × Bool) := do
  let rest ← skipRegExpBody? (input.chars.length + 1) false input
  let flags := rest.chars.takeWhile fun c => c.isAlphanum || c == '$' || c == '_'
  return (rest.skip flags.length, validFlags flags)

/-! ### Tokens -/

/-- The mark at the start of an input. A `?.` in front of a digit is a `?`. -/
def mark? (input : Input) : Option (Token × Input) := do
  let chars := input.chars
  let mark ← marks.find? fun mark => (dropStart? mark chars).isSome
  let mark := if mark == ['?', '.'] && ((chars.drop 2).head?.any Char.isDigit) then ['?'] else mark
  return (.mark (String.ofList mark), input.skip mark.length)

/-- The token at the start of an input that starts with no blank. -/
def token? (input : Input) : Option (Token × Input) :=
  match input.chars with
  | [] => some (.eof, input)
  | '.' :: c :: _ => if c.isDigit then number? input else mark? input
  | '#' :: _ =>
    let rest := input.skip 1
    match rest.chars with
    | c :: _ =>
      if isWordStart c || c == '\\' then
        (word? rest).map fun (text, _, after) => (.privateName text, after)
      else none
    | [] => none
  | '\\' :: _ => (word? input).map fun (text, escaped, after) => (.word text escaped, after)
  | '\x60' :: _ => template? (input.skip 1)
  | c :: _ =>
    if isWordStart c then
      (word? input).map fun (text, escaped, after) => (.word text escaped, after)
    else if c.isDigit then number? input
    else if c == '"' || c == '\'' then
      (readString? c (input.chars.length + 1) [] (input.skip 1)).map fun (points, after) =>
        (.string (textOfPoints points.reverse) (!points.any isSurrogate), after)
    else mark? input

/-- A token with its place, whether a line ends before it, and what follows it. -/
structure Lexeme where
  token : Token
  start : Nat
  newline : Bool
  rest : Input
  deriving Inhabited

/-- The next token of an input. -/
def next? (input : Input) : Option Lexeme := do
  let (input, newline) ← skipGap? .code false input.position input.chars
  let (token, rest) ← token? input
  return ⟨token, input.position, newline, rest⟩

/-- The longest mark that a `>` starts, and what follows it. -/
def wideAngle (rest : Input) : String × Input :=
  let wide := [">>>=", ">>>", ">>=", ">>", ">="].find? fun mark =>
    (dropStart? (mark.toList.drop 1) rest.chars).isSome
  match wide with
  | some mark => (mark, rest.skip (mark.length - 1))
  | none => (">", rest)

/-- The input without the line that names an interpreter. -/
def skipHashbang (input : Input) : Input :=
  match input.chars with
  | '#' :: '!' :: _ => input.skip (input.chars.takeWhile (!isLineEnd ·)).length
  | _ => input

end ComponentApi.Script
