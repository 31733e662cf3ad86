import ComponentApi.Text.WordPart

/-!
# Tokens of a script

The tokens that a script is cut into, and the classes of characters and words that the cutting
goes by.
-/

namespace ComponentApi.Script

/-- A token. Names and reserved words are both words. -/
inductive Token where
  | eof
  /-- A word, by its characters; `escaped` if one of them is written as an escape. -/
  | word (text : String) (escaped : Bool)
  /-- A name after `#`. -/
  | privateName (text : String)
  | mark (text : String)
  /-- A string; `wellFormed` unless half of a surrogate pair stands alone in it. -/
  | string (value : String) (wellFormed : Bool)
  /-- A number, by the text of its value. -/
  | number (name : String)
  | bigInt (name : String)
  /-- A text in a template: what it stands for, if its escapes are valid, and whether the template
  ends with it. -/
  | template (text : Option String) (last : Bool)
  deriving DecidableEq, Repr, Inhabited

/-- What is left of a text, and where it starts. -/
structure Input where
  chars : List Char
  position : Nat
  deriving DecidableEq, Repr, Inhabited

namespace Input

/-- The input after its first `count` characters. -/
def skip (input : Input) : (count : Nat) → Input
  | 0 => input
  | count + 1 =>
    match input.chars with
    | [] => input
    | c :: chars => skip ⟨chars, input.position + c.utf8Size⟩ count

end Input

/-- Whether the character ends a line. -/
def isLineEnd (c : Char) : Bool :=
  c == '\n' || c == '\r' || c.toNat == 0x2028 || c.toNat == 0x2029

/-- Whether the character separates tokens without ending a line. -/
def isSpace (c : Char) : Bool :=
  c == ' ' || c == '\t' || c.toNat == 0x0B || c.toNat == 0x0C || c.toNat == 0x85 ||
    c.toNat == 0xA0 || c.toNat == 0x1680 || (0x2000 ≤ c.toNat && c.toNat ≤ 0x200B) ||
    c.toNat == 0x202F || c.toNat == 0x205F || c.toNat == 0x3000 || c.toNat == 0xFEFF

/-- Whether the character may start a word. -/
def isWordStart (c : Char) : Bool :=
  c == '$' || c == '_' || Text.isIdStart c

/-- Whether the character may stand in a word. -/
def isWordChar (c : Char) : Bool :=
  c == '$' || Text.isIdContinue c || Text.isJoiner c

/-- The words that are never names. -/
def reservedWords : List String :=
  ["break", "case", "catch", "class", "const", "continue", "debugger", "default", "delete", "do",
   "else", "enum", "export", "extends", "false", "finally", "for", "function", "if", "import", "in",
   "instanceof", "new", "null", "return", "super", "switch", "this", "throw", "true", "try",
   "typeof", "var", "void", "while", "with"]

/-- Whether the word can be a name. -/
def isName (word : String) : Bool :=
  !reservedWords.contains word

/-- The punctuation marks, longer ones before their beginnings. A `>` is always read alone. -/
def marks : List (List Char) :=
  ["...", "<<=", "===", "!==", "**=", "&&=", "||=", "??=", "<<", "<=", "==", "=>", "!=", "++", "+=",
   "--", "-=", "**", "*=", "/=", "%=", "&&", "&=", "||", "|=", "^=", "??", "?.", "\x7b", "\x7d",
   "(", ")", "[", "]", ";", ",", "~", ":", "@", ".", "<", ">", "=", "!", "+", "-", "*", "/", "%",
   "&", "|", "^", "?"].map String.toList

end ComponentApi.Script
