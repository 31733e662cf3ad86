import ComponentApi.Text.Range

/-!
# Blank characters

The Unicode property White_Space, and what rests on it: trimming, lines and words. A second,
smaller class holds the blanks of markup, which are ASCII only and leave out the vertical tab.
-/

namespace ComponentApi.Text

/-- The characters with the property White_Space. -/
def blankRanges : List CharRange :=
  [(9, 13), (32, 32), (133, 133), (160, 160), (5760, 5760), (8192, 8202), (8232, 8233),
   (8239, 8239), (8287, 8287), (12288, 12288)]

/-- Whether the character is blank. -/
def isBlank (c : Char) : Bool :=
  inRanges blankRanges c

/-- Whether the character is a blank of markup: space, tab, line feed, form feed or carriage
return. -/
def isMarkupBlank (c : Char) : Bool :=
  c == ' ' || c == '\t' || c == '\n' || c == '\x0c' || c == '\r'

/-- The text without its leading blanks. -/
def trimStart (text : List Char) : List Char :=
  text.dropWhile isBlank

/-- The text without its trailing blanks. -/
def trimEnd (text : List Char) : List Char :=
  (text.reverse.dropWhile isBlank).reverse

/-- The text without its leading and trailing blanks. -/
def trim (text : List Char) : List Char :=
  trimEnd (trimStart text)

/-- What follows `start` in the text, if the text starts with it. -/
def dropStart? : (start text : List Char) → Option (List Char)
  | [], text => some text
  | _ :: _, [] => none
  | s :: start, c :: text => if s == c then dropStart? start text else none

/-- A start can be dropped exactly if the text is this start and the rest. -/
theorem dropStart?_eq_some_iff {start text rest : List Char} :
    dropStart? start text = some rest ↔ text = start ++ rest := by
  fun_induction dropStart? start text with
  | case1 text => simp
  | case2 => simp
  | case3 s start c text h ih => simp [ih, eq_of_beq h]
  | case4 s start c text h =>
    have hne : c ≠ s := by
      rintro rfl
      exact h (beq_self_eq_true c)
    simp [hne]

/-- What precedes `tail` in the text, if the text ends with it. -/
def dropEnd? (tail text : List Char) : Option (List Char) :=
  (dropStart? tail.reverse text.reverse).map List.reverse

/-- The text without `start`, or the whole text if it does not start with it. -/
def dropStart (start text : List Char) : List Char :=
  (dropStart? start text).getD text

/-- The text without `tail`, or the whole text if it does not end with it. -/
def dropEnd (tail text : List Char) : List Char :=
  (dropEnd? tail text).getD text

/-- The pieces of the text between the characters `separator`, one more than there are of them. -/
def pieces (separator : Char) : List Char → List (List Char)
  | [] => [[]]
  | c :: text =>
    if c == separator then [] :: pieces separator text
    else match pieces separator text with
      | [] => [[c]]
      | piece :: rest => (c :: piece) :: rest

/-- The lines of the text. A line feed ends a line and takes one carriage return before it with
it; a text that ends with a line feed has no further, empty line. -/
def lines (text : List Char) : List (List Char) :=
  let all := pieces '\n' text
  let last := all.getLastD []
  all.dropLast.map (dropEnd ['\r']) ++ (if last.isEmpty then [] else [last])

/-- The first run of characters that are not blank, if there is one. -/
def firstWord? (text : List Char) : Option (List Char) :=
  match (trimStart text).takeWhile (!isBlank ·) with
  | [] => none
  | word => some word

/-- The text cut before the first character that satisfies `p`. -/
def cutAt (p : Char → Bool) (text : List Char) : List Char × List Char :=
  (text.takeWhile (!p ·), text.dropWhile (!p ·))

/-- The text before and after the first `separator`, if there is one. -/
def splitOnce? (separator : Char) (text : List Char) : Option (List Char × List Char) :=
  match cutAt (· == separator) text with
  | (_, []) => none
  | (before, _ :: after) => some (before, after)

end ComponentApi.Text
