import ComponentApi.Text.Length

/-!
# Attributes of a script tag

The text between the name of a tag and its end, read as a list of attributes: names, each with a
value in double quotes, in single quotes or bare, or without a value.
-/

namespace ComponentApi.Source

open Text

/-- Whether the character separates attributes from each other and names from values. -/
def isSeparator (c : Char) : Bool :=
  isBlank c || c == '='

/-- Whether the character may stand in a value without quotes. -/
def isBareValuePart (c : Char) : Bool :=
  !(isSeparator c || c == '"' || c == '\'')

/-- A value at the start of a text, and the rest. -/
def readValue? : List Char → Option (List Char × List Char)
  | '"' :: text => splitOnce? '"' text
  | '\'' :: text => splitOnce? '\'' text
  | text =>
    match text.takeWhile isBareValuePart with
    | [] => none
    | value => some (value, text.dropWhile isBareValuePart)

/-- An equals sign and a value at the start of a text, with blanks around the sign. -/
def readAssignment? (text : List Char) : Option (List Char × List Char) :=
  match trimStart text with
  | '=' :: rest => readValue? (trimStart rest)
  | _ => none

/-! ### Reading takes text away -/

/-- Reading a value never leaves more text than there was. -/
theorem length_readValue?_le {text value rest : List Char}
    (h : readValue? text = some (value, rest)) : rest.length ≤ text.length := by
  unfold readValue? at h
  split at h
  · have := length_splitOnce?_le h; simp only [List.length_cons]; omega
  · have := length_splitOnce?_le h; simp only [List.length_cons]; omega
  · split at h
    · simp at h
    · simp only [Option.some.injEq, Prod.mk.injEq] at h
      exact h.2 ▸ length_dropWhile_le _ _

/-- Reading an attribute never leaves more text than there was. -/
theorem length_readAssignment?_le {text value rest : List Char}
    (h : readAssignment? text = some (value, rest)) : rest.length ≤ text.length := by
  unfold readAssignment? at h
  split at h
  · next after hafter =>
    have h1 := length_readValue?_le h
    have h2 := length_dropWhile_le isBlank after
    have h3 := length_dropWhile_le isBlank text
    simp only [trimStart] at *
    rw [hafter] at h3
    simp only [List.length_cons] at h3
    omega
  · simp at h

set_option linter.unusedVariables false in
/-- The attributes of a text, in order. An attribute without a value has the empty one. -/
def attributes (text : List Char) : List (List Char × List Char) :=
  match htext : text.dropWhile isSeparator with
  | [] => []
  | c :: start =>
    let name := c :: start.takeWhile (!isSeparator ·)
    match hvalue : readAssignment? (start.dropWhile (!isSeparator ·)) with
    | some (value, rest) => (name, value) :: attributes rest
    | none => (name, []) :: attributes (start.dropWhile (!isSeparator ·))
termination_by text.length
decreasing_by
  · have h1 := length_readAssignment?_le hvalue
    have h2 := length_dropWhile_le (!isSeparator ·) start
    have h3 := length_dropWhile_le isSeparator text
    rw [htext] at h3
    simp only [List.length_cons] at h3
    omega
  · have h2 := length_dropWhile_le (!isSeparator ·) start
    have h3 := length_dropWhile_le isSeparator text
    rw [htext] at h3
    simp only [List.length_cons] at h3
    omega

/-- The value of the first attribute of a name. -/
def attribute? (text : List Char) (name : List Char) : Option (List Char) :=
  (attributes text).lookup name

end ComponentApi.Source
