import Mathlib.Data.Bool.AllAny
import ComponentApi.Proofs.Text.Lines
import ComponentApi.Source.Basic

/-!
# Attributes that are written and read

The attributes of a script tag are written one behind the other with blanks between them, each a
name alone or a name, an equals sign and a value. What makes a name and a value readable is part of
them.

`attribute?_print` says that the attributes which are read are those that were written, in their
order: no part of a value counts as an attribute. So the value that a script block gives for a name
is that of the first attribute of the name, and only the attributes decide whether the block is a
module and whether it is written in TypeScript.
-/

namespace ComponentApi.Source

open Text

/-! ### Written attributes -/

/-- The name of an attribute of a script tag. -/
structure AttributeName where
  text : List Char
  nonempty : text ≠ []
  plain : ∀ c ∈ text, isBlank c = false ∧ c ≠ '='

/-- The value of an attribute, by its delimiters. -/
inductive AttributeValue where
  | double (text : List Char) (plain : '"' ∉ text)
  | single (text : List Char) (plain : '\'' ∉ text)
  | unquoted (text : List Char) (nonempty : text ≠ [])
    (plain : ∀ c ∈ text, isBlank c = false ∧ c ∉ ['=', '"', '\''])

/-- A value behind an equals sign, with the blanks on both sides of the sign. -/
structure Assignment where
  before : List Char
  after : List Char
  blank : ∀ c ∈ before ++ after, isBlank c = true
  value : AttributeValue

/-- An attribute with the blanks in front of it. -/
structure WrittenAttribute where
  gap : List Char
  blank : ∀ c ∈ gap, isBlank c = true
  name : AttributeName
  /-- Nothing for a name alone. -/
  assignment? : Option Assignment

/-- Attributes with blanks between them, and with any blanks around them. -/
structure AttributeList where
  attributes : List WrittenAttribute
  separated : ∀ attr ∈ attributes.tail, attr.gap ≠ []
  after : List Char
  blank : ∀ c ∈ after, isBlank c = true

namespace AttributeValue

/-- The value without its delimiters. -/
def text : AttributeValue → List Char
  | .double text _ | .single text _ | .unquoted text _ _ => text

/-- The value as it is written, with its delimiters. -/
def print : AttributeValue → List Char
  | .double text _ => '"' :: text ++ ['"']
  | .single text _ => '\'' :: text ++ ['\'']
  | .unquoted text _ _ => text

end AttributeValue

/-- The equals sign and the value as they are written. -/
def Assignment.print (assignment : Assignment) : List Char :=
  assignment.before ++ '=' :: assignment.after ++ assignment.value.print

namespace WrittenAttribute

/-- The attribute as it is written. -/
def print (attr : WrittenAttribute) : List Char :=
  attr.gap ++ attr.name.text ++ attr.assignment?.elim [] Assignment.print

/-- The value of an attribute; that of a name alone is empty. -/
def value (attr : WrittenAttribute) : List Char :=
  attr.assignment?.elim [] (·.value.text)

end WrittenAttribute

namespace AttributeList

/-- The attributes as they are written. -/
def print (list : AttributeList) : List Char :=
  list.attributes.flatMap WrittenAttribute.print ++ list.after

/-- The value of the first attribute of a name. -/
def value? (list : AttributeList) (name : String) : Option String :=
  (list.attributes.find? fun attr => attr.name.text = name.toList).map fun attr =>
    String.ofList attr.value

end AttributeList

/-! ### Reading the parts -/

/-- A blank separates attributes. -/
lemma isSeparator_of_isBlank {c : Char} (h : isBlank c = true) : isSeparator c = true := by
  rw [isSeparator, h, Bool.true_or]

/-- A blank is no part of a value without quotes. -/
lemma isBareValuePart_of_isBlank {c : Char} (h : isBlank c = true) : isBareValuePart c = false := by
  rw [isBareValuePart, isSeparator_of_isBlank h, Bool.true_or, Bool.true_or, Bool.not_true]

/-- The name of an attribute has no separators in it. -/
lemma AttributeName.isSeparator_of_mem (name : AttributeName) :
    ∀ c ∈ name.text, isSeparator c = false := by
  intro c hc
  obtain ⟨hblank, hne⟩ := name.plain c hc
  rw [isSeparator, hblank, Bool.false_or, beq_eq_false_iff_ne]
  exact hne

/-- A value without quotes is read up to a character that does not belong to it. -/
lemma readValue?_unquoted {text rest : List Char} (hne : text ≠ [])
    (htext : ∀ c ∈ text, isBareValuePart c = true)
    (hrest : ∀ c ∈ rest.head?, isBareValuePart c = false) :
    readValue? (text ++ rest) = some (text, rest) := by
  have hcut : cutAt (!isBareValuePart ·) (text ++ rest) = (text, rest) :=
    cutAt_append (by simpa using htext) (by simpa using hrest)
  simp only [cutAt, Bool.not_not, Prod.mk.injEq] at hcut
  obtain ⟨c, more, rfl⟩ := List.exists_cons_of_ne_nil hne
  have hc : isBareValuePart c = true := htext c List.mem_cons_self
  rw [readValue?, hcut.1, hcut.2]
  · rintro text ⟨⟩
    cases hc
  · rintro text ⟨⟩
    cases hc

/-- A value is read up to its closing quotation mark, or up to the next blank. -/
lemma AttributeValue.readValue?_append (value : AttributeValue) {rest : List Char}
    (hrest : ∀ c ∈ rest.head?, isBlank c = true) :
    readValue? (value.print ++ rest) = some (value.text, rest) := by
  cases value with
  | double text plain =>
    have hprint : (AttributeValue.double text plain).print ++ rest =
        '"' :: (text ++ '"' :: rest) := by simp [print]
    rw [hprint, readValue?, splitOnce?_append plain, AttributeValue.text]
  | single text plain =>
    have hprint : (AttributeValue.single text plain).print ++ rest =
        '\'' :: (text ++ '\'' :: rest) := by simp [print]
    rw [hprint, readValue?, splitOnce?_append plain, AttributeValue.text]
  | unquoted text nonempty plain =>
    apply readValue?_unquoted nonempty
    · intro c hc
      obtain ⟨hblank, hmark⟩ := plain c hc
      simp only [List.mem_cons, List.not_mem_nil, or_false, not_or] at hmark
      simp [isBareValuePart, isSeparator, hblank, hmark]
    · intro c hc
      exact isBareValuePart_of_isBlank (hrest c hc)

/-- A value does not start with a blank. -/
lemma AttributeValue.head?_print (value : AttributeValue) (rest : List Char) :
    ∀ c ∈ (value.print ++ rest).head?, isBlank c = false := by
  cases value with
  | double text plain =>
    rintro c ⟨⟩
    decide
  | single text plain =>
    rintro c ⟨⟩
    decide
  | unquoted text nonempty plain =>
    obtain ⟨first, more, rfl⟩ := List.exists_cons_of_ne_nil nonempty
    rintro c ⟨⟩
    exact (plain first List.mem_cons_self).1

/-- What follows the name of an attribute starts with a separator. -/
lemma Assignment.head?_print (assignment : Assignment) (rest : List Char) :
    ∀ c ∈ (assignment.print ++ rest).head?, isSeparator c = true := by
  have hblank := assignment.blank
  rw [print]
  cases hbefore : assignment.before with
  | nil =>
    rintro c ⟨⟩
    decide
  | cons first more =>
    rw [hbefore] at hblank
    rintro c ⟨⟩
    exact isSeparator_of_isBlank (hblank first List.mem_cons_self)

/-- Blanks on both sides of the equals sign are passed over. -/
lemma Assignment.readAssignment?_append (assignment : Assignment) {rest : List Char}
    (hrest : ∀ c ∈ rest.head?, isBlank c = true) :
    readAssignment? (assignment.print ++ rest) = some (assignment.value.text, rest) := by
  obtain ⟨hbefore, hafter⟩ := List.forall_mem_append.1 assignment.blank
  have hprint : assignment.print ++ rest = assignment.before ++
      ('=' :: (assignment.after ++ (assignment.value.print ++ rest))) := by simp [print]
  have hsign : trimStart (assignment.print ++ rest) =
      '=' :: (assignment.after ++ (assignment.value.print ++ rest)) := by
    rw [hprint, trimStart_append_of_blank hbefore, trimStart_eq_self]
    rintro c ⟨⟩
    decide
  rw [readAssignment?, hsign]
  show readValue? (trimStart (assignment.after ++ (assignment.value.print ++ rest))) = _
  rw [trimStart_append_of_blank hafter, trimStart_eq_self (assignment.value.head?_print rest),
    assignment.value.readValue?_append hrest]

/-! ### Reading the list -/

/-- A name is found behind the blanks in front of it, and it ends where a separator stands. What
follows it may give it a value. -/
lemma attributes_name (name : AttributeName) {gap rest : List Char}
    (hgap : ∀ c ∈ gap, isBlank c = true) (hrest : ∀ c ∈ rest.head?, isSeparator c = true) :
    attributes (gap ++ name.text ++ rest) =
      match readAssignment? rest with
      | some (value, rest) => (name.text, value) :: attributes rest
      | none => (name.text, []) :: attributes rest := by
  obtain ⟨c, more, htext⟩ := List.exists_cons_of_ne_nil name.nonempty
  have hc : isSeparator c = false := name.isSeparator_of_mem c (by simp [htext])
  have hseparator : ∀ c ∈ gap, isSeparator c = true :=
    fun c hc => isSeparator_of_isBlank (hgap c hc)
  have hstart : (gap ++ name.text ++ rest).dropWhile isSeparator = c :: (more ++ rest) := by
    rw [List.append_assoc, List.dropWhile_append_of_pos hseparator, htext, List.cons_append,
      List.dropWhile_cons_of_neg (by simp [hc])]
  have hcut : cutAt isSeparator (more ++ rest) = (more, rest) :=
    cutAt_append (fun c hc => name.isSeparator_of_mem c (by simp [htext, hc])) hrest
  simp only [cutAt, Prod.mk.injEq] at hcut
  rw [attributes, htext]
  split
  · next hnil =>
    rw [← htext, hstart] at hnil
    cases hnil
  · next first start hfirst =>
    rw [← htext, hstart] at hfirst
    cases hfirst
    dsimp only
    rw [hcut.1]
    split
    · next hvalue =>
      rw [hcut.2] at hvalue
      rw [hvalue]
    · next hvalue =>
      rw [hcut.2] at hvalue
      rw [hvalue, hcut.2]

/-- What stands behind an attribute: it is empty or starts with a blank, and it gives no value to
what stands in front of it. -/
structure Detached (rest : List Char) : Prop where
  blank : ∀ c ∈ rest.head?, isBlank c = true
  unassigned : (trimStart rest).head? ≠ some '='

/-- Where no value is attached, none is read. -/
lemma Detached.readAssignment?_eq_none {rest : List Char} (h : Detached rest) :
    readAssignment? rest = none := by
  rw [readAssignment?]
  split
  · next hstart => exact absurd (congrArg List.head? hstart) h.unassigned
  · rfl

/-- An attribute is read with its value, and nothing else of it is. -/
lemma WrittenAttribute.attributes_append (attr : WrittenAttribute) {rest : List Char}
    (hrest : Detached rest) :
    attributes (attr.print ++ rest) = (attr.name.text, attr.value) :: attributes rest := by
  rw [print, value]
  cases attr.assignment? with
  | none =>
    have hseparator : ∀ c ∈ rest.head?, isSeparator c = true :=
      fun c hc => isSeparator_of_isBlank (hrest.blank c hc)
    rw [Option.elim_none, Option.elim_none, List.append_nil,
      attributes_name attr.name attr.blank hseparator, hrest.readAssignment?_eq_none]
  | some assignment =>
    rw [Option.elim_some, Option.elim_some, List.append_assoc,
      attributes_name attr.name attr.blank (assignment.head?_print rest),
      assignment.readAssignment?_append hrest.blank]

/-- Blanks have no attributes. -/
lemma attributes_of_blank {text : List Char} (h : ∀ c ∈ text, isBlank c = true) :
    attributes text = [] := by
  have hnil : text.dropWhile isSeparator = [] :=
    List.dropWhile_eq_nil_iff.2 fun c hc => isSeparator_of_isBlank (h c hc)
  rw [attributes]
  split
  · rfl
  · next hcons =>
    rw [hnil] at hcons
    cases hcons

/-- Attributes that all have blanks in front of them leave what stands before them alone. -/
lemma detached_flatMap {attrs : List WrittenAttribute} {after : List Char}
    (hgap : ∀ attr ∈ attrs, attr.gap ≠ []) (hafter : ∀ c ∈ after, isBlank c = true) :
    Detached (attrs.flatMap WrittenAttribute.print ++ after) := by
  cases attrs with
  | nil =>
    refine ⟨fun c hc => hafter c (List.mem_of_mem_head? hc), ?_⟩
    have hnil : trimStart after = [] := List.dropWhile_eq_nil_iff.2 hafter
    rw [List.flatMap_nil, List.nil_append, hnil]
    nofun
  | cons attr attrs =>
    obtain ⟨first, gap, hfirst⟩ := List.exists_cons_of_ne_nil (hgap attr List.mem_cons_self)
    obtain ⟨c, name, hname⟩ := List.exists_cons_of_ne_nil attr.name.nonempty
    have hblank := attr.blank
    obtain ⟨hsolid, hplain⟩ := attr.name.plain c (by simp [hname])
    obtain ⟨rest, hrest⟩ : ∃ rest, (attr :: attrs).flatMap WrittenAttribute.print ++ after =
        attr.gap ++ c :: rest := by
      rw [List.flatMap_cons, WrittenAttribute.print, hname]
      simp
    have hstart : trimStart (c :: rest) = c :: rest := by
      apply trimStart_eq_self
      rintro d ⟨⟩
      exact hsolid
    rw [hrest]
    refine ⟨?_, ?_⟩
    · rw [hfirst] at hblank ⊢
      rintro d ⟨⟩
      exact hblank first List.mem_cons_self
    · rw [trimStart_append_of_blank hblank, hstart]
      exact fun hhead => hplain (Option.some.inj hhead)

/-- Attributes with gaps between them are read back one by one. -/
lemma attributes_flatMap {attrs : List WrittenAttribute} {after : List Char}
    (hgap : ∀ attr ∈ attrs.tail, attr.gap ≠ []) (hafter : ∀ c ∈ after, isBlank c = true) :
    attributes (attrs.flatMap WrittenAttribute.print ++ after) =
      attrs.map fun attr => (attr.name.text, attr.value) := by
  induction attrs with
  | nil => exact attributes_of_blank hafter
  | cons attr attrs ih =>
    rw [List.tail_cons] at hgap
    rw [List.flatMap_cons, List.append_assoc,
      attr.attributes_append (detached_flatMap hgap hafter),
      ih fun attr hattr => hgap attr (List.mem_of_mem_tail hattr), List.map_cons]

/-- The attributes that are read are those that are written. -/
lemma AttributeList.attributes_print (list : AttributeList) :
    Source.attributes list.print = list.attributes.map fun attr => (attr.name.text, attr.value) :=
  attributes_flatMap list.separated list.blank

/-- The value of a name is that of the first attribute of the name. -/
lemma lookup_written (attrs : List WrittenAttribute) (name : List Char) :
    (attrs.map fun attr => (attr.name.text, attr.value)).lookup name =
      (attrs.find? fun attr => attr.name.text = name).map WrittenAttribute.value := by
  induction attrs with
  | nil => rfl
  | cons attr attrs ih =>
    rw [List.map_cons, List.lookup_cons, List.find?_cons, ih]
    by_cases hname : attr.name.text = name
    · simp [hname]
    · have hne : (name == attr.name.text) = false := beq_eq_false_iff_ne.2 (Ne.symm hname)
      simp [hname, hne]

end Source

namespace ScriptBlock

open Source

/-- A script block gives for a name the value of the first attribute of the name. -/
lemma attribute?_eq {block : ScriptBlock} {list : AttributeList}
    (h : block.attributes = String.ofList list.print) (name : String) :
    block.attribute? name = list.value? name := by
  rw [attribute?, Source.attribute?, h, String.toList_ofList, list.attributes_print, lookup_written,
    Option.map_map, AttributeList.value?]
  rfl

/-- A list has a value for a name exactly if an attribute has this name. -/
lemma isSome_value?_iff (list : AttributeList) (name : String) :
    (list.value? name).isSome = true ↔ ∃ attr ∈ list.attributes, attr.name.text = name.toList := by
  simp [AttributeList.value?]

/-- The attributes that are read are those that are written, so a name has the value of its first
attribute, and no value if there is none. A block is a module if the attribute `context` says so or
if there is an attribute `module`, and it is typed if the attribute `lang` names a typed
language. -/
theorem attribute?_print (list : AttributeList) (content : String) (offset : Nat) :
    let block : ScriptBlock := { content, attributes := String.ofList list.print, offset }
    Source.attributes block.attributes.toList =
        list.attributes.map (fun attr => (attr.name.text, attr.value)) ∧
      (∀ name, block.attribute? name = list.value? name) ∧
      (block.isModule = true ↔ list.value? "context" = some "module" ∨
        ∃ attr ∈ list.attributes, attr.name.text = "module".toList) ∧
      (block.isTypeScript = true ↔
        list.value? "lang" = some "ts" ∨ list.value? "lang" = some "typescript") := by
  intro block
  have hvalue : ∀ name, block.attribute? name = list.value? name := attribute?_eq rfl
  refine ⟨?_, hvalue, ?_, ?_⟩
  · rw [String.toList_ofList]
    exact list.attributes_print
  · rw [isModule, hvalue, hvalue, Bool.or_eq_true, beq_iff_eq, isSome_value?_iff]
  · rw [isTypeScript, hvalue, Bool.or_eq_true, beq_iff_eq, beq_iff_eq]

/-- A value that holds the word `module` and what looks like an attribute, an equals sign between
blanks, a name that comes twice, and a name alone with a quotation mark in it. -/
theorem attribute?_print_quoted :
    let hint : WrittenAttribute := {
      gap := []
      blank := nofun
      name := ⟨"hint".toList, by decide, List.all_iff_forall_prop.1 (by decide)⟩
      assignment? := some ⟨[], [], nofun, .double "a module lang='js' ".toList (by decide)⟩ }
    let typed : WrittenAttribute := {
      gap := ['\n']
      blank := List.all_eq_true.1 (by decide)
      name := ⟨"lang".toList, by decide, List.all_iff_forall_prop.1 (by decide)⟩
      assignment? := some ⟨[' '], ['\t'], List.all_eq_true.1 (by decide),
        .unquoted "ts".toList (by decide) (List.all_iff_forall_prop.1 (by decide))⟩ }
    let again : WrittenAttribute := {
      gap := [' ']
      blank := List.all_eq_true.1 (by decide)
      name := ⟨"lang".toList, by decide, List.all_iff_forall_prop.1 (by decide)⟩
      assignment? := some ⟨[], [], nofun, .single "\"".toList (by decide)⟩ }
    let alone : WrittenAttribute := {
      gap := [' ', ' ']
      blank := List.all_eq_true.1 (by decide)
      name := ⟨"\"x".toList, by decide, List.all_iff_forall_prop.1 (by decide)⟩
      assignment? := none }
    let list : AttributeList := {
      attributes := [hint, typed, again, alone]
      separated := by decide
      after := [' ']
      blank := List.all_eq_true.1 (by decide) }
    let block : ScriptBlock := { content := "", attributes := String.ofList list.print }
    list.print = "hint=\"a module lang='js' \"\nlang =\tts lang='\"'  \"x ".toList ∧
      block.attribute? "lang" = some "ts" ∧ block.attribute? "\"x" = some "" ∧
      block.attribute? "a" = none ∧ block.isModule = false ∧ block.isTypeScript = true := by
  intro hint typed again alone list block
  obtain ⟨-, hvalue, hmodule, htyped⟩ := attribute?_print list "" 0
  refine ⟨by decide, (hvalue "lang").trans (by decide), (hvalue "\"x").trans (by decide),
    (hvalue "a").trans (by decide), ?_, htyped.2 (.inl (by decide))⟩
  rw [Bool.eq_false_iff, ne_eq, hmodule]
  decide

end ScriptBlock

end ComponentApi
