import ComponentApi.Proofs.Json.Literals

/-!
# Values that are written and read

A value is plain if all numbers in it are natural and no string literal in it is broken. Reading the
written form of a plain value gives the value back (`parse?_pretty`).

The proof is an induction on the value. What it says of a value is said for any text behind the
value that cannot go on with a number, and for any bound that is at least the length of what is
written: an item in an array, and a field in an object, takes up two characters more than the items
and fields in front of it, and the bound goes down by one for each of them.
-/

namespace ComponentApi.Json

/-- Whether all numbers in the value are natural and all string literals stand for texts. -/
inductive IsPlain : Json → Prop where
  | null : IsPlain .null
  | bool (value : Bool) : IsPlain (.bool value)
  | ofNat (n : Nat) : IsPlain (.ofNat n)
  | string (text : String) : IsPlain (.string text)
  | array {items : List Json} (h : ∀ item ∈ items, IsPlain item) : IsPlain (.array items)
  | object {fields : List (String × Json)} (h : ∀ field ∈ fields, IsPlain field.2) :
    IsPlain (.object fields)

/-! ### Blanks between the parts -/

/-- In front of anything but a blank nothing is skipped. -/
lemma skipGap_eq_self {text : List Char} (h : ∀ c ∈ text.head?, isGap c = false) :
    skipGap text = text := by
  cases text with
  | nil => rfl
  | cons c rest => rw [skipGap, List.dropWhile_cons_of_neg (by simp [h c rfl])]

/-- A character that is no blank is not skipped. -/
lemma skipGap_cons {c : Char} (h : isGap c = false) (rest : List Char) :
    skipGap (c :: rest) = c :: rest := by
  apply skipGap_eq_self
  rintro d ⟨⟩
  exact h

/-- A new line with its indentation is skipped. -/
lemma skipGap_newLine (level : Nat) (text : List Char) :
    skipGap (newLine level ++ text) = skipGap text := by
  have hgap : ∀ c ∈ newLine level, isGap c = true := by
    intro c hc
    rcases List.mem_cons.1 hc with rfl | hc
    · decide
    · cases List.eq_of_mem_replicate hc
      decide
  exact List.dropWhile_append_of_pos hgap

/-- A new line is as long as its indentation, and one character more. -/
lemma length_newLine (level : Nat) : (newLine level).length = 2 * level + 1 := by
  simp [newLine]

/-- A number ends in front of a new line. -/
lemma endsNumber_newLine (level : Nat) (text : List Char) : EndsNumber (newLine level ++ text) :=
  .of_cons (by decide)

/-- The first of several texts is followed by the separator. -/
lemma separated_cons (separator first second : List Char) (rest : List (List Char)) :
    separated separator (first :: second :: rest) =
      first ++ (separator ++ separated separator (second :: rest)) := by
  rw [separated, separated, List.intercalate_cons_cons, List.append_assoc]

/-! ### Single values -/

/-- Whether the value is read back from its written form, whatever stands behind it. -/
def ReadsBack (value : Json) : Prop :=
  ∀ (level bound : Nat) (rest : List Char), (prettyAt level value).length ≤ bound →
    EndsNumber rest → readValue bound (prettyAt level value ++ rest) = some (value, rest)

/-- A value that is written in a way that does not depend on what stands behind it. -/
lemma ReadsBack.of_cons {value : Json} (h : ∀ level, ∃ c text, prettyAt level value = c :: text ∧
    ∀ (bound : Nat) (rest : List Char), text.length ≤ bound → EndsNumber rest →
      readValue (bound + 1) (c :: (text ++ rest)) = some (value, rest)) : ReadsBack value := by
  intro level bound rest hbound hrest
  obtain ⟨c, text, htext, hread⟩ := h level
  rw [htext, List.length_cons] at hbound
  cases bound with
  | zero => exact absurd hbound (Nat.not_succ_le_zero _)
  | succ bound =>
    rw [htext, List.cons_append]
    exact hread bound rest (Nat.le_of_succ_le_succ hbound) hrest

/-- Null is read back. -/
lemma readsBack_null : ReadsBack .null :=
  .of_cons fun _ => ⟨'n', _, rfl, fun _ _ _ _ => rfl⟩

/-- A truth value is read back. -/
lemma readsBack_bool (value : Bool) : ReadsBack (.bool value) := by
  cases value with
  | false => exact .of_cons fun _ => ⟨'f', _, rfl, fun _ _ _ _ => rfl⟩
  | true => exact .of_cons fun _ => ⟨'t', _, rfl, fun _ _ _ _ => rfl⟩

/-- A natural number is written with its digits, at any level. -/
lemma prettyAt_ofNat (level n : Nat) : prettyAt level (.ofNat n) = Nat.toDigits 10 n :=
  Nat.toList_repr

/-- What starts with a digit is read as a number. -/
lemma readValue_digit {c : Char} (hc : c.isDigit = true) (bound : Nat) (rest : List Char) :
    readValue (bound + 1) (c :: rest) = readNumber? (c :: rest) := by
  rw [readValue]
  all_goals
    rintro more ⟨⟩
    cases hc

/-- A natural number is read back. -/
lemma readsBack_ofNat (n : Nat) : ReadsBack (.ofNat n) := by
  obtain ⟨c, digits, hdigits, hc⟩ := exists_toDigits n
  refine .of_cons fun level => ⟨c, digits, (prettyAt_ofNat level n).trans hdigits, ?_⟩
  intro bound rest _ hrest
  rw [readValue_digit hc, ← List.cons_append, ← hdigits, readNumber?_toDigits n hrest]

/-- A string in quotes with a text behind it is its escaped text between two quotes. -/
lemma quoted_append (text : String) (rest : List Char) :
    quoted text ++ rest = '"' :: (text.toList.flatMap escaped ++ '"' :: rest) := by
  simp [quoted]

/-- A string is read back. -/
lemma readsBack_string (text : String) : ReadsBack (.string text) := by
  refine .of_cons fun _ => ⟨'"', text.toList.flatMap escaped ++ ['"'], rfl, ?_⟩
  intro bound rest _ _
  obtain ⟨content, hread, hcontent⟩ := exists_readString text rest
  rw [List.append_assoc, List.singleton_append, readValue, hread, Option.map_some]
  dsimp only
  rw [hcontent, Option.map_some, Option.getD_some]

/-! ### Arrays -/

/-- A digit is no blank. -/
lemma isGap_of_isDigit {c : Char} (h : c.isDigit = true) : isGap c = false := by
  cases hgap : isGap c with
  | false => rfl
  | true =>
    simp only [isGap, Bool.or_eq_true, beq_iff_eq] at hgap
    rcases hgap with ((rfl | rfl) | rfl) | rfl <;> cases h

/-- A plain value starts with no blank, and with no closing bracket. -/
lemma IsPlain.exists_prettyAt {value : Json} (h : value.IsPlain) (level : Nat) :
    ∃ c rest, prettyAt level value = c :: rest ∧ isGap c = false ∧ c ≠ ']' := by
  cases h with
  | null => exact ⟨_, _, rfl, by decide, by decide⟩
  | bool value => cases value <;> exact ⟨_, _, rfl, by decide, by decide⟩
  | ofNat n =>
    obtain ⟨c, digits, hdigits, hc⟩ := exists_toDigits n
    refine ⟨c, digits, (prettyAt_ofNat level n).trans hdigits, isGap_of_isDigit hc, ?_⟩
    rintro rfl
    cases hc
  | string text => exact ⟨_, _, rfl, by decide, by decide⟩
  | @array items _ => cases items <;> exact ⟨_, _, rfl, by decide, by decide⟩
  | @object fields _ => cases fields <;> exact ⟨_, _, rfl, by decide, by decide⟩

/-- In front of a plain value nothing is skipped. -/
lemma IsPlain.skipGap_prettyAt {value : Json} (h : value.IsPlain) (level : Nat) (rest : List Char) :
    skipGap (prettyAt level value ++ rest) = prettyAt level value ++ rest := by
  obtain ⟨c, text, htext, hc, -⟩ := h.exists_prettyAt level
  rw [htext, List.cons_append, skipGap_cons hc]

/-- The items of an array are written one by one. -/
lemma prettyItems_eq (level : Nat) (items : List Json) :
    prettyItems level items = items.map (prettyAt level) := by
  induction items with
  | nil => rfl
  | cons item items ih => rw [prettyItems, ih, List.map_cons]

/-- The items of an array as they are written. -/
def prettyList (level : Nat) (items : List Json) : List Char :=
  separated (',' :: newLine level) (items.map (prettyAt level))

/-- A single item is written without separators. -/
lemma prettyList_singleton (level : Nat) (item : Json) :
    prettyList level [item] = prettyAt level item := by
  rw [prettyList, List.map_singleton, separated, List.intercalate_singleton]

/-- Items are separated by a comma and a new line. -/
lemma prettyList_cons (level : Nat) (item next : Json) (items : List Json) :
    prettyList level (item :: next :: items) =
      prettyAt level item ++ ',' :: (newLine level ++ prettyList level (next :: items)) :=
  separated_cons ..

/-- The items of an array start with no blank, and with no closing bracket. -/
lemma exists_prettyList {item : Json} (h : item.IsPlain) (items : List Json) (level : Nat) :
    ∃ c rest, prettyList level (item :: items) = c :: rest ∧ isGap c = false ∧ c ≠ ']' := by
  obtain ⟨c, rest, htext, hc⟩ := h.exists_prettyAt level
  cases items with
  | nil => exact ⟨c, rest, (prettyList_singleton level item).trans htext, hc⟩
  | cons next items =>
    rw [prettyList_cons, htext]
    exact ⟨c, _, List.cons_append, hc⟩

section Steps

variable {bound : Nat} {item : Json} {text rest more : List Char} (done : List Json)
  (hread : readValue bound text = some (item, rest))

include hread

/-- Behind a comma reading goes on with the next item. -/
lemma readItems_comma (hgap : skipGap rest = ',' :: more) :
    readItems (bound + 1) done text = readItems bound (item :: done) (skipGap more) := by
  rw [readItems, hread]
  dsimp only
  rw [hgap]
  rfl

/-- A bracket behind an item ends the array. -/
lemma readItems_bracket (hgap : skipGap rest = ']' :: more) :
    readItems (bound + 1) done text = some ((item :: done).reverse, more) := by
  rw [readItems, hread]
  dsimp only
  rw [hgap]
  rfl

end Steps

/-- Items are read up to the bracket that closes their array. -/
lemma readItems_append {items : List Json} (hne : items ≠ [])
    (hplain : ∀ item ∈ items, item.IsPlain) (hread : ∀ item ∈ items, item.ReadsBack)
    (level outer : Nat) (rest : List Char) :
    ∀ (bound : Nat) (done : List Json), (prettyList level items).length ≤ bound →
      readItems (bound + 1) done (prettyList level items ++ (newLine outer ++ ']' :: rest)) =
        some (done.reverse ++ items, rest) := by
  induction items with
  | nil => exact absurd rfl hne
  | cons item items ih =>
    obtain ⟨hitem, hitems⟩ := List.forall_mem_cons.1 hread
    obtain ⟨-, hplains⟩ := List.forall_mem_cons.1 hplain
    intro bound done hbound
    cases items with
    | nil =>
      have hgap : skipGap (newLine outer ++ ']' :: rest) = ']' :: rest := by
        rw [skipGap_newLine, skipGap_cons (by decide)]
      rw [prettyList_singleton] at hbound ⊢
      rw [readItems_bracket done (hitem level bound _ hbound (endsNumber_newLine outer _)) hgap,
        List.reverse_cons]
    | cons next items =>
      rw [prettyList_cons, List.length_append, List.length_cons, List.length_append] at hbound
      obtain ⟨bound, rfl⟩ : ∃ less, bound = less + 1 := ⟨bound - 1, by omega⟩
      have hmore := ih (List.cons_ne_nil next items) hplains hitems bound (item :: done) (by omega)
      obtain ⟨c, text, htext, hc, -⟩ :=
        exists_prettyList (hplains next List.mem_cons_self) items level
      rw [prettyList_cons, List.append_assoc, List.cons_append, List.append_assoc,
        readItems_comma done (hitem level _ _ (by omega) (.of_cons (by decide)))
          (skipGap_cons (by decide) _),
        skipGap_newLine, htext, List.cons_append, skipGap_cons hc, ← List.cons_append, ← htext,
        hmore]
      simp

/-- What is in brackets stands on lines of its own, one level further in. -/
lemma block_cons (opening closing : Char) (level : Nat) (text : List Char)
    (texts : List (List Char)) :
    block opening closing level (text :: texts) =
      opening :: (newLine (level + 1) ++ (separated (',' :: newLine (level + 1)) (text :: texts) ++
        (newLine level ++ [closing]))) := by
  simp [block]

/-- An array that is not empty is read item by item. -/
lemma readValue_bracket {bound : Nat} {c : Char} {text more : List Char}
    (hgap : skipGap text = c :: more) (hc : c ≠ ']') :
    readValue (bound + 1) ('[' :: text) =
      (readItems bound [] (c :: more)).map fun (items, rest) => (.array items, rest) := by
  rw [readValue, hgap]
  split
  · next hclose =>
    cases hclose
    exact absurd rfl hc
  · rfl

/-- An array that is not empty has its items on lines of their own. -/
lemma prettyAt_array (level : Nat) (item : Json) (items : List Json) :
    prettyAt level (.array (item :: items)) =
      '[' :: (newLine (level + 1) ++ (prettyList (level + 1) (item :: items) ++
        (newLine level ++ [']']))) := by
  rw [prettyAt, prettyItems_eq, List.map_cons, block_cons, prettyList, List.map_cons]

/-- An array is read back if its items are. -/
lemma readsBack_array {items : List Json} (hplain : ∀ item ∈ items, item.IsPlain)
    (hread : ∀ item ∈ items, item.ReadsBack) : ReadsBack (.array items) := by
  cases items with
  | nil => exact .of_cons fun _ => ⟨'[', _, rfl, fun _ _ _ _ => rfl⟩
  | cons item items =>
    refine .of_cons fun level => ⟨'[', _, prettyAt_array level item items, ?_⟩
    intro bound rest hbound _
    simp only [List.length_append, length_newLine] at hbound
    obtain ⟨bound, rfl⟩ : ∃ less, bound = less + 1 := ⟨bound - 1, by omega⟩
    have hitems :=
      readItems_append (List.cons_ne_nil item items) hplain hread (level + 1) level rest
      bound [] (by omega)
    obtain ⟨c, text, htext, hgap, hc⟩ :=
      exists_prettyList (hplain item List.mem_cons_self) items (level + 1)
    have hskip : skipGap (newLine (level + 1) ++ (prettyList (level + 1) (item :: items) ++
        (newLine level ++ ']' :: rest))) = c :: (text ++ (newLine level ++ ']' :: rest)) := by
      rw [skipGap_newLine, htext, List.cons_append, skipGap_cons hgap]
    rw [htext, List.cons_append] at hitems
    simp only [List.append_assoc, List.singleton_append]
    rw [readValue_bracket hskip hc, hitems]
    rfl

/-! ### Objects -/

/-- A field as it is written. -/
def prettyField (level : Nat) (field : String × Json) : List Char :=
  quoted field.1 ++ ':' :: ' ' :: prettyAt level field.2

/-- A field is written as its name in quotes, a colon and its value. -/
lemma prettyField_append (level : Nat) (field : String × Json) (rest : List Char) :
    prettyField level field ++ rest =
      quoted field.1 ++ ':' :: ' ' :: (prettyAt level field.2 ++ rest) := by
  simp [prettyField]

/-- The value of a field is no longer than the field. -/
lemma length_prettyAt_le (level : Nat) (field : String × Json) :
    (prettyAt level field.2).length ≤ (prettyField level field).length := by
  simp only [prettyField, List.length_append, List.length_cons]
  omega

/-- The fields of an object are written one by one. -/
lemma prettyFields_eq (level : Nat) (fields : List (String × Json)) :
    prettyFields level fields = fields.map (prettyField level) := by
  induction fields with
  | nil => rfl
  | cons field fields ih => rw [prettyFields, ih, List.map_cons, prettyField]

/-- The fields of an object as they are written. -/
def prettyRecord (level : Nat) (fields : List (String × Json)) : List Char :=
  separated (',' :: newLine level) (fields.map (prettyField level))

/-- A single field is written without separators. -/
lemma prettyRecord_singleton (level : Nat) (field : String × Json) :
    prettyRecord level [field] = prettyField level field := by
  rw [prettyRecord, List.map_singleton, separated, List.intercalate_singleton]

/-- Fields are separated by a comma and a new line. -/
lemma prettyRecord_cons (level : Nat) (field next : String × Json) (fields : List (String × Json)) :
    prettyRecord level (field :: next :: fields) =
      prettyField level field ++ ',' :: (newLine level ++ prettyRecord level (next :: fields)) :=
  separated_cons ..

/-- The fields of an object start with the name of the first. -/
lemma exists_prettyRecord (level : Nat) (field : String × Json) (fields : List (String × Json)) :
    ∃ rest, prettyRecord level (field :: fields) = '"' :: rest := by
  cases fields with
  | nil =>
    rw [prettyRecord_singleton, prettyField, quoted_append]
    exact ⟨_, rfl⟩
  | cons next fields =>
    rw [prettyRecord_cons, prettyField, quoted_append]
    exact ⟨_, rfl⟩

section Steps

variable {bound : Nat} {name : String} {value : Json} {text rest more : List Char}
  (done : List (String × Json)) (hread : readValue bound text = some (value, rest))
  (htext : skipGap text = text)

include hread htext

/-- What stands behind the value of a field decides how reading goes on. -/
lemma readFields_field {result : Option (List (String × Json) × List Char)}
    (hnext : (match skipGap rest with
      | ',' :: rest => readFields bound ((name, value) :: done) (skipGap rest)
      | '\x7d' :: rest => some (((name, value) :: done).reverse, rest)
      | _ => none) = result) :
    readFields (bound + 1) done (quoted name ++ ':' :: ' ' :: text) = result := by
  obtain ⟨content, hstring, hcontent⟩ := exists_readString name (':' :: ' ' :: text)
  have hcolon : skipGap (':' :: ' ' :: text) = ':' :: ' ' :: text := skipGap_cons (by decide) _
  have hblank : skipGap (' ' :: text) = text := htext
  rw [quoted_append, readFields, hstring]
  simp only [hcontent, hcolon, hblank, hread]
  exact hnext

/-- Behind a comma reading goes on with the next field. -/
lemma readFields_comma (hgap : skipGap rest = ',' :: more) :
    readFields (bound + 1) done (quoted name ++ ':' :: ' ' :: text) =
      readFields bound ((name, value) :: done) (skipGap more) := by
  apply readFields_field done hread htext
  rw [hgap]
  rfl

/-- A brace behind a field ends the object. -/
lemma readFields_brace (hgap : skipGap rest = '\x7d' :: more) :
    readFields (bound + 1) done (quoted name ++ ':' :: ' ' :: text) =
      some (((name, value) :: done).reverse, more) := by
  apply readFields_field done hread htext
  rw [hgap]
  rfl

end Steps

/-- Fields are read up to the brace that closes their object. -/
lemma readFields_append {fields : List (String × Json)} (hne : fields ≠ [])
    (hplain : ∀ field ∈ fields, field.2.IsPlain) (hread : ∀ field ∈ fields, field.2.ReadsBack)
    (level outer : Nat) (rest : List Char) :
    ∀ (bound : Nat) (done : List (String × Json)), (prettyRecord level fields).length ≤ bound →
      readFields (bound + 1) done (prettyRecord level fields ++ (newLine outer ++ '\x7d' :: rest)) =
        some (done.reverse ++ fields, rest) := by
  induction fields with
  | nil => exact absurd rfl hne
  | cons field fields ih =>
    obtain ⟨hfield, hfields⟩ := List.forall_mem_cons.1 hread
    obtain ⟨hvalue, hplains⟩ := List.forall_mem_cons.1 hplain
    have hlength := length_prettyAt_le level field
    intro bound done hbound
    cases fields with
    | nil =>
      have hgap : skipGap (newLine outer ++ '\x7d' :: rest) = '\x7d' :: rest := by
        rw [skipGap_newLine, skipGap_cons (by decide)]
      rw [prettyRecord_singleton] at hbound ⊢
      rw [prettyField_append,
        readFields_brace done (hfield level bound _ (by omega) (endsNumber_newLine outer _))
          (hvalue.skipGap_prettyAt level _) hgap,
        List.reverse_cons]
    | cons next fields =>
      rw [prettyRecord_cons, List.length_append, List.length_cons, List.length_append] at hbound
      obtain ⟨bound, rfl⟩ : ∃ less, bound = less + 1 := ⟨bound - 1, by omega⟩
      have hmore :=
        ih (List.cons_ne_nil next fields) hplains hfields bound (field :: done) (by omega)
      obtain ⟨text, htext⟩ := exists_prettyRecord level next fields
      rw [prettyRecord_cons, List.append_assoc, prettyField_append, List.cons_append,
        List.append_assoc,
        readFields_comma done (hfield level _ _ (by omega) (.of_cons (by decide)))
          (hvalue.skipGap_prettyAt level _) (skipGap_cons (by decide) _),
        skipGap_newLine, htext, List.cons_append, skipGap_cons (by decide), ← List.cons_append,
        ← htext, hmore]
      simp

/-- An object that is not empty is read field by field. -/
lemma readValue_brace {bound : Nat} {c : Char} {text more : List Char}
    (hgap : skipGap text = c :: more) (hc : c ≠ '\x7d') :
    readValue (bound + 1) ('\x7b' :: text) =
      (readFields bound [] (c :: more)).map fun (fields, rest) => (.object fields, rest) := by
  rw [readValue, hgap]
  split
  · next hclose =>
    cases hclose
    exact absurd rfl hc
  · rfl

/-- An object that is not empty has its fields on lines of their own. -/
lemma prettyAt_object (level : Nat) (field : String × Json) (fields : List (String × Json)) :
    prettyAt level (.object (field :: fields)) =
      '\x7b' :: (newLine (level + 1) ++ (prettyRecord (level + 1) (field :: fields) ++
        (newLine level ++ ['\x7d']))) := by
  rw [prettyAt, prettyFields_eq, List.map_cons, block_cons, prettyRecord, List.map_cons]

/-- An object is read back if the values of its fields are. -/
lemma readsBack_object {fields : List (String × Json)} (hplain : ∀ field ∈ fields, field.2.IsPlain)
    (hread : ∀ field ∈ fields, field.2.ReadsBack) : ReadsBack (.object fields) := by
  cases fields with
  | nil => exact .of_cons fun _ => ⟨'\x7b', _, rfl, fun _ _ _ _ => rfl⟩
  | cons field fields =>
    refine .of_cons fun level => ⟨'\x7b', _, prettyAt_object level field fields, ?_⟩
    intro bound rest hbound _
    simp only [List.length_append, length_newLine] at hbound
    obtain ⟨bound, rfl⟩ : ∃ less, bound = less + 1 := ⟨bound - 1, by omega⟩
    have hfields := readFields_append (List.cons_ne_nil field fields) hplain hread (level + 1) level
      rest bound [] (by omega)
    obtain ⟨text, htext⟩ := exists_prettyRecord (level + 1) field fields
    have hskip : skipGap (newLine (level + 1) ++ (prettyRecord (level + 1) (field :: fields) ++
        (newLine level ++ '\x7d' :: rest))) =
          '"' :: (text ++ (newLine level ++ '\x7d' :: rest)) := by
      rw [skipGap_newLine, htext, List.cons_append, skipGap_cons (by decide)]
    rw [htext, List.cons_append] at hfields
    simp only [List.append_assoc, List.singleton_append]
    rw [readValue_brace hskip (by decide), hfields]
    rfl

/-! ### Every value -/

/-- A plain value is read back from its written form. -/
theorem IsPlain.readsBack {value : Json} (h : value.IsPlain) : ReadsBack value := by
  induction h with
  | null => exact readsBack_null
  | bool value => exact readsBack_bool value
  | ofNat n => exact readsBack_ofNat n
  | string text => exact readsBack_string text
  | array h ih => exact readsBack_array h ih
  | object h ih => exact readsBack_object h ih

/-- The text of a plain value is read as that value. -/
theorem parse?_pretty {value : Json} (h : value.IsPlain) : parse? (pretty value) = some value := by
  have hread := h.readsBack 0 (2 * (prettyAt 0 value).length + 2) [] (by omega) nofun
  have hskip := h.skipGap_prettyAt 0 []
  rw [List.append_nil] at hread hskip
  rw [parse?, pretty, String.toList_ofList, hskip, hread]
  rfl

end ComponentApi.Json
