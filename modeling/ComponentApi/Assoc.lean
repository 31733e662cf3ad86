/-!
# Association lists

Finite maps as lists of pairs. A key stands at most once in a list that is built by `put` from
the empty one; the pairs stay in the order in which their keys were first put.
-/

namespace ComponentApi

/-- A finite map from keys to values. -/
abbrev Assoc (α β : Type) := List (α × β)

namespace Assoc

variable {α β : Type} [BEq α]

/-- The value of a key. -/
def get? (map : Assoc α β) (key : α) : Option β :=
  match map with
  | [] => none
  | (k, v) :: rest => if k == key then some v else get? rest key

/-- The map with the value of one key set. -/
def put (map : Assoc α β) (key : α) (value : β) : Assoc α β :=
  match map with
  | [] => [(key, value)]
  | (k, v) :: rest => if k == key then (k, value) :: rest else (k, v) :: put rest key value

/-- The map without one key. -/
def remove (map : Assoc α β) (key : α) : Assoc α β :=
  map.filter fun (k, _) => !(k == key)

/-! ### Look-up -/

/-- An empty map has no entries. -/
@[simp] theorem get?_nil (key : α) : get? ([] : Assoc α β) key = none := rfl

section Lookup

variable [LawfulBEq α]

/-- After a key is put, that key has the new value and all others have what they had. -/
theorem get?_put (map : Assoc α β) (key other : α) (value : β) :
    (map.put key value).get? other = if key == other then some value else map.get? other := by
  induction map with
  | nil => rfl
  | cons entry rest ih =>
    obtain ⟨k, v⟩ := entry
    by_cases hk : (k == key) = true
    · have e := eq_of_beq hk
      subst e
      by_cases ho : (k == other) = true <;> simp [put, get?, ho]
    · by_cases ho : (k == other) = true
      · have hne : (key == other) = false := by
          have e := eq_of_beq ho
          subst e
          simpa [beq_eq_false_iff_ne, ne_comm] using hk
        simp [put, get?, hk, ho, hne]
      · simp [put, get?, hk, ho, ih]

/-- The entry that was put in last is found. -/
@[simp] theorem get?_put_self (map : Assoc α β) (key : α) (value : β) :
    (map.put key value).get? key = some value := by
  simp [get?_put]

/-- Entries with other keys stay as they are. -/
theorem get?_put_of_ne (map : Assoc α β) {key other : α} (value : β) (h : key ≠ other) :
    (map.put key value).get? other = map.get? other := by
  simp [get?_put, h]

/-- What is found after a key is put was put with it, or was found before. -/
theorem eq_or_get?_of_get?_put {map : Assoc α β} {key other : α} {value found : β}
    (h : (map.put key value).get? other = some found) :
    (key = other ∧ value = found) ∨ map.get? other = some found := by
  rw [get?_put] at h
  split at h
  case isTrue heq => exact .inl ⟨eq_of_beq heq, Option.some.inj h⟩
  case isFalse => exact .inr h

/-- What was found before is still found after a missing key is put. -/
theorem get?_put_of_get? {map : Assoc α β} {key other : α} {value found : β}
    (hmissing : map.get? key = none) (h : map.get? other = some found) :
    (map.put key value).get? other = some found := by
  rw [get?_put_of_ne map value]
  · exact h
  · intro e
    rw [← e, hmissing] at h
    cases h

/-- After a key is removed, that key has no value and all others have what they had. -/
theorem get?_remove (map : Assoc α β) (key other : α) :
    (map.remove key).get? other = if key == other then none else map.get? other := by
  induction map with
  | nil => simp [remove]
  | cons entry rest ih =>
    obtain ⟨k, v⟩ := entry
    simp only [remove] at ih
    by_cases hk : (k == key) = true
    · have e := eq_of_beq hk
      subst e
      by_cases ho : (k == other) = true <;> simp_all [remove, get?]
    · by_cases ho : (k == other) = true
      · have e := eq_of_beq ho
        subst e
        simp_all [remove, get?, beq_eq_false_iff_ne, ne_comm]
      · simp_all [remove, get?]

end Lookup

end Assoc

end ComponentApi
