import Mathlib.Data.List.Infix
import Mathlib.Tactic.Basic
import ComponentApi.Json.Printer
import ComponentApi.Json.Reader
import ComponentApi.Proofs.Text.Lines

/-!
# Strings and numbers that are written and read

A string literal is read up to its closing mark, whatever stands behind it, and gives back the text
it was written for (`exists_readString`). The digits of a natural number are read up to what cannot
belong to a number (`readNumber?_toDigits`).
-/

namespace ComponentApi.Json

open Text

/-! ### Strings -/

/-- The number of a control character is read from its digits. -/
lemma hexQuad?_control :
    ∀ n < 32, hexQuad? '0' '0' (hexDigit (n / 16)) (hexDigit (n % 16)) = some n := by
  decide

section Strings

variable {c : Char} (done : List Char)

/-- A control character is read from its number. -/
lemma readString_control (h : c.toNat < 32) (rest : List Char) :
    readString { chars := done } ('\\' :: 'u' :: '0' :: '0' :: hexDigit (c.toNat / 16) ::
      hexDigit (c.toNat % 16) :: rest) = readString { chars := c :: done } rest := by
  have hlow : ¬ 0xD800 ≤ c.toNat := by omega
  have hhigh : ¬ 0xDC00 ≤ c.toNat := by omega
  have hunit : Content.addUnit { chars := done } c.toNat = { chars := c :: done } := by
    simp [Content.addUnit, hlow, hhigh]
  rw [readString, hexQuad?_control c.toNat h]
  dsimp only
  rw [hunit]

/-- A character that needs no escape is read as it stands. -/
lemma readString_plain (hquote : c ≠ '"') (hslash : c ≠ '\\') (h : ¬ c.toNat < 32)
    (rest : List Char) :
    readString { chars := done } (c :: rest) = readString { chars := c :: done } rest := by
  rw [readString]
  · simp [h, hslash, Content.addChar]
  · exact hquote
  · rintro _ _ _ _ _ rfl
    exact absurd rfl hslash
  · rintro _ _ rfl
    exact absurd rfl hslash

/-- What a character is written as is read as that character. -/
lemma readString_escaped (rest : List Char) :
    readString { chars := done } (escaped c ++ rest) = readString { chars := c :: done } rest := by
  unfold escaped
  split
  iterate 7 rfl
  next hquote hslash _ _ _ _ _ =>
    split
    · next hcontrol => exact readString_control done hcontrol rest
    · next hcontrol => exact readString_plain done hquote hslash hcontrol rest

/-- Behind escaped text and a quote, the string has all characters of the text. -/
lemma readString_flatMap_escaped (text rest : List Char) :
    readString { chars := done } (text.flatMap escaped ++ '"' :: rest) =
      some ({ chars := text.reverse ++ done }, rest) := by
  induction text generalizing done with
  | nil => rfl
  | cons c text ih =>
    rw [List.flatMap_cons, List.append_assoc, readString_escaped, ih, List.reverse_cons,
      List.append_assoc, List.singleton_append]

end Strings

/-- The literal of a text is read up to its closing mark, and its content is the text. -/
lemma exists_readString (text : String) (rest : List Char) : ∃ content,
    readString {} (text.toList.flatMap escaped ++ '"' :: rest) = some (content, rest) ∧
      content.text? = some text :=
  ⟨_, readString_flatMap_escaped [] text.toList rest, by simp [Content.text?]⟩

/-! ### Numbers -/

/-- Whether a number ends in front of the text: it goes on with no digit, fraction or exponent. -/
def EndsNumber (rest : List Char) : Prop :=
  ∀ c ∈ rest.head?, c.isDigit = false ∧ c ∉ ['.', 'e', 'E']

section Numbers

variable {rest : List Char}

/-- A number ends in front of a character that can be none of its own. -/
lemma EndsNumber.of_cons {c : Char} (h : c.isDigit = false ∧ c ∉ ['.', 'e', 'E']) :
    EndsNumber (c :: rest) := by
  rintro d ⟨⟩
  exact h

/-- Where a number ends, it has no fraction. -/
lemma EndsNumber.readFraction?_eq (h : EndsNumber rest) : readFraction? rest = some ([], rest) := by
  rw [readFraction?]
  rintro more rfl
  exact (h '.' rfl).2 (by decide)

/-- Where a number ends, it has no exponent. -/
lemma EndsNumber.readExponent?_eq (h : EndsNumber rest) : readExponent? rest = some ([], rest) := by
  cases rest with
  | nil => rfl
  | cons c rest =>
    have hmark := (h c rfl).2
    simp only [List.mem_cons, List.not_mem_nil, or_false, not_or] at hmark
    simp [readExponent?, hmark]

end Numbers

/-- Only zero has the digit zero. -/
lemma digitChar_ne_zero : ∀ n < 10, n ≠ 0 → n.digitChar ≠ '0' := by
  decide

/-- Only zero is written with a zero at its start. -/
lemma head?_toDigits {n : Nat} (h : n ≠ 0) : (Nat.toDigits 10 n).head? ≠ some '0' := by
  induction n using Nat.strongRecOn with
  | ind n ih =>
    by_cases hn : n < 10
    · rw [Nat.toDigits_of_lt_base hn]
      exact fun hhead => digitChar_ne_zero n hn h (Option.some.inj hhead)
    · have hstart := ih (n / 10) (by omega) (by omega)
      rw [Nat.toDigits_of_base_le (by decide) (by omega),
        List.head?_append_of_ne_nil _ Nat.toDigits_ne_nil]
      exact hstart

/-- The digits of a number are digits. -/
lemma isDigit_toDigits (n : Nat) : ∀ c ∈ Nat.toDigits 10 n, c.isDigit = true :=
  fun _ hc => Nat.isDigit_of_mem_toDigits (by decide) (by decide) hc

/-- A number is written with at least one digit. -/
lemma exists_toDigits (n : Nat) :
    ∃ c digits, Nat.toDigits 10 n = c :: digits ∧ c.isDigit = true := by
  have hdigits := isDigit_toDigits n
  have hne : Nat.toDigits 10 n ≠ [] := Nat.toDigits_ne_nil
  obtain ⟨c, digits, hcons⟩ := List.exists_cons_of_ne_nil hne
  exact ⟨c, digits, hcons, hdigits c (by simp [hcons])⟩

/-- The digits of a number are its whole part. -/
lemma readWhole?_toDigits (n : Nat) {rest : List Char} (hrest : EndsNumber rest) :
    readWhole? (Nat.toDigits 10 n ++ rest) = some (Nat.toDigits 10 n, rest) := by
  by_cases hn : n = 0
  · subst hn
    rfl
  · have hcut : cutAt (!Char.isDigit ·) (Nat.toDigits 10 n ++ rest) = (Nat.toDigits 10 n, rest) :=
      cutAt_append (by simpa using isDigit_toDigits n) fun c hc => by simp [(hrest c hc).1]
    simp only [cutAt, Bool.not_not, Prod.mk.injEq] at hcut
    have hstart := head?_toDigits hn
    obtain ⟨c, digits, hdigits, -⟩ := exists_toDigits n
    rw [hdigits] at hcut hstart ⊢
    rw [readWhole?, readDigits?, hcut.1, hcut.2]
    rintro more ⟨⟩
    exact hstart rfl

/-- The digits of a number are read as that number. -/
lemma readNumber?_toDigits (n : Nat) {rest : List Char} (hrest : EndsNumber rest) :
    readNumber? (Nat.toDigits 10 n ++ rest) = some (.ofNat n, rest) := by
  have hdigit : rest.head?.any Char.isDigit = false := by
    cases rest with
    | nil => rfl
    | cons c rest => exact (hrest c rfl).1
  rw [readNumber?, readWhole?_toDigits n hrest]
  · simp [hdigit, hrest.readFraction?_eq, hrest.readExponent?_eq, ofNat,
      Nat.repr_eq_ofList_toDigits]
  · intro more hminus
    obtain ⟨c, digits, hdigits, hc⟩ := exists_toDigits n
    rw [hdigits] at hminus
    cases hminus
    cases hc

end ComponentApi.Json
