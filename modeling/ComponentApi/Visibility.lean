/-!
# Visibility

How far a documented symbol can be seen. Visibilities are ordered from private to public, and two
descriptions of one symbol give it the greater of their visibilities.
-/

namespace ComponentApi

/-- Who may use a documented symbol. -/
inductive Visibility where
  | «private»
  | «protected»
  | «public»
  deriving DecidableEq, Repr, Inhabited

namespace Visibility

/-- All visibilities, the widest first. -/
def all : List Visibility :=
  [.public, .protected, .private]

/-- The place of a visibility in the order from private to public. -/
def rank : Visibility → Nat
  | .private => 0
  | .protected => 1
  | .public => 2

/-- The word for a visibility. -/
def name : Visibility → String
  | .private => "private"
  | .protected => "protected"
  | .public => "public"

/-- The visibility that a word names. -/
def ofName? (word : String) : Option Visibility :=
  all.find? fun v => v.name == word

/-- A visibility is named by its name only. -/
theorem ofName?_eq_some {word : String} {visibility : Visibility} :
    ofName? word = some visibility ↔ visibility.name = word := by
  constructor
  · intro h
    simpa using List.find?_some h
  · rintro rfl
    cases visibility <;> decide

/-- The greater of two visibilities. -/
def join (a b : Visibility) : Visibility :=
  if a.rank ≤ b.rank then b else a

/-- A join is at least as visible as its left side. -/
theorem rank_le_join_left (a b : Visibility) : a.rank ≤ (a.join b).rank := by
  unfold join
  split
  · assumption
  · exact Nat.le_refl _

/-- A join is at least as visible as its right side. -/
theorem rank_le_join_right (a b : Visibility) : b.rank ≤ (a.join b).rank := by
  unfold join
  split
  · exact Nat.le_refl _
  · omega

/-- A join is one of its sides. -/
theorem join_eq_or (a b : Visibility) : a.join b = a ∨ a.join b = b := by
  unfold join
  split
  · exact .inr rfl
  · exact .inl rfl

end Visibility

end ComponentApi
