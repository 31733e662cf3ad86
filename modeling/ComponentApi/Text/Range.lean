/-!
# Ranges of characters

A property of characters is given by a table of ranges of code points. This module says when a
character lies in such a table.
-/

namespace ComponentApi.Text

/-- The code points from the first number to the second, both included. -/
abbrev CharRange := Nat × Nat

/-- Whether the character lies in one of the ranges. -/
def inRanges (ranges : List CharRange) (c : Char) : Bool :=
  ranges.any fun (first, last) => first ≤ c.toNat && c.toNat ≤ last

/-- The code points from the first number to the second in steps of the third. -/
abbrev CharProgression := Nat × Nat × Nat

/-- Whether the character is a member of one of the progressions. -/
def inProgressions (progressions : List CharProgression) (c : Char) : Bool :=
  progressions.any fun (first, last, step) =>
    first ≤ c.toNat && c.toNat ≤ last && (c.toNat - first) % step == 0

end ComponentApi.Text
