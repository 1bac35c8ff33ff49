/-!
# Sets of code points

Character classes are data: a class is the ascending list of the closed ranges of code points that
belong to it. Membership is decided by one function, so that a class adds a table and nothing else.
-/

namespace EntityDiagram.Text

/-- Closed ranges of code points, ascending and apart from each other. -/
abbrev CodeRanges := List (Nat × Nat)

/-- Whether a code point lies in one of the ranges. The search ends at the first range above it. -/
def CodeRanges.contains : CodeRanges → Nat → Bool
  | [], _ => false
  | (low, high) :: rest, n => decide (low ≤ n) && (decide (n ≤ high) || CodeRanges.contains rest n)

/-- The character's code point lies in one of the ranges. -/
def CodeRanges.has (ranges : CodeRanges) (c : Char) : Bool :=
  ranges.contains c.toNat

/-- The first code point of the range that holds the given one. -/
def CodeRanges.startOf? : CodeRanges → Nat → Option Nat
  | [], _ => none
  | (low, high) :: rest, n =>
    if n < low then none
    else if n ≤ high then some low
    else CodeRanges.startOf? rest n

theorem CodeRanges.startOf?_isSome
    (ranges : CodeRanges) (n : Nat) :
    (ranges.startOf? n).isSome = ranges.contains n := by
  induction ranges with
  | nil => rfl
  | cons range rest ih =>
    obtain ⟨low, high⟩ := range
    unfold CodeRanges.startOf? CodeRanges.contains
    by_cases hlow : n < low
    · simp [hlow, Nat.not_le.mpr hlow]
    · by_cases hhigh : n ≤ high
      · simp [hlow, hhigh, Nat.not_lt.mp hlow]
      · simp [hlow, hhigh, Nat.not_lt.mp hlow, ih]

end EntityDiagram.Text
