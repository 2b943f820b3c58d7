/-!
# Ranges of code points

A class of characters is given by a list of closed ranges of code points. `inRanges` decides
membership.
-/

namespace TapeMachine.Text

/-- A closed range of code points, least and greatest. -/
abbrev CodePointRange := Nat × Nat

/-- The character lies in one of the ranges. -/
def inRanges (ranges : List CodePointRange) (c : Char) : Bool :=
  ranges.any fun r => decide (r.1 ≤ c.toNat) && decide (c.toNat ≤ r.2)

/-- Membership is lying between the ends of a listed range. -/
theorem inRanges_iff {ranges : List CodePointRange} {c : Char} :
    inRanges ranges c = true ↔ ∃ r ∈ ranges, r.1 ≤ c.toNat ∧ c.toNat ≤ r.2 := by
  simp [inRanges]

end TapeMachine.Text
