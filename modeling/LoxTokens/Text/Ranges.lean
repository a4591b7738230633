/-!
# Ranges of characters

A class of characters that a standard lists is a table of ranges of code
points.
-/

namespace LoxTokens.Text

/-- A table of ranges, each by its first and its last code point. -/
abbrev Ranges := List (Nat × Nat)

namespace Ranges

def has (ranges : Ranges) (c : Char) : Bool :=
  ranges.any fun (first, last) => first ≤ c.toNat && c.toNat ≤ last

theorem has_eq_true_iff (ranges : Ranges) (c : Char) :
    ranges.has c = true ↔ ∃ range ∈ ranges, range.1 ≤ c.toNat ∧ c.toNat ≤ range.2 := by
  simp [has, List.any_eq_true]

end Ranges

end LoxTokens.Text
