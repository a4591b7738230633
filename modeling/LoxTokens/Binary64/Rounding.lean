import LoxTokens.Binary64.Basic

/-!
# Rounding a ratio to the nearest binary64 number

A ratio of naturals is rounded in one step: it is counted in least subnormals,
the unit of its own block of magnitudes is chosen from the integer part of that
count, and the count is rounded to a multiple of this unit with ties to even.
A carry out of the significand runs into the exponent field and so lands on
the next magnitude, where it belongs; what passes the largest finite magnitude
is infinity.
-/

namespace LoxTokens.Binary64

/-- The natural nearest to `num / den`, the even one of two equally near. -/
def roundHalfEven (num den : Nat) : Nat :=
  let quotient := num / den
  let rest := 2 * (num % den)
  if rest < den then quotient
  else if den < rest then quotient + 1
  else quotient + quotient % 2

/-- The magnitude nearest to `num / den`, ties to the even magnitude. -/
def roundMagnitude (num den : Nat) : Nat :=
  let counted := num * unitsOfOne
  -- the subtraction stops at zero, and so at the unit of the subnormals
  let doublings := (counted / den).log2 - 52
  min infinite (doublings * block + roundHalfEven counted (den <<< doublings))

theorem roundMagnitude_lt (num den : Nat) : roundMagnitude num den < signBit :=
  Nat.lt_of_le_of_lt (Nat.min_le_left ..) (by decide)

/-- The binary64 number nearest to `num / den`, with the sign asked for. -/
def ofRatio (negative : Bool) (num den : Nat) : Binary64 where
  negative := negative
  magnitude := roundMagnitude num den
  magnitude_lt := roundMagnitude_lt num den

end LoxTokens.Binary64
