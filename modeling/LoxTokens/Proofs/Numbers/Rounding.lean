import LoxTokens.Binary64.Rounding
import LoxTokens.Proofs.Numbers.Writing

/-!
# Exact rounding

A ratio that is the value of a finite magnitude rounds to this magnitude, and a
ratio rounds as its value does, whatever its terms are.  Both follow the way the
rounding goes: the count of least subnormals, the unit of its block, the count
of units.
-/

namespace LoxTokens.Binary64

/-! ## Rounding depends on the value alone -/

theorem roundHalfEven_mul (num den : Nat) {k : Nat} (hk : 0 < k) :
    roundHalfEven (k * num) (k * den) = roundHalfEven num den := by
  have htwice : 2 * (k * (num % den)) = k * (2 * (num % den)) := by
    rw [Nat.mul_left_comm]
  unfold roundHalfEven
  simp only [Nat.mul_div_mul_left _ _ hk, Nat.mul_mod_mul_left, htwice,
    Nat.mul_lt_mul_left hk]

theorem roundMagnitude_mul (num den : Nat) {k : Nat} (hk : 0 < k) :
    roundMagnitude (k * num) (k * den) = roundMagnitude num den := by
  unfold roundMagnitude
  simp only [Nat.shiftLeft_eq, Nat.mul_assoc, Nat.mul_div_mul_left _ _ hk,
    roundHalfEven_mul _ _ hk]

/-- Two ratios of the same value round to the same magnitude. -/
theorem roundMagnitude_eq_of_mul_eq {num den num' den' : Nat} (hden : 0 < den) (hden' : 0 < den')
    (hvalue : num * den' = num' * den) : roundMagnitude num den = roundMagnitude num' den' :=
  calc roundMagnitude num den
      = roundMagnitude (den' * num) (den' * den) := (roundMagnitude_mul num den hden').symm
    _ = roundMagnitude (den * num') (den * den') := by
        rw [Nat.mul_comm den' num, hvalue, Nat.mul_comm num' den, Nat.mul_comm den' den]
    _ = roundMagnitude num' den' := roundMagnitude_mul num' den' hden

/-! ## A magnitude is the rounding of its own value -/

theorem roundHalfEven_exact (n : Nat) {den : Nat} (hden : 0 < den) :
    roundHalfEven (n * den) den = n := by
  unfold roundHalfEven
  simp [Nat.mul_div_cancel n hden, hden]

theorem unitsOfOne_pos : 0 < unitsOfOne := by
  unfold unitsOfOne
  rw [Nat.one_shiftLeft]
  exact Nat.two_pow_pos 1074

theorem scale_mul_block_le (magnitude : Nat) : scale magnitude * block ≤ magnitude := by
  unfold scale
  have hfloor := Nat.div_mul_le_self magnitude block
  have hless := Nat.mul_le_mul_right block (Nat.sub_le (magnitude / block) 1)
  omega

theorem scale_mul_block_add_significand (magnitude : Nat) :
    scale magnitude * block + significand magnitude = magnitude :=
  Nat.add_sub_cancel' (scale_mul_block_le magnitude)

/-- Magnitudes of the first two blocks count the least subnormals, and those of
any other block have a significand of 53 bits. -/
theorem significand_bounds (magnitude : Nat) :
    significand magnitude < 2 * block ∧
      (scale magnitude = 0 ∨ block ≤ significand magnitude) := by
  have hdivision := Nat.div_add_mod magnitude block
  have hrest : magnitude % block < block := Nat.mod_lt _ (by decide)
  unfold significand scale
  generalize magnitude / block = quotient at hdivision ⊢
  cases quotient with
  | zero => omega
  | succ quotient =>
      simp only [Nat.add_sub_cancel]
      rw [Nat.mul_succ, Nat.mul_comm] at hdivision
      omega

/-- The unit of a magnitude is the one that rounding chooses for its value. -/
theorem log2_units (magnitude : Nat) : (units magnitude).log2 - 52 = scale magnitude := by
  obtain ⟨hupper, hlower⟩ := significand_bounds magnitude
  unfold units
  rw [Nat.shiftLeft_eq]
  rcases hlower with hscale | hlower
  · -- the unit is the least one, and the count has no more than 53 bits
    rw [hscale, Nat.pow_zero, Nat.mul_one]
    by_cases hzero : significand magnitude = 0
    · rw [hzero, Nat.log2_zero]
    · have hlog := (Nat.log2_lt (k := 53) hzero).mpr hupper
      omega
  · have hpos : 0 < significand magnitude := Nat.lt_of_lt_of_le (by decide) hlower
    have hunit : 0 < 2 ^ scale magnitude := Nat.two_pow_pos _
    have hlog : (significand magnitude * 2 ^ scale magnitude).log2 = 52 + scale magnitude := by
      apply (Nat.log2_eq_iff (Nat.ne_of_gt (Nat.mul_pos hpos hunit))).mpr
      rw [Nat.add_right_comm, Nat.pow_add, Nat.pow_add]
      exact ⟨Nat.mul_le_mul_right _ hlower, Nat.mul_lt_mul_of_pos_right hupper hunit⟩
    rw [hlog, Nat.add_sub_cancel_left]

theorem roundMagnitude_units {magnitude : Nat} (hfinite : magnitude < infinite) :
    roundMagnitude (units magnitude) unitsOfOne = magnitude := by
  have hvalue : units magnitude * unitsOfOne =
      significand magnitude * unitsOfOne <<< scale magnitude := by
    unfold units
    rw [Nat.shiftLeft_eq, Nat.shiftLeft_eq, Nat.mul_assoc, Nat.mul_comm unitsOfOne]
  have hden : 0 < unitsOfOne <<< scale magnitude := by
    rw [Nat.shiftLeft_eq]
    exact Nat.mul_pos unitsOfOne_pos (Nat.two_pow_pos _)
  unfold roundMagnitude
  simp only [Nat.mul_div_cancel _ unitsOfOne_pos, log2_units]
  rw [hvalue, roundHalfEven_exact _ hden, scale_mul_block_add_significand]
  exact Nat.min_eq_right (Nat.le_of_lt hfinite)

theorem roundMagnitude_zero {den : Nat} (hden : 0 < den) : roundMagnitude 0 den = 0 := by
  have hunits : units 0 = 0 := by decide
  have hvalue : 0 * unitsOfOne = 0 * den := by rw [Nat.zero_mul, Nat.zero_mul]
  calc roundMagnitude 0 den
      = roundMagnitude 0 unitsOfOne := roundMagnitude_eq_of_mul_eq hden unitsOfOne_pos hvalue
    _ = roundMagnitude (units 0) unitsOfOne := by rw [hunits]
    _ = 0 := roundMagnitude_units (by decide)

end LoxTokens.Binary64
