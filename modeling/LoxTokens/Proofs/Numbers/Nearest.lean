import LoxTokens.Proofs.Numbers.Rounding
import Mathlib

/-!
# Correct rounding

What a ratio rounds to is the nearest number of the format, and the even one of
two equally near.

A ratio has a unit, the least one with which its count fits the significand, and
it is rounded to a whole number of these units.  Every magnitude in the block of
the ratio and above is a multiple of the unit too, so none of them is nearer; and
whatever is below that block is further away than its first magnitude is.  The
largest finite magnitude plays no part in this.  `nearest` is what would be
rounded to without it, and overflow is a comparison of that with infinity.
-/

namespace LoxTokens.Binary64

/-! ## Values -/

/-- The value of a finite magnitude by the fields of the format: the exponent
above the fraction of 52 bits.  Only with an exponent of zero the fraction has no
leading bit before it. -/
def magnitudeValue (magnitude : Nat) : ℚ :=
  let exponent := magnitude / block
  let fraction := magnitude % block
  if exponent = 0 then fraction * 2 ^ (-1074 : ℤ)
  else (block + fraction) * 2 ^ ((exponent : ℤ) - 1075)

/-- The value of a finite number. -/
def value (x : Binary64) : ℚ :=
  if x.negative then -magnitudeValue x.magnitude else magnitudeValue x.magnitude

/-- A number is the correct rounding of a ratio that is not negative: the nearest
finite number, the even one of two values that are equally near, or infinity from
half a unit above the largest finite number on.  Half the least subnormal and all
below it is rounded to zero. -/
structure IsRounding (x : Binary64) (ratio : ℚ) : Prop where
  not_nan : x.isNaN = false
  not_negative : x.negative = false
  abs_value_sub_le : x.isFinite = true →
    ∀ y : Binary64, y.isFinite = true → |x.value - ratio| ≤ |y.value - ratio|
  even_of_eq : x.isFinite = true →
    ∀ y : Binary64, y.isFinite = true → |x.value - ratio| = |y.value - ratio| →
      y.value ≠ x.value → x.magnitude % 2 = 0
  infinite_iff : x.magnitude = infinite ↔ 2 ^ 1024 - 2 ^ 970 ≤ ratio
  zero_iff : x.magnitude = 0 ↔ ratio ≤ 2 ^ (-1075 : ℤ)

theorem cast_shiftLeft (n doublings : Nat) :
    ((n <<< doublings : Nat) : ℚ) = n * 2 ^ doublings := by
  rw [Nat.shiftLeft_eq, Nat.cast_mul, Nat.cast_pow, Nat.cast_ofNat]

theorem cast_unitsOfOne : (unitsOfOne : ℚ) = 2 ^ 1074 := by
  rw [unitsOfOne, cast_shiftLeft, Nat.cast_one, one_mul]

/-- Units of one size, of which there are no more than fill a block, make up a
magnitude.  A full block of them is the first magnitude of the next block. -/
theorem units_eq {doublings n : Nat} (hupper : n ≤ 2 * block)
    (hlower : doublings = 0 ∨ block ≤ n) :
    units (doublings * block + n) = n <<< doublings := by
  rcases Nat.lt_or_eq_of_le hupper with hlt | rfl
  · have hscale : scale (doublings * block + n) = doublings := by
      unfold scale block at *
      omega
    rw [units, significand, hscale, Nat.add_sub_cancel_left]
  · have hscale : scale (doublings * block + 2 * block) = doublings + 1 := by
      unfold scale block
      omega
    have hrest : doublings * block + 2 * block - (doublings + 1) * block = block := by
      unfold block
      omega
    rw [units, significand, hscale, hrest, Nat.shiftLeft_succ_inside]

theorem magnitudeValue_eq (magnitude : Nat) :
    magnitudeValue magnitude = units magnitude / unitsOfOne := by
  have hone : (unitsOfOne : ℚ) = 2 ^ (1074 : ℤ) := by
    rw [cast_unitsOfOne, ← zpow_natCast, Nat.cast_ofNat]
  have hdivision := Nat.div_add_mod magnitude block
  rw [magnitudeValue, units, significand, scale, cast_shiftLeft, hone]
  generalize magnitude / block = exponent at hdivision ⊢
  generalize magnitude % block = fraction at hdivision ⊢
  cases exponent with
  | zero =>
      have hmagnitude : magnitude = fraction := by omega
      simp [hmagnitude, zpow_neg, div_eq_mul_inv]
  | succ exponent =>
      have hrest : magnitude - (exponent + 1 - 1) * block = block + fraction := by
        rw [Nat.mul_succ, Nat.mul_comm] at hdivision
        rw [Nat.add_sub_cancel]
        omega
      have hpower : ((exponent + 1 : ℕ) : ℤ) - 1075 = exponent - 1074 := by
        push_cast
        ring
      rw [if_neg (Nat.succ_ne_zero _), hrest, Nat.add_sub_cancel, hpower,
        zpow_sub₀ two_ne_zero, zpow_natCast, Nat.cast_add, mul_div_assoc]

/-! ## Nearest whole numbers -/

/-- The natural that is rounded to is no further than a half, and an even one at
a half. -/
theorem abs_roundHalfEven_sub (num : Nat) {den : Nat} (hden : 0 < den) :
    |(roundHalfEven num den : ℚ) - num / den| ≤ 1 / 2 ∧
      (|(roundHalfEven num den : ℚ) - num / den| = 1 / 2 → roundHalfEven num den % 2 = 0) := by
  have hpos : (0 : ℚ) < den := Nat.cast_pos.mpr hden
  have hdivision : (num : ℚ) / den = (num / den : ℕ) + (num % den : ℕ) / (den : ℚ) := by
    rw [div_eq_iff hpos.ne', add_mul, div_mul_cancel₀ _ hpos.ne', mul_comm]
    exact_mod_cast (Nat.div_add_mod num den).symm
  have hrest : (0 : ℚ) ≤ (num % den : ℕ) / (den : ℚ) := by positivity
  have hbelow : (num % den : ℕ) / (den : ℚ) < 1 / 2 ↔ 2 * (num % den) < den := by
    rw [div_lt_div_iff₀ hpos two_pos, one_mul, mul_comm]
    exact_mod_cast Iff.rfl
  have habove : (1 / 2 : ℚ) < (num % den : ℕ) / (den : ℚ) ↔ den < 2 * (num % den) := by
    rw [div_lt_div_iff₀ two_pos hpos, one_mul, mul_comm]
    exact_mod_cast Iff.rfl
  have hone : (num % den : ℕ) / (den : ℚ) < 1 := by
    rw [div_lt_one hpos]
    exact_mod_cast Nat.mod_lt num hden
  unfold roundHalfEven
  dsimp only
  rw [hdivision]
  generalize ((num % den : ℕ) : ℚ) / den = rest at *
  split
  · next hless =>
      have hless := hbelow.mpr hless
      rw [sub_add_cancel_left, abs_neg, abs_of_nonneg hrest]
      exact ⟨hless.le, fun hhalf => absurd hhalf hless.ne⟩
  · next hnotless =>
      split
      · next hmore =>
          have hmore := habove.mpr hmore
          have hgap : ((num / den + 1 : ℕ) : ℚ) - ((num / den : ℕ) + rest) = 1 - rest := by
            rw [Nat.cast_add_one]
            ring
          rw [hgap, abs_of_pos (sub_pos.mpr hone)]
          exact ⟨by linarith, fun hhalf => by linarith⟩
      · next hnotmore =>
          have hrest : rest = 1 / 2 :=
            le_antisymm (not_lt.mp (mt habove.mp hnotmore)) (not_lt.mp (mt hbelow.mp hnotless))
          have hgap : ((num / den + num / den % 2 : ℕ) : ℚ) - ((num / den : ℕ) + rest) =
              (num / den % 2 : ℕ) - 1 / 2 := by
            rw [Nat.cast_add, hrest]
            ring
          rw [hgap]
          refine ⟨?_, fun _ => by omega⟩
          rcases Nat.mod_two_eq_zero_or_one (num / den) with hparity | hparity
          · rw [hparity]
            norm_num
          · rw [hparity]
            norm_num

/-- Every other natural is a half away, or more. -/
theorem half_le_abs_sub (num : Nat) {den : Nat} (hden : 0 < den) {n : Nat}
    (hne : n ≠ roundHalfEven num den) : 1 / 2 ≤ |(n : ℚ) - num / den| := by
  have hnear := (abs_roundHalfEven_sub num hden).1
  have hint : ((n : ℤ) - roundHalfEven num den : ℤ) ≠ 0 := by omega
  have hapart : (1 : ℚ) ≤ |(n : ℚ) - roundHalfEven num den| := by
    exact_mod_cast Int.one_le_abs hint
  have htriangle := abs_sub_le (n : ℚ) (num / den) (roundHalfEven num den)
  rw [abs_sub_comm ((num : ℚ) / den)] at htriangle
  linarith

/-- No natural is nearer than the one rounded to. -/
theorem abs_roundHalfEven_sub_le (num : Nat) {den : Nat} (hden : 0 < den) (n : Nat) :
    |(roundHalfEven num den : ℚ) - num / den| ≤ |(n : ℚ) - num / den| := by
  by_cases hsame : n = roundHalfEven num den
  · rw [hsame]
  · exact (abs_roundHalfEven_sub num hden).1.trans (half_le_abs_sub num hden hsame)

/-- If another one is as near, the one rounded to is even. -/
theorem even_roundHalfEven {num den : Nat} (hden : 0 < den) {n : Nat}
    (hne : n ≠ roundHalfEven num den)
    (htie : |(roundHalfEven num den : ℚ) - num / den| = |(n : ℚ) - num / den|) :
    roundHalfEven num den % 2 = 0 := by
  obtain ⟨hnear, heven⟩ := abs_roundHalfEven_sub num hden
  exact heven (le_antisymm hnear (htie ▸ half_le_abs_sub num hden hne))

/-- What is half a unit below an even natural is rounded up to it. -/
theorem le_roundHalfEven_iff {num den n : Nat} (hden : 0 < den) (heven : n % 2 = 0) :
    n ≤ roundHalfEven num den ↔ (n : ℚ) - 1 / 2 ≤ num / den := by
  obtain ⟨hnear, htie⟩ := abs_roundHalfEven_sub num hden
  obtain ⟨hbelow, habove⟩ := abs_le.mp hnear
  constructor
  · intro hle
    have hle : (n : ℚ) ≤ roundHalfEven num den := Nat.cast_le.mpr hle
    linarith
  · intro hle
    by_contra hless
    have hless : (roundHalfEven num den : ℚ) + 1 ≤ n := by exact_mod_cast not_le.mp hless
    have hnext : roundHalfEven num den + 1 = n := by
      exact_mod_cast le_antisymm hless (by linarith)
    have hhalf : |(roundHalfEven num den : ℚ) - num / den| = 1 / 2 := by
      refine le_antisymm hnear ?_
      rw [abs_sub_comm]
      exact le_trans (by linarith) (le_abs_self _)
    have heven := htie hhalf
    omega

/-- And what is half a unit above it is rounded down. -/
theorem roundHalfEven_le_iff {num den n : Nat} (hden : 0 < den) (heven : n % 2 = 0) :
    roundHalfEven num den ≤ n ↔ (num : ℚ) / den ≤ n + 1 / 2 := by
  obtain ⟨hnear, htie⟩ := abs_roundHalfEven_sub num hden
  obtain ⟨hbelow, habove⟩ := abs_le.mp hnear
  constructor
  · intro hle
    have hle : (roundHalfEven num den : ℚ) ≤ n := Nat.cast_le.mpr hle
    linarith
  · intro hle
    by_contra hmore
    have hmore : (n : ℚ) + 1 ≤ roundHalfEven num den := by exact_mod_cast not_le.mp hmore
    have hnext : roundHalfEven num den = n + 1 := by
      exact_mod_cast le_antisymm (by linarith) hmore
    have hhalf : |(roundHalfEven num den : ℚ) - num / den| = 1 / 2 :=
      le_antisymm hnear (le_trans (by linarith) (le_abs_self _))
    have heven := htie hhalf
    omega

/-! ## The unit of a ratio -/

/-- How often the least unit is doubled for a ratio. -/
def doublings (num den : Nat) : Nat := (num * unitsOfOne / den).log2 - 52

/-- How many of these units a ratio is rounded to. -/
def rounded (num den : Nat) : Nat :=
  roundHalfEven (num * unitsOfOne) (den <<< doublings num den)

/-- The magnitude that these units make up, as if there were no largest one. -/
def nearest (num den : Nat) : Nat := doublings num den * block + rounded num den

theorem roundMagnitude_eq (num den : Nat) :
    roundMagnitude num den = min infinite (nearest num den) := rfl

theorem nearest_mod_two (num den : Nat) : nearest num den % 2 = rounded num den % 2 := by
  unfold nearest block
  omega

variable {num den : Nat}

/-- A ratio, counted in these units. -/
def counted (num den : Nat) : ℚ :=
  (num * unitsOfOne : ℕ) / (den <<< doublings num den : ℕ)

theorem den_shiftLeft_pos (hden : 0 < den) (count : Nat) : 0 < den <<< count := by
  rw [Nat.shiftLeft_eq]
  exact Nat.mul_pos hden (Nat.two_pow_pos count)

theorem counted_lt (num : Nat) (hden : 0 < den) : counted num den < 2 * block := by
  have hfloor : num * unitsOfOne / den < 2 * block * 2 ^ doublings num den := by
    calc num * unitsOfOne / den
        < 2 ^ ((num * unitsOfOne / den).log2 + 1) := Nat.lt_log2_self
      _ ≤ 2 ^ (53 + doublings num den) := by
          refine Nat.pow_le_pow_right two_pos ?_
          unfold doublings
          omega
      _ = 2 * block * 2 ^ doublings num den := by
          rw [Nat.pow_add, show 2 ^ 53 = 2 * block from rfl]
  have hless : num * unitsOfOne < 2 * block * (den <<< doublings num den) := by
    rw [Nat.div_lt_iff_lt_mul hden] at hfloor
    rw [Nat.shiftLeft_eq, Nat.mul_left_comm, Nat.mul_comm den]
    exact hfloor
  rw [counted, div_lt_iff₀ (Nat.cast_pos.mpr (den_shiftLeft_pos hden _))]
  exact_mod_cast hless

theorem le_counted (num : Nat) (hden : 0 < den) :
    doublings num den = 0 ∨ (block : ℚ) ≤ counted num den := by
  rcases Nat.eq_zero_or_pos (doublings num den) with hzero | hpos
  · exact .inl hzero
  · right
    have hlog : (num * unitsOfOne / den).log2 = 52 + doublings num den := by
      unfold doublings at hpos ⊢
      omega
    have hne : num * unitsOfOne / den ≠ 0 := by
      intro hzero
      rw [hzero, Nat.log2_zero] at hlog
      omega
    have hfloor : block * 2 ^ doublings num den ≤ num * unitsOfOne / den := by
      calc block * 2 ^ doublings num den
          = 2 ^ (num * unitsOfOne / den).log2 := by
            rw [hlog, Nat.pow_add, show 2 ^ 52 = block from rfl]
        _ ≤ num * unitsOfOne / den := Nat.log2_self_le hne
    have hle : block * (den <<< doublings num den) ≤ num * unitsOfOne := by
      rw [Nat.le_div_iff_mul_le hden] at hfloor
      rw [Nat.shiftLeft_eq, Nat.mul_left_comm, Nat.mul_comm den]
      exact hfloor
    rw [counted, le_div_iff₀ (Nat.cast_pos.mpr (den_shiftLeft_pos hden _))]
    exact_mod_cast hle

theorem rounded_le (num : Nat) (hden : 0 < den) : rounded num den ≤ 2 * block := by
  have hnear : |(rounded num den : ℚ) - counted num den| ≤ 1 / 2 :=
    (abs_roundHalfEven_sub _ (den_shiftLeft_pos hden _)).1
  have hless := counted_lt num hden
  have hbound : (rounded num den : ℚ) < (2 * block + 1 : ℕ) := by
    push_cast
    linarith [(abs_le.mp hnear).2]
  exact Nat.lt_succ_iff.mp (Nat.cast_lt.mp hbound)

theorem le_rounded (num : Nat) (hden : 0 < den) :
    doublings num den = 0 ∨ block ≤ rounded num den := by
  refine (le_counted num hden).imp_right fun hle => ?_
  have hnear : |(rounded num den : ℚ) - counted num den| ≤ 1 / 2 :=
    (abs_roundHalfEven_sub _ (den_shiftLeft_pos hden _)).1
  have hbound : (block : ℚ) < (rounded num den + 1 : ℕ) := by
    push_cast
    linarith [(abs_le.mp hnear).1]
  exact Nat.lt_succ_iff.mp (Nat.cast_lt.mp hbound)

/-- The unit of a ratio as a number. -/
def unit (num den : Nat) : ℚ := 2 ^ doublings num den / unitsOfOne

theorem unit_pos : 0 < unit num den :=
  div_pos (by positivity) (Nat.cast_pos.mpr unitsOfOne_pos)

theorem ratio_eq (hden : 0 < den) : (num : ℚ) / den = counted num den * unit num den := by
  have hden : (den : ℚ) ≠ 0 := Nat.cast_ne_zero.mpr hden.ne'
  have hone : (unitsOfOne : ℚ) ≠ 0 := Nat.cast_ne_zero.mpr unitsOfOne_pos.ne'
  rw [counted, unit, cast_shiftLeft, Nat.cast_mul]
  field_simp

theorem magnitudeValue_nearest (hden : 0 < den) :
    magnitudeValue (nearest num den) = rounded num den * unit num den := by
  rw [magnitudeValue_eq, nearest, units_eq (rounded_le num hden) (le_rounded num hden),
    cast_shiftLeft, unit, mul_div_assoc]

/-- Every magnitude is a multiple of the unit of a ratio, or is below the block of
the ratio. -/
theorem exists_multiple_or_lt (num : Nat) (hden : 0 < den) (magnitude : Nat) :
    (∃ n : Nat, magnitudeValue magnitude = n * unit num den) ∨
      (block : ℚ) ≤ counted num den ∧ magnitudeValue magnitude < block * unit num den := by
  have hone : (0 : ℚ) < unitsOfOne := Nat.cast_pos.mpr unitsOfOne_pos
  rw [magnitudeValue_eq, units, cast_shiftLeft, unit]
  rcases Nat.lt_or_ge (scale magnitude) (doublings num den) with hscale | hscale
  · right
    refine ⟨(le_counted num hden).resolve_left (by omega), ?_⟩
    have hsignificand : (significand magnitude : ℚ) < 2 * block := by
      exact_mod_cast (significand_bounds magnitude).1
    calc (significand magnitude * 2 ^ scale magnitude / unitsOfOne : ℚ)
        < 2 * block * 2 ^ scale magnitude / unitsOfOne :=
          div_lt_div_of_pos_right (mul_lt_mul_of_pos_right hsignificand (by positivity)) hone
      _ = block * (2 ^ (scale magnitude + 1) / unitsOfOne) := by
          rw [pow_succ]
          ring
      _ ≤ block * (2 ^ doublings num den / unitsOfOne) :=
          mul_le_mul_of_nonneg_left
            (div_le_div_of_nonneg_right (pow_le_pow_right₀ one_le_two hscale) hone.le)
            (Nat.cast_nonneg block)
  · left
    refine ⟨significand magnitude <<< (scale magnitude - doublings num den), ?_⟩
    rw [cast_shiftLeft, mul_assoc, ← mul_div_assoc, ← pow_add, Nat.sub_add_cancel hscale,
      mul_div_assoc]

/-! ## Nearest magnitudes -/

theorem abs_mul_unit_sub (hden : 0 < den) (count : ℚ) :
    |count * unit num den - num / den| = |count - counted num den| * unit num den := by
  rw [ratio_eq hden, ← sub_mul, abs_mul, abs_of_pos unit_pos]

/-- No finite magnitude is nearer to a ratio than the one it is rounded to, and if
another value is as near, the one rounded to is even. -/
theorem abs_magnitudeValue_sub_le (num : Nat) (hden : 0 < den) (magnitude : Nat) :
    |magnitudeValue (nearest num den) - num / den| ≤ |magnitudeValue magnitude - num / den| ∧
      (|magnitudeValue (nearest num den) - num / den| = |magnitudeValue magnitude - num / den| →
        magnitudeValue magnitude ≠ magnitudeValue (nearest num den) →
        nearest num den % 2 = 0) := by
  have hshift := den_shiftLeft_pos hden (doublings num den)
  rw [magnitudeValue_nearest hden, abs_mul_unit_sub hden]
  rcases exists_multiple_or_lt num hden magnitude with ⟨n, hvalue⟩ | ⟨hblock, hless⟩
  · rw [hvalue, abs_mul_unit_sub hden]
    refine ⟨mul_le_mul_of_nonneg_right (abs_roundHalfEven_sub_le _ hshift n) unit_pos.le, ?_⟩
    intro htie hne
    rw [nearest_mod_two]
    refine even_roundHalfEven hshift (n := n) ?_ (mul_right_cancel₀ unit_pos.ne' htie)
    rintro rfl
    exact hne rfl
  · -- below the block the first magnitude of the block is nearer
    have hgap : |(rounded num den : ℚ) - counted num den| * unit num den <
        |magnitudeValue magnitude - num / den| := by
      calc |(rounded num den : ℚ) - counted num den| * unit num den
          ≤ |(block : ℚ) - counted num den| * unit num den :=
            mul_le_mul_of_nonneg_right (abs_roundHalfEven_sub_le _ hshift block) unit_pos.le
        _ = num / den - block * unit num den := by
            rw [abs_sub_comm, abs_of_nonneg (sub_nonneg.mpr hblock), sub_mul, ratio_eq hden]
        _ < num / den - magnitudeValue magnitude := sub_lt_sub_left hless _
        _ ≤ |magnitudeValue magnitude - num / den| := by
            rw [abs_sub_comm]
            exact le_abs_self _
    exact ⟨hgap.le, fun htie => absurd htie hgap.ne⟩

/-! ## Overflow and underflow -/

theorem infinite_le_iff (hden : 0 < den) :
    infinite ≤ nearest num den ↔
      (2 * block - 1 / 2) * 2 ^ 2045 ≤ counted num den * 2 ^ doublings num den := by
  rw [nearest]
  have hhalf : (0 : ℚ) < 2 * block - 1 / 2 := by norm_num [block]
  have hblock : (1 : ℚ) ≤ block := by norm_num [block]
  rcases Nat.lt_trichotomy (doublings num den) 2045 with hless | hsame | hmore
  · have hupper := rounded_le num hden
    have hcount : counted num den * 2 ^ doublings num den < (2 * block - 1 / 2) * 2 ^ 2045 := by
      calc counted num den * 2 ^ doublings num den
          < 2 * block * 2 ^ doublings num den :=
            mul_lt_mul_of_pos_right (counted_lt num hden) (by positivity)
        _ ≤ 2 * block * 2 ^ 2044 :=
            mul_le_mul_of_nonneg_left
              (pow_le_pow_right₀ one_le_two (Nat.le_of_lt_succ hless)) (by linarith)
        _ = block * 2 ^ 2045 := by
            rw [pow_succ' (2 : ℚ) 2044, mul_left_comm, mul_assoc]
        _ < (2 * block - 1 / 2) * 2 ^ 2045 :=
            mul_lt_mul_of_pos_right (by linarith) (by positivity)
    refine iff_of_false (not_le.mpr ?_) (not_le.mpr hcount)
    unfold infinite block at *
    omega
  · have hround : 2 * block ≤ rounded num den ↔ (2 * block : ℚ) - 1 / 2 ≤ counted num den := by
      exact_mod_cast le_roundHalfEven_iff (den_shiftLeft_pos hden _) (by decide)
    rw [hsame, mul_le_mul_iff_left₀ (by positivity), ← hround]
    unfold infinite block
    omega
  · have hlower := (le_rounded num hden).resolve_left (by omega)
    have hcounted : (block : ℚ) ≤ counted num den := (le_counted num hden).resolve_left (by omega)
    have hcount : (2 * block - 1 / 2) * 2 ^ 2045 ≤ counted num den * 2 ^ doublings num den := by
      calc ((2 * block - 1 / 2) * 2 ^ 2045 : ℚ)
          ≤ 2 * block * 2 ^ 2045 :=
            mul_le_mul_of_nonneg_right (by linarith) (by positivity)
        _ = block * 2 ^ 2046 := by
            rw [pow_succ' (2 : ℚ) 2045, mul_left_comm, mul_assoc]
        _ ≤ counted num den * 2 ^ doublings num den :=
            mul_le_mul hcounted (pow_le_pow_right₀ one_le_two hmore) (by positivity) (by linarith)
    refine iff_of_true ?_ hcount
    unfold infinite block at *
    omega

theorem nearest_eq_zero_iff (hden : 0 < den) :
    nearest num den = 0 ↔ counted num den * 2 ^ doublings num den ≤ 1 / 2 := by
  rw [nearest]
  rcases Nat.eq_zero_or_pos (doublings num den) with hzero | hpos
  · have hround : rounded num den ≤ 0 ↔ counted num den ≤ (0 : ℕ) + 1 / 2 :=
      roundHalfEven_le_iff (den_shiftLeft_pos hden _) rfl
    rw [Nat.cast_zero, zero_add] at hround
    rw [hzero, pow_zero, mul_one, ← hround]
    omega
  · have hblock : (1 : ℚ) ≤ block := by norm_num [block]
    have hcounted : (block : ℚ) ≤ counted num den := (le_counted num hden).resolve_left (by omega)
    have hcount : (1 : ℚ) ≤ counted num den * 2 ^ doublings num den :=
      one_le_mul_of_one_le_of_one_le (hblock.trans hcounted) (one_le_pow₀ one_le_two)
    refine iff_of_false ?_ (not_le.mpr (by linarith))
    unfold block
    omega

theorem overflow_iff (hden : 0 < den) :
    infinite ≤ nearest num den ↔ (2 : ℚ) ^ 1024 - 2 ^ 970 ≤ num / den := by
  have hone : (0 : ℚ) < unitsOfOne := Nat.cast_pos.mpr unitsOfOne_pos
  have htop : (2 : ℚ) ^ 1024 = 2 ^ 54 * 2 ^ 970 := by rw [← pow_add]
  have hcount : (2 : ℚ) ^ 2045 = 2 * 2 ^ 970 * 2 ^ 1074 := by rw [← pow_succ', ← pow_add]
  have hblock : (block : ℚ) = 2 ^ 52 := by norm_num [block]
  have hthreshold : ((2 : ℚ) ^ 1024 - 2 ^ 970) * unitsOfOne = (2 * block - 1 / 2) * 2 ^ 2045 := by
    rw [cast_unitsOfOne, htop, hcount, hblock]
    generalize (2 : ℚ) ^ 970 = low
    generalize (2 : ℚ) ^ 1074 = one
    ring
  rw [infinite_le_iff hden, ratio_eq hden, unit, ← mul_div_assoc, le_div_iff₀ hone, hthreshold]

theorem underflow_iff (hden : 0 < den) :
    nearest num den = 0 ↔ (num : ℚ) / den ≤ 2 ^ (-1075 : ℤ) := by
  have hone : (0 : ℚ) < unitsOfOne := Nat.cast_pos.mpr unitsOfOne_pos
  have hthreshold : (2 : ℚ) ^ (-1075 : ℤ) * unitsOfOne = 1 / 2 := by
    rw [cast_unitsOfOne, ← zpow_natCast, ← zpow_add₀ two_ne_zero, one_div, ← zpow_neg_one]
    rfl
  rw [nearest_eq_zero_iff hden, ratio_eq hden, unit, ← mul_div_assoc, div_le_iff₀ hone, hthreshold]

/-! ## Correct rounding -/

theorem magnitudeValue_nonneg (magnitude : Nat) : 0 ≤ magnitudeValue magnitude := by
  rw [magnitudeValue_eq]
  positivity

theorem magnitudeValue_zero : magnitudeValue 0 = 0 := by
  have hunits : units 0 = 0 := by decide
  rw [magnitudeValue_eq, hunits, Nat.cast_zero, zero_div]

/-- On the other side of zero a number is no nearer to a ratio. -/
theorem abs_magnitudeValue_sub_le_abs_value_sub {ratio : ℚ} (hratio : 0 ≤ ratio) (y : Binary64) :
    |magnitudeValue y.magnitude - ratio| ≤ |y.value - ratio| := by
  have hvalue := magnitudeValue_nonneg y.magnitude
  unfold value
  split
  · rw [abs_sub_comm (-_), sub_neg_eq_add, abs_of_nonneg (add_nonneg hratio hvalue), abs_le]
    constructor <;> linarith
  · exact le_rfl

/-- The nearest magnitude is nearest among all finite numbers. -/
theorem abs_magnitudeValue_sub_le_of_finite (hden : 0 < den) (y : Binary64) :
    |magnitudeValue (nearest num den) - num / den| ≤ |y.value - num / den| :=
  (abs_magnitudeValue_sub_le num hden y.magnitude).1.trans
    (abs_magnitudeValue_sub_le_abs_value_sub (by positivity) y)

theorem even_of_abs_sub_eq (hden : 0 < den) {y : Binary64}
    (htie : |magnitudeValue (nearest num den) - num / den| = |y.value - num / den|)
    (hne : y.value ≠ magnitudeValue (nearest num den)) : nearest num den % 2 = 0 := by
  obtain ⟨hnear, heven⟩ := abs_magnitudeValue_sub_le num hden y.magnitude
  have hratio : (0 : ℚ) ≤ num / den := by positivity
  have hside := abs_magnitudeValue_sub_le_abs_value_sub hratio y
  have hsame := le_antisymm hnear (hside.trans htie.ge)
  refine heven hsame fun hvalue => hne ?_
  -- the other number can only be the negative of the one rounded to, and then both are zero
  have hzero := (abs_magnitudeValue_sub_le num hden 0).1
  rw [magnitudeValue_zero, zero_sub, abs_neg, abs_of_nonneg hratio, htie] at hzero
  rw [← hvalue]
  have hpositive := magnitudeValue_nonneg y.magnitude
  unfold value at hzero ⊢
  split at hzero
  · next hnegative =>
      rw [abs_sub_comm, sub_neg_eq_add, abs_of_nonneg (add_nonneg hratio hpositive)] at hzero
      rw [if_pos hnegative]
      linarith
  · next hnegative => rw [if_neg hnegative]

theorem isRounding_of_magnitude_eq {x : Binary64} (hden : 0 < den)
    (hnegative : x.negative = false) (hmagnitude : x.magnitude = roundMagnitude num den) :
    x.IsRounding (num / den) := by
  rw [roundMagnitude_eq] at hmagnitude
  have hfinite (hfinite : x.isFinite = true) : x.magnitude = nearest num den := by
    have hless := of_decide_eq_true hfinite
    omega
  have hvalue (hfinite' : x.isFinite = true) :
      x.value = magnitudeValue (nearest num den) := by
    rw [value, hnegative, if_neg Bool.false_ne_true, hfinite hfinite']
  have hinfinite : 0 < infinite := by decide
  constructor
  · rw [isNaN, decide_eq_false_iff_not]
    omega
  · exact hnegative
  · intro hfinite y _
    rw [hvalue hfinite]
    exact abs_magnitudeValue_sub_le_of_finite hden y
  · intro hfinite' y _ htie hne
    rw [hvalue hfinite'] at htie hne
    rw [hfinite hfinite']
    exact even_of_abs_sub_eq hden htie hne
  · rw [← overflow_iff hden]
    omega
  · rw [← underflow_iff hden]
    omega

theorem isRounding_ofRatio (num : Nat) {den : Nat} (hden : 0 < den) :
    (ofRatio false num den).IsRounding (num / den) :=
  isRounding_of_magnitude_eq hden rfl rfl

end LoxTokens.Binary64
