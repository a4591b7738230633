import LoxTokens.Proofs.Numbers.Nearest

/-!
# The ratios that round to a number

A ratio rounds to one magnitude only, and the ratios that round to the same number are an
interval: being no further from one value than from another one is a half-line of ratios
(`abs_sub_le_abs_sub_iff`), and all that makes up a correct rounding is of this kind.  The
interval reaches half the way to the neighbours of the number.
-/

namespace LoxTokens.Binary64

/-! ## The order of magnitudes -/

/-- How far the next magnitude is. -/
def spacing (magnitude : Nat) : ℚ := 2 ^ scale magnitude / unitsOfOne

theorem spacing_pos (magnitude : Nat) : 0 < spacing magnitude :=
  div_pos (by positivity) (Nat.cast_pos.mpr unitsOfOne_pos)

theorem spacing_mono : Monotone spacing := by
  intro magnitude magnitude' hle
  have hscale : scale magnitude ≤ scale magnitude' :=
    Nat.sub_le_sub_right (Nat.div_le_div_right hle) 1
  exact div_le_div_of_nonneg_right (pow_le_pow_right₀ one_le_two hscale) (Nat.cast_nonneg _)

theorem magnitudeValue_eq_significand_mul (magnitude : Nat) :
    magnitudeValue magnitude = significand magnitude * spacing magnitude := by
  rw [magnitudeValue_eq, units, cast_shiftLeft, spacing, mul_div_assoc]

theorem magnitudeValue_succ (magnitude : Nat) :
    magnitudeValue (magnitude + 1) = magnitudeValue magnitude + spacing magnitude := by
  obtain ⟨hupper, hlower⟩ := significand_bounds magnitude
  have hsucc : magnitude + 1 = scale magnitude * block + (significand magnitude + 1) := by
    rw [← Nat.add_assoc, scale_mul_block_add_significand]
  have hunits : units (magnitude + 1) = (significand magnitude + 1) <<< scale magnitude := by
    rw [hsucc, units_eq hupper (hlower.imp_right Nat.le_succ_of_le)]
  rw [magnitudeValue_eq, hunits, cast_shiftLeft, Nat.cast_add_one,
    magnitudeValue_eq_significand_mul, spacing]
  ring

theorem magnitudeValue_strictMono : StrictMono magnitudeValue := by
  apply strictMono_nat_of_lt_succ
  intro magnitude
  rw [magnitudeValue_succ]
  exact lt_add_of_pos_right _ (spacing_pos magnitude)

/-- Half the way from the largest finite magnitude on, a ratio is too large. -/
theorem largest_add_half :
    magnitudeValue (infinite - 1) + spacing (infinite - 1) / 2 = 2 ^ 1024 - 2 ^ 970 := by
  have hscale : scale (infinite - 1) = 2045 := by decide
  have hsignificand : significand (infinite - 1) = 2 * block - 1 := by decide
  have hcast : ((2 * block - 1 : ℕ) : ℚ) = 2 ^ 53 - 1 := by norm_num [block]
  have htop : (2 : ℚ) ^ 1024 = 2 ^ 54 * 2 ^ 970 := by rw [← pow_add]
  have hspacing : (2 : ℚ) ^ 2045 = 2 * 2 ^ 970 * 2 ^ 1074 := by rw [← pow_succ', ← pow_add]
  have hone : (2 : ℚ) ^ 1074 ≠ 0 := by positivity
  rw [magnitudeValue_eq_significand_mul, spacing, hscale, hsignificand, hcast, cast_unitsOfOne,
    htop, hspacing, mul_div_cancel_right₀ _ hone]
  generalize (2 : ℚ) ^ 970 = low
  ring

/-! ## Distances -/

/-- Being no further from one value than from another one is a half-line of ratios. -/
theorem abs_sub_le_abs_sub_iff (first second ratio : ℚ) :
    |first - ratio| ≤ |second - ratio| ↔
      (second - first) * (2 * ratio - (first + second)) ≤ 0 := by
  rw [← sq_le_sq, ← sub_nonpos]
  have hgap : (first - ratio) ^ 2 - (second - ratio) ^ 2 =
      (second - first) * (2 * ratio - (first + second)) := by ring
  rw [hgap]

theorem abs_sub_eq_abs_sub_iff (first second ratio : ℚ) :
    |first - ratio| = |second - ratio| ↔
      (second - first) * (2 * ratio - (first + second)) = 0 := by
  rw [le_antisymm_iff, abs_sub_le_abs_sub_iff, abs_sub_le_abs_sub_iff, le_antisymm_iff]
  have hturned : (first - second) * (2 * ratio - (second + first)) =
      -((second - first) * (2 * ratio - (first + second))) := by ring
  rw [hturned, neg_nonpos]

/-! ## Roundings -/

section

variable {x y : Binary64} {ratio low high : ℚ}

theorem value_of_not_negative (hnegative : x.negative = false) :
    x.value = magnitudeValue x.magnitude := by
  rw [value, hnegative, if_neg Bool.false_ne_true]

theorem isRounding_value (hnegative : x.negative = false) (hfinite : x.isFinite = true) :
    x.IsRounding x.value := by
  rw [value_of_not_negative hnegative, magnitudeValue_eq]
  exact isRounding_of_magnitude_eq unitsOfOne_pos hnegative
    (roundMagnitude_units (of_decide_eq_true hfinite)).symm

theorem IsRounding.magnitude_le (hx : x.IsRounding ratio) : x.magnitude ≤ infinite :=
  not_lt.mp (of_decide_eq_false hx.not_nan)

theorem IsRounding.value_eq (hx : x.IsRounding ratio) : x.value = magnitudeValue x.magnitude :=
  value_of_not_negative hx.not_negative

theorem IsRounding.pos (hx : x.IsRounding ratio) (hmagnitude : x.magnitude ≠ 0) : 0 < ratio := by
  have hmore := not_le.mp (mt hx.zero_iff.mpr hmagnitude)
  exact lt_trans (by positivity) hmore

theorem IsRounding.not_magnitude_lt (hx : x.IsRounding ratio) (hy : y.IsRounding ratio) :
    ¬x.magnitude < y.magnitude := by
  intro hless
  have hxfinite : x.magnitude < infinite := hless.trans_le hy.magnitude_le
  have hyfinite : y.magnitude < infinite := by
    apply lt_of_le_of_ne hy.magnitude_le
    intro hinfinite
    exact hxfinite.ne (hx.infinite_iff.mpr (hy.infinite_iff.mp hinfinite))
  have hvalue : x.value < y.value := by
    rw [hx.value_eq, hy.value_eq]
    exact magnitudeValue_strictMono hless
  have hxy := hx.abs_value_sub_le (decide_eq_true hxfinite) y (decide_eq_true hyfinite)
  have hyx := hy.abs_value_sub_le (decide_eq_true hyfinite) x (decide_eq_true hxfinite)
  have hsame := le_antisymm hxy hyx
  -- both are even, so that a magnitude lies between them, and it is nearer than they are
  have hxeven := hx.even_of_eq (decide_eq_true hxfinite) y (decide_eq_true hyfinite) hsame
    hvalue.ne'
  have hyeven := hy.even_of_eq (decide_eq_true hyfinite) x (decide_eq_true hxfinite) hsame.symm
    hvalue.ne
  have hbound : x.magnitude + 1 < signBit :=
    (Nat.succ_le_of_lt hxfinite).trans_lt (by decide)
  let between : Binary64 := ⟨false, x.magnitude + 1, hbound⟩
  have hbetween : between.isFinite = true :=
    decide_eq_true (show x.magnitude + 1 < infinite by omega)
  have hlow : x.value < between.value := by
    rw [hx.value_eq, value_of_not_negative rfl]
    exact magnitudeValue_strictMono (Nat.lt_succ_self _)
  have hhigh : between.value < y.value := by
    rw [hy.value_eq, value_of_not_negative rfl]
    exact magnitudeValue_strictMono (show x.magnitude + 1 < y.magnitude by omega)
  have hxnear := hx.abs_value_sub_le (decide_eq_true hxfinite) between hbetween
  have hynear := hy.abs_value_sub_le (decide_eq_true hyfinite) between hbetween
  rw [abs_sub_le_abs_sub_iff] at hxnear hynear
  rw [abs_sub_eq_abs_sub_iff] at hsame
  have hmiddle := (mul_eq_zero.mp hsame).resolve_left (sub_pos.mpr hvalue).ne'
  nlinarith

/-- A ratio rounds to one magnitude only. -/
theorem IsRounding.magnitude_eq (hx : x.IsRounding ratio) (hy : y.IsRounding ratio) :
    x.magnitude = y.magnitude :=
  le_antisymm (not_lt.mp (hy.not_magnitude_lt hx)) (not_lt.mp (hx.not_magnitude_lt hy))

/-- What lies between two ratios that round to a number rounds to it as well. -/
theorem IsRounding.of_between (hlow : x.IsRounding low) (hhigh : x.IsRounding high)
    (hle : low ≤ ratio) (hge : ratio ≤ high) : x.IsRounding ratio where
  not_nan := hlow.not_nan
  not_negative := hlow.not_negative
  abs_value_sub_le hfinite y hy := by
    have hlow := hlow.abs_value_sub_le hfinite y hy
    have hhigh := hhigh.abs_value_sub_le hfinite y hy
    rw [abs_sub_le_abs_sub_iff] at hlow hhigh ⊢
    rcases le_total x.value y.value with hside | hside
    · nlinarith
    · nlinarith
  even_of_eq hfinite y hy htie hne := by
    have hlownear := hlow.abs_value_sub_le hfinite y hy
    have hhighnear := hhigh.abs_value_sub_le hfinite y hy
    have hmiddle := htie
    rw [abs_sub_eq_abs_sub_iff] at hmiddle
    rw [abs_sub_le_abs_sub_iff] at hlownear hhighnear
    have hmiddle := (mul_eq_zero.mp hmiddle).resolve_left (sub_ne_zero.mpr hne)
    -- a ratio in the middle of two values is an end of the interval
    rcases lt_or_gt_of_ne hne with hside | hside
    · have hsame : ratio = low := by nlinarith
      exact hlow.even_of_eq hfinite y hy (hsame ▸ htie) hne
    · have hsame : ratio = high := by nlinarith
      exact hhigh.even_of_eq hfinite y hy (hsame ▸ htie) hne
  infinite_iff := by
    constructor
    · intro hinfinite
      exact (hlow.infinite_iff.mp hinfinite).trans hle
    · intro hlarge
      exact hhigh.infinite_iff.mpr (hlarge.trans hge)
  zero_iff := by
    constructor
    · intro hzero
      exact hge.trans (hhigh.zero_iff.mp hzero)
    · intro hsmall
      exact hlow.zero_iff.mpr (hle.trans hsmall)

/-- What rounds to a number is at most half the way to the next one. -/
theorem IsRounding.le_add_half (hx : x.IsRounding ratio) (hfinite : x.isFinite = true) :
    ratio ≤ x.value + spacing x.magnitude / 2 := by
  have hless : x.magnitude < infinite := of_decide_eq_true hfinite
  rcases Nat.lt_or_ge (x.magnitude + 1) infinite with hnext | hlast
  · let next : Binary64 := ⟨false, x.magnitude + 1, hnext.trans (by decide)⟩
    have hnear := hx.abs_value_sub_le hfinite next (decide_eq_true hnext)
    have hvalue : next.value = x.value + spacing x.magnitude := by
      rw [hx.value_eq, ← magnitudeValue_succ]
      rfl
    rw [abs_sub_le_abs_sub_iff, hvalue] at hnear
    nlinarith [spacing_pos x.magnitude]
  · have hlargest : x.magnitude = infinite - 1 := by omega
    have hsmall := not_le.mp (mt hx.infinite_iff.mpr hless.ne)
    rw [hx.value_eq, hlargest, largest_add_half]
    exact hsmall.le

/-- And at least half the way from the one before. -/
theorem IsRounding.sub_half_le (hx : x.IsRounding ratio) (hfinite : x.isFinite = true)
    (hmagnitude : x.magnitude ≠ 0) : x.value - spacing x.magnitude / 2 ≤ ratio := by
  have hless : x.magnitude < infinite := of_decide_eq_true hfinite
  obtain ⟨before, hbefore⟩ := Nat.exists_eq_succ_of_ne_zero hmagnitude
  have hbound : before < infinite := by omega
  let previous : Binary64 := ⟨false, before, hbound.trans (by decide)⟩
  have hnear := hx.abs_value_sub_le hfinite previous (decide_eq_true hbound)
  have hvalue : x.value = previous.value + spacing before := by
    rw [hx.value_eq, hbefore, magnitudeValue_succ]
    rfl
  have hspacing : spacing before ≤ spacing x.magnitude := by
    rw [hbefore]
    exact spacing_mono (Nat.le_succ before)
  rw [abs_sub_le_abs_sub_iff, hvalue] at hnear
  have hmiddle : previous.value + spacing before / 2 ≤ ratio := by
    nlinarith [spacing_pos before]
  linarith

end

end LoxTokens.Binary64
