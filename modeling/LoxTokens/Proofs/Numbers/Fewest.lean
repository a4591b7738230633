import LoxTokens.Proofs.Numbers.Grids

/-!
# Fewest digits

The first hit of the search, coarsest grid first, is a decimal of fewest digits for its
number, and no other one of as many digits is nearer.

Both rest on one thing.  If a decimal on a coarser grid rounds to the number, then the first
hit has one digit only (`digits_le_one_of_coarser`); and wherever a finer grid has a hit of no
more digits, there is a power of ten between that hit and the first one
(`isRounding_power`), which is a decimal on a coarser grid or has itself a single
digit.  So only with single digits a finer grid could have a nearer hit, and then the units of
the number are so few that there is just one power of ten to look at (`abs_power_sub_le`).
-/

namespace LoxTokens

open Binary64 Lexicon

/-- A decimal of at most so many digits, zeros at either end not counted. -/
def HasDigits (count : ℕ) (ratio : ℚ) : Prop :=
  ∃ (digits : ℕ) (exponent : ℤ), digits < 10 ^ count ∧ ratio = digits * 10 ^ exponent

/-- A decimal of so many digits that rounds to a number, where none of fewer digits does, and
none of as many digits that does is nearer to the number. -/
structure Binary64.IsShortest (x : Binary64) (count : ℕ) (ratio : ℚ) : Prop where
  isRounding : x.IsRounding ratio
  hasDigits : HasDigits count ratio
  count_le {other : ℚ} {count' : ℕ} : x.IsRounding other → HasDigits count' other → count ≤ count'
  abs_sub_le {other : ℚ} : x.IsRounding other → HasDigits count other →
    |ratio - x.value| ≤ |other - x.value|

/-! ## Powers of ten -/

theorem lt_pow_length_toDigits (n : ℕ) : n < 10 ^ (Nat.toDigits 10 n).length :=
  (Nat.length_toDigits_le_iff (by decide) Nat.length_toDigits_pos).mp le_rfl

theorem pow_length_toDigits_le {n : ℕ} (hpos : 0 < n) :
    10 ^ ((Nat.toDigits 10 n).length - 1) ≤ n := by
  have hlength : 0 < (Nat.toDigits 10 n).length := Nat.length_toDigits_pos
  rcases Nat.eq_or_lt_of_le hlength with hone | hmore
  · rw [← hone]
    exact hpos
  · by_contra hless
    have hshort := (Nat.length_toDigits_le_iff (b := 10) (by decide) (by omega)).mpr
      (not_le.mp hless)
    omega

/-- A multiple of a power of ten is one of every lower power too. -/
theorem exists_mul_ten_zpow_eq (n : ℕ) {exponent exponent' : ℤ} (hle : exponent' ≤ exponent) :
    ∃ n' : ℕ, (n * 10 ^ exponent : ℚ) = n' * 10 ^ exponent' := by
  refine ⟨n * 10 ^ (exponent - exponent').toNat, ?_⟩
  have hten : (10 : ℚ) ≠ 0 := by norm_num
  have hgap : (((exponent - exponent').toNat : ℕ) : ℤ) = exponent - exponent' :=
    Int.toNat_of_nonneg (by omega)
  rw [Nat.cast_mul, Nat.cast_pow, Nat.cast_ofNat, ← zpow_natCast, hgap, mul_assoc,
    ← zpow_add₀ hten, sub_add_cancel]

theorem ten_zpow_le {exponent exponent' : ℤ} (hle : exponent ≤ exponent') :
    (10 : ℚ) ^ exponent ≤ 10 ^ exponent' :=
  zpow_le_zpow_right₀ (by norm_num) hle

/-- The least number above zero is a little less than half of a power of ten. -/
theorem least_bounds :
    (475 / 1000 * 10 ^ (-323 : ℤ) : ℚ) ≤ 1 / unitsOfOne ∧
      (1 / unitsOfOne : ℚ) ≤ 1 / 2 * 10 ^ (-323 : ℤ) := by
  have hlow : 475 * 2 ^ 1074 ≤ 1000 * 10 ^ 323 := by decide +kernel
  have hhigh : 2 * 10 ^ 323 ≤ 2 ^ 1074 := by decide +kernel
  have hlow : (475 * 2 ^ 1074 : ℚ) ≤ 1000 * 10 ^ 323 := by exact_mod_cast hlow
  have hhigh : (2 * 10 ^ 323 : ℚ) ≤ 2 ^ 1074 := by exact_mod_cast hhigh
  have hpower : (10 : ℚ) ^ (-323 : ℤ) = (10 ^ 323)⁻¹ := zpow_neg _ _
  have htwo : (0 : ℚ) < 2 ^ 1074 := by positivity
  have hten : (0 : ℚ) < 10 ^ 323 := by positivity
  rw [cast_unitsOfOne, hpower, ← div_eq_mul_inv, ← div_eq_mul_inv]
  generalize (2 : ℚ) ^ 1074 = two at *
  generalize (10 : ℚ) ^ 323 = ten at *
  constructor
  · rw [div_le_div_iff₀ hten htwo]
    linarith
  · rw [div_le_div_iff₀ htwo hten]
    linarith

namespace Decimal

variable {x : Binary64} {top : ℤ} {d : Decimal}

/-- The power of ten at which the search begins is at least the number. -/
theorem le_ten_zpow_topExponent (magnitude : Nat) :
    magnitudeValue magnitude ≤ 10 ^ topExponent magnitude := by
  have hone : (0 : ℚ) < unitsOfOne := Nat.cast_pos.mpr unitsOfOne_pos
  rw [magnitudeValue_eq]
  unfold topExponent
  dsimp only
  split
  · have hless := (Nat.div_lt_iff_lt_mul unitsOfOne_pos).mp
      (lt_pow_length_toDigits (units magnitude / unitsOfOne))
    rw [zpow_natCast, div_le_iff₀ hone]
    exact_mod_cast hless.le
  · next hsmall =>
      rcases Nat.eq_zero_or_pos (units magnitude) with hzero | hpos
      · rw [hzero, Nat.cast_zero, zero_div]
        exact (ten_zpow_pos _).le
      · have hquotient : 0 < unitsOfOne / units magnitude :=
          Nat.div_pos (Nat.le_of_lt (not_le.mp hsmall)) hpos
        have hpower := Nat.mul_le_mul_right (units magnitude) (pow_length_toDigits_le hquotient)
        have hlength : 0 < (Nat.toDigits 10 (unitsOfOne / units magnitude)).length :=
          Nat.length_toDigits_pos
        generalize (Nat.toDigits 10 (unitsOfOne / units magnitude)).length = length at *
        have hle : 10 ^ (length - 1) * units magnitude ≤ unitsOfOne :=
          hpower.trans (Nat.div_mul_le_self _ _)
        have hexponent : (1 - length : ℤ) = -((length - 1 : ℕ) : ℤ) := by omega
        rw [hexponent, zpow_neg, zpow_natCast, ← one_div, div_le_div_iff₀ hone (by positivity),
          one_mul, mul_comm]
        exact_mod_cast hle

/-! ## The number of digits -/

namespace IsFirstHit

theorem digits_pos (hd : IsFirstHit x top d) (hx : x.IsPositive) : 0 < d.digits := by
  have hvalue := hd.isRounding.pos hx.magnitude_ne_zero
  rw [value] at hvalue
  exact Nat.cast_pos.mp (pos_of_mul_pos_left hvalue (ten_zpow_pos _).le)

theorem ten_zpow_le_value (hd : IsFirstHit x top d) (hx : x.IsPositive) :
    (10 : ℚ) ^ (d.exponent + (d.length - 1 : ℕ)) ≤ d.value := by
  have hten : (10 : ℚ) ≠ 0 := by norm_num
  rw [zpow_add₀ hten, zpow_natCast, mul_comm, value]
  refine mul_le_mul_of_nonneg_right ?_ (ten_zpow_pos _).le
  exact_mod_cast pow_length_toDigits_le (hd.digits_pos hx)

/-- If there is a hit on a coarser grid, the first one has only one digit, which is one. -/
theorem digits_le_one_of_coarser (hd : IsFirstHit x top d) (hx : x.IsPositive)
    (htop : x.value ≤ 10 ^ top) {n : ℕ} {exponent : ℤ} (hcoarser : d.exponent < exponent)
    (hround : x.IsRounding (n * 10 ^ exponent)) : d.digits ≤ 1 := by
  rcases Int.lt_or_eq_of_le hd.exponent_le with hless | hlast
  · -- the next grid is searched before, without a hit
    obtain ⟨n', hmultiple⟩ := exists_mul_ten_zpow_eq n (show d.exponent + 1 ≤ exponent by omega)
    rw [hmultiple] at hround
    exact absurd hround (hd.not_coarser (by omega) (by omega) n')
  · have hn : 0 < n :=
      Nat.cast_pos.mp (pos_of_mul_pos_left (hround.pos hx.magnitude_ne_zero) (ten_zpow_pos _).le)
    have hbeyond : (1 : ℕ) * (10 : ℚ) ^ d.exponent ≤ n * 10 ^ exponent :=
      mul_le_mul (Nat.cast_le.mpr hn) (ten_zpow_le hcoarser.le) (ten_zpow_pos _).le
        (Nat.cast_nonneg n)
    rw [← hlast, ← one_mul ((10 : ℚ) ^ d.exponent), ← Nat.cast_one] at htop
    have hpower := hx.isRounding.of_between hround htop hbeyond
    have hnear := hd.abs_sub_le 1 hpower
    rw [abs_of_nonneg (sub_nonneg.mpr htop)] at hnear
    have hvalue : d.value ≤ (1 : ℕ) * (10 : ℚ) ^ d.exponent := by
      linarith [le_abs_self (d.value - x.value)]
    exact Nat.cast_le.mp (le_of_mul_le_mul_right hvalue (ten_zpow_pos _))

/-- Between a hit of few digits on a finer grid and the first hit there is a power of ten. -/
theorem isRounding_power (hd : IsFirstHit x top d) (hx : x.IsPositive) {digits count : ℕ}
    {exponent : ℤ} (hdigits : digits < 10 ^ count) (hround : x.IsRounding (digits * 10 ^ exponent))
    (hless : count + exponent < d.length + d.exponent) :
    x.IsRounding (10 ^ (d.exponent + (d.length - 1 : ℕ))) := by
  refine hround.of_between hd.isRounding ?_ (hd.ten_zpow_le_value hx)
  have hten : (10 : ℚ) ≠ 0 := by norm_num
  have hlength := d.length_pos
  calc (digits * 10 ^ exponent : ℚ)
      ≤ 10 ^ count * 10 ^ exponent :=
        mul_le_mul_of_nonneg_right (by exact_mod_cast hdigits.le) (ten_zpow_pos _).le
    _ = 10 ^ (count + exponent) := by rw [zpow_add₀ hten, zpow_natCast]
    _ ≤ 10 ^ (d.exponent + (d.length - 1 : ℕ)) := ten_zpow_le (by omega)

/-- If the first hit has more than one digit, no decimal with as many digits or fewer lies
on a coarser grid or is less than the power of ten below the first hit. -/
theorem exponent_le_and_le (hd : IsFirstHit x top d) (hx : x.IsPositive)
    (htop : x.value ≤ 10 ^ top) (hlength : 1 < d.length) {digits count : ℕ} {exponent : ℤ}
    (hdigits : digits < 10 ^ count) (hround : x.IsRounding (digits * 10 ^ exponent)) :
    exponent ≤ d.exponent ∧ d.length + d.exponent ≤ count + exponent := by
  have hmore : 10 ≤ d.digits :=
    calc 10 ≤ 10 ^ (d.length - 1) := Nat.le_self_pow (by omega) 10
      _ ≤ d.digits := pow_length_toDigits_le (hd.digits_pos hx)
  have hnone {n : ℕ} {exponent : ℤ} (hcoarser : d.exponent < exponent)
      (hround : x.IsRounding (n * 10 ^ exponent)) : False := by
    have hone := hd.digits_le_one_of_coarser hx htop hcoarser hround
    omega
  constructor
  · by_contra hcoarser
    exact hnone (by omega) hround
  · by_contra hless
    have hpower := hd.isRounding_power hx hdigits hround (by omega)
    rw [← one_mul ((10 : ℚ) ^ _), ← Nat.cast_one] at hpower
    exact hnone (by omega) hpower

theorem length_le (hd : IsFirstHit x top d) (hx : x.IsPositive) (htop : x.value ≤ 10 ^ top)
    {digits count : ℕ} {exponent : ℤ} (hdigits : digits < 10 ^ count)
    (hround : x.IsRounding (digits * 10 ^ exponent)) : d.length ≤ count := by
  have hcount : 0 < count := by
    have hpos : 0 < digits :=
      Nat.cast_pos.mp (pos_of_mul_pos_left (hround.pos hx.magnitude_ne_zero) (ten_zpow_pos _).le)
    by_contra hzero
    rw [Nat.eq_zero_of_not_pos hzero] at hdigits
    omega
  rcases Nat.lt_or_ge 1 d.length with hlength | hlength
  · obtain ⟨hexponent, hcount⟩ := hd.exponent_le_and_le hx htop hlength hdigits hround
    omega
  · exact hlength.trans hcount

end IsFirstHit

/-! ## The nearest decimal -/

/-- Where a power of ten above a number rounds to it, and so does a ratio that is less by a
tenth, the number is only a few of the least ones. -/
theorem exists_value_eq_mul (hx : x.IsPositive) {exponent : ℤ} {ratio : ℚ}
    (hpower : x.IsRounding (10 ^ exponent)) (hround : x.IsRounding ratio)
    (hle : ratio ≤ 9 / 10 * 10 ^ exponent) (habove : x.value < 10 ^ exponent) :
    ∃ n : ℕ, 0 < n ∧ n < 10 ∧ x.value = n * (1 / unitsOfOne) ∧
      (10 : ℚ) ^ exponent ≤ (n + 1 / 2) * (1 / unitsOfOne) := by
  have hhigh := hpower.le_add_half hx.isFinite
  have hlow := hround.sub_half_le hx.isFinite hx.magnitude_ne_zero
  have hpos := hx.isRounding.pos hx.magnitude_ne_zero
  have hvalue : x.value = significand x.magnitude * spacing x.magnitude := by
    rw [hx.value_eq, magnitudeValue_eq_significand_mul]
  -- the ratio and the power are no more than one unit apart, so that there are few units
  have hwidth : x.value < (10 : ℕ) * spacing x.magnitude := by
    push_cast
    linarith
  rw [hvalue] at hwidth
  have hfew := Nat.cast_lt.mp (lt_of_mul_lt_mul_right hwidth (spacing_pos _).le)
  have hscale : scale x.magnitude = 0 := by
    apply (significand_bounds x.magnitude).2.resolve_right
    intro hblock
    unfold block at hblock
    omega
  have hspacing : spacing x.magnitude = 1 / unitsOfOne := by
    rw [spacing, hscale, pow_zero]
  rw [hvalue] at hpos
  have hone := Nat.cast_pos.mp (pos_of_mul_pos_left hpos (spacing_pos _).le)
  refine ⟨significand x.magnitude, hone, hfew, by rw [hvalue, hspacing], ?_⟩
  rw [hvalue, hspacing] at hhigh
  linarith

/-- Of a few of the least ones, only two are less than a power of ten by half of one at most. -/
theorem eq_two_of_power_near {n : ℕ} {exponent : ℤ} (hpos : 0 < n) (hfew : n < 10)
    (hlow : n * (1 / unitsOfOne : ℚ) < 10 ^ exponent)
    (hhigh : (10 : ℚ) ^ exponent ≤ (n + 1 / 2) * (1 / unitsOfOne)) :
    n = 2 ∧ exponent = -323 := by
  obtain ⟨hleast, hleast'⟩ := least_bounds
  generalize (1 / unitsOfOne : ℚ) = least at *
  have hten := ten_zpow_pos (-323)
  have hbefore : (10 : ℚ) ^ (-324 : ℤ) = 10 ^ (-323 : ℤ) / 10 := zpow_sub_one₀ (by norm_num) (-323)
  have hafter : (10 : ℚ) ^ (-322 : ℤ) = 10 ^ (-323 : ℤ) * 10 := zpow_add_one₀ (by norm_num) (-323)
  have hpos : (1 : ℚ) ≤ n := by exact_mod_cast hpos
  have hfew : (n : ℚ) ≤ 9 := by exact_mod_cast Nat.le_of_lt_succ hfew
  have hexponent : exponent = -323 := by
    have hmore : (10 : ℚ) ^ (-324 : ℤ) < 10 ^ exponent := by
      rw [hbefore]
      nlinarith
    have hless : (10 : ℚ) ^ exponent < 10 ^ (-322 : ℤ) := by
      rw [hafter]
      nlinarith
    have hmore := (zpow_lt_zpow_iff_right₀ (by norm_num)).mp hmore
    have hless := (zpow_lt_zpow_iff_right₀ (by norm_num)).mp hless
    omega
  rw [hexponent] at hlow hhigh
  have hupper : (n : ℚ) < (3 : ℕ) := by
    push_cast
    nlinarith
  have hlower : ((1 : ℕ) : ℚ) < n := by
    push_cast
    nlinarith
  have hupper := Nat.cast_lt.mp hupper
  have hlower := Nat.cast_lt.mp hlower
  exact ⟨by omega, hexponent⟩

/-- If a power of ten rounds to a number, and so does a ratio that is less by a tenth, the
power is the nearer one. -/
theorem abs_power_sub_le (hx : x.IsPositive) {exponent : ℤ} {ratio : ℚ}
    (hpower : x.IsRounding (10 ^ exponent)) (hround : x.IsRounding ratio)
    (hle : ratio ≤ 9 / 10 * 10 ^ exponent) :
    |10 ^ exponent - x.value| ≤ |ratio - x.value| := by
  have hten := ten_zpow_pos exponent
  rcases le_or_gt (10 ^ exponent) x.value with hside | hside
  · rw [abs_sub_comm, abs_of_nonneg (sub_nonneg.mpr hside), abs_sub_comm]
    exact le_trans (by linarith) (le_abs_self _)
  · obtain ⟨n, hpos, hfew, hvalue, hhigh⟩ := exists_value_eq_mul hx hpower hround hle hside
    obtain ⟨rfl, rfl⟩ := eq_two_of_power_near hpos hfew (hvalue ▸ hside) hhigh
    rw [Nat.cast_ofNat] at hvalue
    obtain ⟨hleast, -⟩ := least_bounds
    rw [abs_of_pos (sub_pos.mpr hside), abs_sub_comm]
    exact le_trans (by linarith) (le_abs_self _)

namespace IsFirstHit

theorem abs_sub_le_of_digits_lt (hd : IsFirstHit x top d) (hx : x.IsPositive)
    (htop : x.value ≤ 10 ^ top) {digits : ℕ} {exponent : ℤ} (hdigits : digits < 10 ^ d.length)
    (hround : x.IsRounding (digits * 10 ^ exponent)) :
    |d.value - x.value| ≤ |digits * 10 ^ exponent - x.value| := by
  rcases Int.lt_or_le exponent d.exponent with hfiner | hcoarser
  · -- on a finer grid there are hits of as many digits only if there is one digit
    have hlength : d.length = 1 := by
      by_contra hmore
      have hlength := d.length_pos
      obtain ⟨-, hbound⟩ := hd.exponent_le_and_le hx htop (by omega) hdigits hround
      omega
    have hpower := hd.isRounding_power hx hdigits hround (by omega)
    rw [hlength, Nat.sub_self, Nat.cast_zero, add_zero] at hpower
    have hnear := hd.abs_sub_le 1
    rw [Nat.cast_one, one_mul] at hnear
    refine (hnear hpower).trans (abs_power_sub_le hx hpower hround ?_)
    rw [hlength, pow_one] at hdigits
    have hbefore : (10 : ℚ) ^ (d.exponent - 1) = 10 ^ d.exponent / 10 :=
      zpow_sub_one₀ (by norm_num) _
    calc (digits * 10 ^ exponent : ℚ)
        ≤ 9 * 10 ^ (d.exponent - 1) :=
          mul_le_mul (by exact_mod_cast Nat.le_of_lt_succ hdigits) (ten_zpow_le (by omega))
            (ten_zpow_pos _).le (by norm_num)
      _ = 9 / 10 * 10 ^ d.exponent := by
          rw [hbefore]
          ring
  · obtain ⟨n, hmultiple⟩ := exists_mul_ten_zpow_eq digits hcoarser
    rw [hmultiple] at hround ⊢
    exact hd.abs_sub_le n hround

/-- **The first hit is a shortest decimal.** -/
theorem isShortest (hd : IsFirstHit x top d) (hx : x.IsPositive) (htop : x.value ≤ 10 ^ top) :
    x.IsShortest d.length d.value where
  isRounding := hd.isRounding
  hasDigits := ⟨d.digits, d.exponent, lt_pow_length_toDigits _, rfl⟩
  count_le := by
    rintro _ count hround ⟨digits, exponent, hdigits, rfl⟩
    exact hd.length_le hx htop hdigits hround
  abs_sub_le := by
    rintro _ hround ⟨digits, exponent, hdigits, rfl⟩
    exact hd.abs_sub_le_of_digits_lt hx htop hdigits hround

/-- Its last digit is not zero. -/
theorem digits_mod_ten_ne_zero (hd : IsFirstHit x top d) (hx : x.IsPositive)
    (htop : x.value ≤ 10 ^ top) : d.digits % 10 ≠ 0 := by
  intro hzero
  obtain ⟨n, hn⟩ := Nat.dvd_of_mod_eq_zero hzero
  have hvalue : d.value = n * 10 ^ (d.exponent + 1) := by
    rw [value, hn, Nat.cast_mul, Nat.cast_ofNat, zpow_add_one₀ (by norm_num)]
    ring
  have hone := hd.digits_le_one_of_coarser hx htop (lt_add_one d.exponent) (hvalue ▸ hd.isRounding)
  have hpos := hd.digits_pos hx
  omega

end IsFirstHit

/-! ## The search -/

theorem isFirstHit_shortest (tie : Tie) (hx : x.IsPositive) :
    ∃ top, x.value ≤ 10 ^ top ∧ IsFirstHit x top (shortest tie x.magnitude) := by
  refine ⟨_, ?_, isFirstHit_firstHit tie hx _⟩
  rw [hx.value_eq]
  exact (le_ten_zpow_topExponent x.magnitude).trans (ten_zpow_le (by omega))

theorem isShortest_shortest (tie : Tie) (hx : x.IsPositive) :
    x.IsShortest (shortest tie x.magnitude).length (shortest tie x.magnitude).value := by
  obtain ⟨top, htop, hfirst⟩ := isFirstHit_shortest tie hx
  exact hfirst.isShortest hx htop

theorem shortest_away_even (hx : x.IsPositive) :
    shortest .away x.magnitude = shortest .even x.magnitude ∨
      IsTie x (shortest .away x.magnitude) (shortest .even x.magnitude) :=
  firstHit_away_even hx _

end Decimal

end LoxTokens
