import LoxTokens.Proofs.Numbers.Intervals
import LoxTokens.Proofs.Numbers.Literals
import LoxTokens.Proofs.Numbers.Shortest

/-!
# The search for the shortest decimal

Decimals of one exponent are a grid.  If any of them rounds to a number then so does one of
the two next to the number, for what rounds to it is an interval; so the search, which tries
only these two, misses no grid, and what it finds on a grid is as near as any other hit there
(`exists_onGrid?`).  `IsFirstHit` says what this comes to over all the grids.

Searches that differ in what they do with a tie stop on the same grid, and they find the
same decimal unless the number is exactly in the middle of two hits (`firstHit_away_even`).
-/

namespace LoxTokens

open Binary64 Lexicon

/-- A number above zero that is finite. -/
structure Binary64.IsPositive (x : Binary64) : Prop where
  not_negative : x.negative = false
  isFinite : x.isFinite = true
  magnitude_ne_zero : x.magnitude ≠ 0

theorem Binary64.IsPositive.isRounding {x : Binary64} (hx : x.IsPositive) :
    x.IsRounding x.value :=
  isRounding_value hx.not_negative hx.isFinite

theorem Binary64.IsPositive.value_eq {x : Binary64} (hx : x.IsPositive) :
    x.value = magnitudeValue x.magnitude :=
  value_of_not_negative hx.not_negative

theorem ten_zpow_pos (exponent : ℤ) : (0 : ℚ) < 10 ^ exponent := zpow_pos (by norm_num) exponent

theorem ten_zpow_eq (exponent : ℤ) :
    (10 : ℚ) ^ exponent = tenTo exponent.toNat / tenTo (-exponent).toNat := by
  have hten : (10 : ℚ) ≠ 0 := by norm_num
  rw [cast_tenTo, cast_tenTo, ← zpow_natCast, ← zpow_natCast, ← zpow_sub₀ hten,
    Int.toNat_sub_toNat_neg]

namespace Decimal

def value (d : Decimal) : ℚ := d.digits * 10 ^ d.exponent

theorem isRounding_value_iff {x : Binary64} (hnegative : x.negative = false) (d : Decimal) :
    x.IsRounding d.value ↔ d.magnitude = x.magnitude := by
  have hvalue : ((d.digits * tenTo d.exponent.toNat : ℕ) : ℚ) / tenTo (-d.exponent).toNat =
      d.value := by
    rw [value, ten_zpow_eq, Nat.cast_mul, mul_div_assoc]
  have hrounding := isRounding_ofRatio (d.digits * tenTo d.exponent.toNat)
    (tenTo_pos (-d.exponent).toNat)
  rw [hvalue] at hrounding
  constructor
  · intro hx
    exact hrounding.magnitude_eq hx
  · intro hmagnitude
    have hsame : x = ofRatio false (d.digits * tenTo d.exponent.toNat)
        (tenTo (-d.exponent).toNat) :=
      eq_of_magnitude_eq hnegative hmagnitude.symm
    rw [hsame]
    exact hrounding

/-! ## The neighbours of a number on a grid -/

/-- The point of a grid that is next to a number and not above it. -/
def below (magnitude : Nat) (exponent : ℤ) : Decimal where
  digits := units magnitude * tenTo (-exponent).toNat / (unitsOfOne * tenTo exponent.toNat)
  exponent := exponent

/-- The point behind that. -/
def above (magnitude : Nat) (exponent : ℤ) : Decimal where
  digits := (below magnitude exponent).digits + 1
  exponent := exponent

variable {tie : Tie} {magnitude : Nat} {exponent : ℤ}

theorem value_above (magnitude : Nat) (exponent : ℤ) :
    (above magnitude exponent).value = (below magnitude exponent).value + 10 ^ exponent := by
  rw [value, above, value, Nat.cast_add_one, add_mul, one_mul]
  rfl

theorem cast_gridRatio (magnitude : Nat) (exponent : ℤ) :
    ((units magnitude * tenTo (-exponent).toNat : ℕ) : ℚ) /
        (unitsOfOne * tenTo exponent.toNat : ℕ) =
      magnitudeValue magnitude / 10 ^ exponent := by
  have hone : (unitsOfOne : ℚ) ≠ 0 := Nat.cast_ne_zero.mpr unitsOfOne_pos.ne'
  have hten : (tenTo exponent.toNat : ℚ) ≠ 0 := Nat.cast_ne_zero.mpr (tenTo_pos _).ne'
  have hten' : (tenTo (-exponent).toNat : ℚ) ≠ 0 := Nat.cast_ne_zero.mpr (tenTo_pos _).ne'
  rw [magnitudeValue_eq, ten_zpow_eq, Nat.cast_mul, Nat.cast_mul]
  field_simp

theorem digits_below (magnitude : Nat) (exponent : ℤ) :
    (below magnitude exponent).digits = ⌊magnitudeValue magnitude / 10 ^ exponent⌋₊ := by
  rw [← cast_gridRatio, Nat.floor_div_eq_div]
  rfl

theorem value_below_le (magnitude : Nat) (exponent : ℤ) :
    (below magnitude exponent).value ≤ magnitudeValue magnitude := by
  have hratio : 0 ≤ magnitudeValue magnitude / 10 ^ exponent :=
    div_nonneg (magnitudeValue_nonneg magnitude) (ten_zpow_pos exponent).le
  rw [value, digits_below, ← le_div_iff₀ (ten_zpow_pos _)]
  exact Nat.floor_le hratio

theorem lt_value_above (magnitude : Nat) (exponent : ℤ) :
    magnitudeValue magnitude < (above magnitude exponent).value := by
  rw [value, above, Nat.cast_add_one, digits_below, ← div_lt_iff₀ (ten_zpow_pos _)]
  exact Nat.lt_floor_add_one _

/-- No other point of the grid is nearer to the number than these two. -/
theorem value_below_or_above (magnitude : Nat) (exponent : ℤ) (n : ℕ) :
    (n * 10 ^ exponent : ℚ) ≤ (below magnitude exponent).value ∨
      (above magnitude exponent).value ≤ n * 10 ^ exponent := by
  rcases Nat.lt_or_ge (below magnitude exponent).digits n with hless | hge
  · right
    exact mul_le_mul_of_nonneg_right (Nat.cast_le.mpr hless) (ten_zpow_pos exponent).le
  · left
    exact mul_le_mul_of_nonneg_right (Nat.cast_le.mpr hge) (ten_zpow_pos exponent).le

/-- The upper neighbour is preferred if it is nearer, or as near and the tie goes to it. -/
theorem upperNearer_iff (tie : Tie) (magnitude : Nat) (exponent : ℤ) :
    upperNearer tie (units magnitude * tenTo (-exponent).toNat)
        (unitsOfOne * tenTo exponent.toNat) = true ↔
      (above magnitude exponent).value - magnitudeValue magnitude <
          magnitudeValue magnitude - (below magnitude exponent).value ∨
        (above magnitude exponent).value - magnitudeValue magnitude =
            magnitudeValue magnitude - (below magnitude exponent).value ∧
          (tie = .away ∨ (below magnitude exponent).digits % 2 = 1) := by
  have hden : 0 < unitsOfOne * tenTo exponent.toNat :=
    Nat.mul_pos unitsOfOne_pos (tenTo_pos _)
  have hratio := cast_gridRatio magnitude exponent
  have hdigits : (below magnitude exponent).digits =
    units magnitude * tenTo (-exponent).toNat / (unitsOfOne * tenTo exponent.toNat) := rfl
  rw [value_above, value, hdigits, show (below magnitude exponent).exponent = exponent from rfl]
  generalize units magnitude * tenTo (-exponent).toNat = num at hratio ⊢
  generalize unitsOfOne * tenTo exponent.toNat = den at hden hratio ⊢
  have hten := ten_zpow_pos exponent
  generalize (10 : ℚ) ^ exponent = ten at hratio hten ⊢
  have hcast : (0 : ℚ) < den := Nat.cast_pos.mpr hden
  have hnum : (num : ℚ) = den * (num / den : ℕ) + (num % den : ℕ) := by
    exact_mod_cast (Nat.div_add_mod num den).symm
  have hvalue : magnitudeValue magnitude = num / den * ten := by
    rw [hratio, div_mul_cancel₀ _ hten.ne']
  -- the two distances, counted in points of the grid
  have hgap : magnitudeValue magnitude - (num / den : ℕ) * ten = (num % den : ℕ) / den * ten := by
    rw [hvalue, hnum]
    field_simp
    ring
  have hother : ((num / den : ℕ) * ten + ten) - magnitudeValue magnitude =
      (den - (num % den : ℕ)) / den * ten := by
    rw [hvalue, hnum]
    field_simp
    ring
  rw [hgap, hother, mul_lt_mul_iff_left₀ hten, div_lt_div_iff_of_pos_right hcast,
    mul_left_inj' hten.ne', div_left_inj' hcast.ne']
  have hless : (den - (num % den : ℕ) : ℚ) < (num % den : ℕ) ↔ den < 2 * (num % den) := by
    rw [sub_lt_iff_lt_add, ← two_mul]
    exact_mod_cast Iff.rfl
  have heq : (den - (num % den : ℕ) : ℚ) = (num % den : ℕ) ↔ 2 * (num % den) = den := by
    rw [sub_eq_iff_eq_add, ← two_mul, eq_comm]
    exact_mod_cast Iff.rfl
  rw [hless, heq]
  unfold upperNearer
  simp only [Bool.or_eq_true, Bool.and_eq_true, decide_eq_true_eq]

/-! ## Hits on a grid -/

/-- If the nearer one of two is tried first, what is found is as near as any hit. -/
theorem exists_find?_pair {α : Type} (isHit : α → Bool) (distance : α → ℚ) (first second hit : α)
    (hnear : distance first ≤ distance second) (hmem : hit = first ∨ hit = second)
    (hhit : isHit hit = true) :
    ∃ found, [first, second].find? isHit = some found ∧ distance found ≤ distance hit := by
  cases hfirst : isHit first with
  | true =>
      refine ⟨first, List.find?_cons_of_pos hfirst, ?_⟩
      rcases hmem with rfl | rfl
      · exact le_rfl
      · exact hnear
  | false =>
      obtain rfl : hit = second := hmem.resolve_left (by rintro rfl; simp [hfirst] at hhit)
      refine ⟨hit, ?_, le_rfl⟩
      rw [List.find?_cons_of_neg (by simp [hfirst]), List.find?_cons_of_pos hhit]

theorem onGrid?_eq (tie : Tie) (magnitude : Nat) (exponent : ℤ) :
    onGrid? tie magnitude exponent =
      (if upperNearer tie (units magnitude * tenTo (-exponent).toNat)
          (unitsOfOne * tenTo exponent.toNat) then
        [above magnitude exponent, below magnitude exponent]
      else [below magnitude exponent, above magnitude exponent]).find?
        fun d => d.magnitude == magnitude := rfl

theorem exponent_of_onGrid? {hit : Decimal} (hhit : onGrid? tie magnitude exponent = some hit) :
    hit.exponent = exponent := by
  rw [onGrid?_eq] at hhit
  have hmem := List.mem_of_find?_eq_some hhit
  split at hmem
  · rcases List.mem_pair.mp hmem with rfl | rfl <;> rfl
  · rcases List.mem_pair.mp hmem with rfl | rfl <;> rfl

section

variable {x : Binary64} (hx : x.IsPositive)
include hx

theorem isRounding_of_onGrid? {hit : Decimal}
    (hhit : onGrid? tie x.magnitude exponent = some hit) : x.IsRounding hit.value :=
  (isRounding_value_iff hx.not_negative hit).mpr (magnitude_of_onGrid?_eq_some hhit)

/-- If one of the two neighbours rounds to the number, the search finds one that is no
further away. -/
theorem exists_onGrid?_of_neighbour (tie : Tie) {neighbour : Decimal}
    (hneighbour : neighbour = below x.magnitude exponent ∨ neighbour = above x.magnitude exponent)
    (hround : x.IsRounding neighbour.value) :
    ∃ hit, onGrid? tie x.magnitude exponent = some hit ∧
      |hit.value - x.value| ≤ |neighbour.value - x.value| := by
  have hhit : (neighbour.magnitude == x.magnitude) = true :=
    beq_iff_eq.mpr ((isRounding_value_iff hx.not_negative _).mp hround)
  have hbelow : |(below x.magnitude exponent).value - x.value| =
      x.value - (below x.magnitude exponent).value := by
    rw [abs_sub_comm, hx.value_eq]
    exact abs_of_nonneg (sub_nonneg.mpr (value_below_le _ _))
  have habove : |(above x.magnitude exponent).value - x.value| =
      (above x.magnitude exponent).value - x.value := by
    rw [hx.value_eq]
    exact abs_of_pos (sub_pos.mpr (lt_value_above _ _))
  have hnearer := upperNearer_iff tie x.magnitude exponent
  rw [← hx.value_eq] at hnearer
  rw [onGrid?_eq]
  generalize below x.magnitude exponent = lower at *
  generalize above x.magnitude exponent = upper at *
  split
  · next hupper =>
      have hnear : |upper.value - x.value| ≤ |lower.value - x.value| := by
        refine (habove.trans_le ?_).trans_eq hbelow.symm
        rcases hnearer.mp hupper with hless | ⟨hsame, -⟩
        · exact hless.le
        · exact hsame.le
      exact exists_find?_pair _ (fun d : Decimal => |d.value - x.value|) upper lower neighbour
        hnear hneighbour.symm hhit
  · next hlower =>
      have hnear : |lower.value - x.value| ≤ |upper.value - x.value| := by
        refine (hbelow.trans_le ?_).trans_eq habove.symm
        exact not_lt.mp fun hless => hlower (hnearer.mpr (.inl hless))
      exact exists_find?_pair _ (fun d : Decimal => |d.value - x.value|) lower upper neighbour
        hnear hneighbour hhit

/-- If a point of a grid rounds to a number, the search finds one there that is no further
away. -/
theorem exists_onGrid? (tie : Tie) {n : ℕ} (hround : x.IsRounding (n * 10 ^ exponent)) :
    ∃ hit, onGrid? tie x.magnitude exponent = some hit ∧
      |hit.value - x.value| ≤ |n * 10 ^ exponent - x.value| := by
  have hself := hx.isRounding
  have hlow := value_below_le x.magnitude exponent
  have hhigh := lt_value_above x.magnitude exponent
  rw [← hx.value_eq] at hlow hhigh
  rcases value_below_or_above x.magnitude exponent n with hside | hside
  · obtain ⟨hit, hhit, hnear⟩ := exists_onGrid?_of_neighbour hx tie (.inl rfl)
      (hround.of_between hself hside hlow)
    refine ⟨hit, hhit, hnear.trans ?_⟩
    rw [abs_sub_comm, abs_of_nonneg (sub_nonneg.mpr hlow), abs_sub_comm]
    exact (sub_le_sub_left hside _).trans (le_abs_self _)
  · obtain ⟨hit, hhit, hnear⟩ := exists_onGrid?_of_neighbour hx tie (.inr rfl)
      (hself.of_between hround hhigh.le hside)
    refine ⟨hit, hhit, hnear.trans ?_⟩
    rw [abs_of_pos (sub_pos.mpr hhigh)]
    exact (sub_le_sub_right hside _).trans (le_abs_self _)

end

/-- Two decimals for the same number, the first further from zero and the second with an even
last digit, and the number exactly in their middle. -/
structure IsTie (x : Binary64) (first second : Decimal) : Prop where
  exponent_eq : first.exponent = second.exponent
  digits_eq : first.digits = second.digits + 1
  even : second.digits % 2 = 0
  middle : first.value - x.value = x.value - second.value

/-- The order of two matters only if both of them are hits. -/
theorem find?_pair_swap {α : Type} (isHit : α → Bool) (first second : α) :
    [first, second].find? isHit = [second, first].find? isHit ∨
      isHit first = true ∧ isHit second = true := by
  cases hfirst : isHit first with
  | true =>
      cases hsecond : isHit second with
      | true => exact .inr ⟨rfl, rfl⟩
      | false => exact .inl (by simp [hfirst, hsecond])
  | false => exact .inl (by cases hsecond : isHit second <;> simp [hfirst, hsecond])

/-- What is done with a tie decides what is found only where there is one. -/
theorem onGrid?_away_even {x : Binary64} (hx : x.IsPositive) (exponent : ℤ) :
    onGrid? .away x.magnitude exponent = onGrid? .even x.magnitude exponent ∨
      ∃ first second, onGrid? .away x.magnitude exponent = some first ∧
        onGrid? .even x.magnitude exponent = some second ∧ IsTie x first second := by
  have haway := upperNearer_iff .away x.magnitude exponent
  have heven := upperNearer_iff .even x.magnitude exponent
  rw [← hx.value_eq] at haway heven
  have hgrid : (above x.magnitude exponent).exponent = (below x.magnitude exponent).exponent := rfl
  have hnext : (above x.magnitude exponent).digits = (below x.magnitude exponent).digits + 1 := rfl
  rw [onGrid?_eq, onGrid?_eq]
  generalize below x.magnitude exponent = lower at *
  generalize above x.magnitude exponent = upper at *
  split
  · next hupper =>
      split
      · exact .inl rfl
      · next hlower =>
          rcases find?_pair_swap (fun d => d.magnitude == x.magnitude) upper lower with
            hsame | ⟨hhit, hhit'⟩
          · exact .inl hsame
          · right
            refine ⟨upper, lower, List.find?_cons_of_pos hhit, List.find?_cons_of_pos hhit', ?_⟩
            rw [heven] at hlower
            obtain ⟨hnotless, hnottie⟩ := not_or.mp hlower
            obtain ⟨hmiddle, -⟩ := (haway.mp hupper).resolve_left hnotless
            have hparity : lower.digits % 2 = 0 := by
              by_contra hodd
              exact hnottie ⟨hmiddle, .inr (by omega)⟩
            exact ⟨hgrid, hnext, hparity, hmiddle⟩
  · next hlower =>
      split
      · next hupper =>
          -- a tie that goes to the even digit and comes to the upper one goes away from zero too
          apply absurd (haway.mpr _) hlower
          apply (heven.mp hupper).imp_right
          intro htie
          exact ⟨htie.1, .inl rfl⟩
      · exact .inl rfl

/-! ## The first hit -/

/-- A decimal of a grid, where nothing on a coarser grid rounds to the number, up to the
coarsest one in question, and nothing else on its own grid is nearer. -/
structure IsFirstHit (x : Binary64) (top : ℤ) (d : Decimal) : Prop where
  isRounding : x.IsRounding d.value
  abs_sub_le (n : ℕ) : x.IsRounding (n * 10 ^ d.exponent) →
    |d.value - x.value| ≤ |n * 10 ^ d.exponent - x.value|
  exponent_le : d.exponent ≤ top
  not_coarser {exponent : ℤ} : d.exponent < exponent → exponent ≤ top →
    ∀ n : ℕ, ¬x.IsRounding (n * 10 ^ exponent)

/-- On the finest grid the number itself is a point. -/
theorem value_firstHit_zero (tie : Tie) (magnitude : Nat) :
    (firstHit tie magnitude 0).value = magnitudeValue magnitude := by
  have hten : ∃ factor, 0 < factor ∧ tenTo 1074 = factor * unitsOfOne := exists_tenTo_eq 1074
  obtain ⟨factor, -, hten⟩ := hten
  have hone : (unitsOfOne : ℚ) ≠ 0 := Nat.cast_ne_zero.mpr unitsOfOne_pos.ne'
  have hpos : (tenTo 1074 : ℚ) ≠ 0 := Nat.cast_ne_zero.mpr (tenTo_pos 1074).ne'
  have hdvd : unitsOfOne ∣ units magnitude * tenTo 1074 :=
    Dvd.dvd.mul_left (Dvd.intro_left factor hten.symm) _
  have hscale : (10 : ℚ) ^ (-1074 : ℤ) = 1 / tenTo 1074 := by
    rw [ten_zpow_eq]
    exact congrArg (· / (tenTo 1074 : ℚ)) Nat.cast_one
  rw [firstHit, value, hscale, Nat.cast_div hdvd hone, Nat.cast_mul, magnitudeValue_eq]
  field_simp

theorem isFirstHit_firstHit (tie : Tie) {x : Binary64} (hx : x.IsPositive) (fuel : Nat) :
    IsFirstHit x (fuel - 1074) (firstHit tie x.magnitude fuel) := by
  induction fuel with
  | zero =>
      have hexponent : (firstHit tie x.magnitude 0).exponent = -1074 := rfl
      constructor
      · rw [value_firstHit_zero, ← hx.value_eq]
        exact hx.isRounding
      · intro n _
        rw [value_firstHit_zero, ← hx.value_eq, sub_self, abs_zero]
        exact abs_nonneg _
      · rw [hexponent]
        exact le_rfl
      · intro exponent hmore hle
        rw [hexponent] at hmore
        exact absurd hle (by simpa using hmore)
  | succ fuel ih =>
      rw [firstHit]
      cases hgrid : onGrid? tie x.magnitude (fuel + 1 - 1074) with
      | some hit =>
          have hexponent := exponent_of_onGrid? hgrid
          constructor
          · exact isRounding_of_onGrid? hx hgrid
          · intro n hround
            obtain ⟨found, hfound, hnear⟩ := exists_onGrid? hx tie hround
            rw [Option.getD_some, hexponent, hgrid] at hfound
            cases hfound
            exact hnear
          · rw [Option.getD_some, hexponent]
            exact le_of_eq (by push_cast; rfl)
          · intro exponent hmore hle
            rw [Option.getD_some, hexponent] at hmore
            exact absurd hle (by push_cast; exact not_le.mpr hmore)
      | none =>
          refine ⟨ih.isRounding, ih.abs_sub_le, ih.exponent_le.trans (by push_cast; omega), ?_⟩
          intro exponent hmore hle n hround
          rcases Int.lt_or_le (fuel - 1074) exponent with hlast | hearlier
          · obtain rfl : exponent = fuel + 1 - 1074 := by push_cast at hle; omega
            obtain ⟨found, hfound, -⟩ := exists_onGrid? hx tie hround
            rw [hgrid] at hfound
            cases hfound
          · exact ih.not_coarser hmore hearlier n hround

/-- Two searches find the same decimal, or their decimals are the two of a tie. -/
theorem firstHit_away_even {x : Binary64} (hx : x.IsPositive) (fuel : Nat) :
    firstHit .away x.magnitude fuel = firstHit .even x.magnitude fuel ∨
      IsTie x (firstHit .away x.magnitude fuel) (firstHit .even x.magnitude fuel) := by
  induction fuel with
  | zero =>
      left
      rw [firstHit, firstHit]
  | succ fuel ih =>
      rw [firstHit, firstHit]
      rcases onGrid?_away_even hx (fuel + 1 - 1074) with hsame | ⟨first, second, haway, heven, htie⟩
      · rw [hsame]
        cases onGrid? .even x.magnitude (fuel + 1 - 1074) with
        | some hit =>
            rw [Option.getD_some, Option.getD_some]
            exact .inl rfl
        | none =>
            rw [Option.getD_none, Option.getD_none]
            exact ih
      · rw [haway, heven, Option.getD_some, Option.getD_some]
        exact .inr htie

end Decimal

end LoxTokens
