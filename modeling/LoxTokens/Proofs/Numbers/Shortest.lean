import LoxTokens.Proofs.Numbers.Rounding

/-!
# Numbers read back

The decimal that is chosen for a finite number rounds to this number: every
grid is asked for a neighbour that does, and on the last grid the number itself
is a point.  Laid out in either form the decimal keeps its value, so that the
numeral of a number is read as this number, its sign included.
-/

namespace LoxTokens

open Binary64

namespace Decimal

/-- A hit on a grid rounds to the magnitude that was asked for. -/
theorem magnitude_of_onGrid?_eq_some {tie : Tie} {magnitude : Nat} {exponent : Int} {hit : Decimal}
    (hhit : onGrid? tie magnitude exponent = some hit) : hit.magnitude = magnitude := by
  unfold onGrid? at hhit
  extract_lets at hhit
  have hreads := List.find?_some hhit
  exact eq_of_beq hreads

/-- Powers of ten are whole multiples of powers of two. -/
theorem exists_tenTo_eq (n : Nat) : ∃ factor, 0 < factor ∧ tenTo n = factor * 1 <<< n := by
  refine ⟨Nat.pow 5 n, Nat.pow_pos (by decide), ?_⟩
  rw [Nat.one_shiftLeft]
  exact Nat.mul_pow 5 2 n

/-- The number itself, as a point of the finest grid. -/
theorem roundMagnitude_finest {magnitude : Nat} (hfinite : magnitude < infinite) :
    roundMagnitude (units magnitude * tenTo 1074 / unitsOfOne) (tenTo 1074) = magnitude := by
  have hten : ∃ factor, 0 < factor ∧ tenTo 1074 = factor * unitsOfOne := exists_tenTo_eq 1074
  obtain ⟨factor, hfactor, hten⟩ := hten
  rw [hten]
  have hdigits :
      units magnitude * (factor * unitsOfOne) / unitsOfOne = factor * units magnitude := by
    rw [← Nat.mul_assoc, Nat.mul_div_cancel _ unitsOfOne_pos, Nat.mul_comm]
  rw [hdigits, roundMagnitude_mul _ _ hfactor, roundMagnitude_units hfinite]

/-- Whatever the grid on which the search begins, what it finds rounds to the
magnitude. -/
theorem magnitude_firstHit (tie : Tie) {magnitude : Nat} (hfinite : magnitude < infinite)
    (fuel : Nat) : (firstHit tie magnitude fuel).magnitude = magnitude := by
  induction fuel with
  | zero =>
      rw [firstHit, Decimal.magnitude, show (-1074 : Int).toNat = 0 from rfl,
        show (- -1074 : Int).toNat = 1074 from rfl, show tenTo 0 = 1 from rfl, Nat.mul_one]
      exact roundMagnitude_finest hfinite
  | succ fuel ih =>
      rw [firstHit]
      cases hhit : onGrid? tie magnitude (fuel + 1 - 1074) with
      | some hit => exact magnitude_of_onGrid?_eq_some hhit
      | none => exact ih

theorem magnitude_shortest (tie : Tie) {magnitude : Nat} (hfinite : magnitude < infinite) :
    (shortest tie magnitude).magnitude = magnitude :=
  magnitude_firstHit tie hfinite _

theorem length_pos (d : Decimal) : 0 < d.length :=
  Nat.length_toDigits_pos

end Decimal

/-! ## Layouts -/

theorem Binary64.eq_of_magnitude_eq {x y : Binary64} (hnegative : x.negative = y.negative)
    (hmagnitude : x.magnitude = y.magnitude) : x = y := by
  obtain ⟨_, _, _⟩ := x
  obtain ⟨_, _, _⟩ := y
  cases hnegative
  cases hmagnitude
  rfl

theorem Numeral.negative_toBinary64 (x : Numeral) : x.toBinary64.negative = x.negative := rfl

/-- A numeral is read as the decimal whose value it has. -/
theorem Numeral.magnitude_eq_of_mul_eq {x : Numeral} {d : Decimal}
    (hvalue : x.coefficient * tenTo x.scale.toNat * tenTo (-d.exponent).toNat =
      d.digits * tenTo d.exponent.toNat * tenTo (-x.scale).toNat) :
    x.toBinary64.magnitude = d.magnitude :=
  roundMagnitude_eq_of_mul_eq (tenTo_pos _) (tenTo_pos _) hvalue

namespace NumberLayout

/-- A decimal keeps its value when it is written without an exponent. -/
theorem magnitude_positional (layout : NumberLayout) (negative : Bool) (d : Decimal) :
    (layout.positional negative d).toBinary64.magnitude = d.magnitude := by
  have hplaces : (-d.exponent).toNat ≤ max layout.leastPlaces (-d.exponent).toNat :=
    Nat.le_max_right ..
  apply Numeral.magnitude_eq_of_mul_eq
  unfold positional Numeral.scale
  generalize max layout.leastPlaces (-d.exponent).toNat = places at hplaces ⊢
  simp only [Option.getD_none]
  rw [Nat.mul_assoc, Nat.mul_assoc, Nat.mul_assoc, ← tenTo_add, ← tenTo_add, ← tenTo_add]
  congr 2
  omega

theorem scale_scientific (negative : Bool) (d : Decimal) :
    (scientific negative d).scale = d.exponent := by
  have hlength := d.length_pos
  unfold scientific Numeral.scale Decimal.leading
  simp only [Option.getD_some]
  omega

/-- And so it does with one. -/
theorem magnitude_scientific (negative : Bool) (d : Decimal) :
    (scientific negative d).toBinary64.magnitude = d.magnitude := by
  apply Numeral.magnitude_eq_of_mul_eq
  rw [scale_scientific, scientific]

/-- **The numeral of a finite number is read as this number.** -/
theorem toBinary64_numeral (layout : NumberLayout) {x : Binary64} (hfinite : x.isFinite = true) :
    (layout.numeral x).toBinary64 = x := by
  have hshortest := Decimal.magnitude_shortest layout.tie (of_decide_eq_true hfinite)
  unfold numeral
  generalize Decimal.shortest layout.tie x.magnitude = d at hshortest ⊢
  by_cases hzero : x.magnitude = 0
  · rw [if_pos hzero]
    apply Binary64.eq_of_magnitude_eq
    · exact Numeral.negative_toBinary64 _
    · rw [hzero, Numeral.toBinary64, ofRatio, Nat.zero_mul]
      exact roundMagnitude_zero (tenTo_pos _)
  · rw [if_neg hzero]
    simp only
    split
    · apply Binary64.eq_of_magnitude_eq
      · exact Numeral.negative_toBinary64 _
      · rw [magnitude_positional, hshortest]
    · apply Binary64.eq_of_magnitude_eq
      · exact Numeral.negative_toBinary64 _
      · rw [magnitude_scientific, hshortest]

end NumberLayout

end LoxTokens
