import LoxTokens.Decimal.Layout

/-!
# The text of a numeral

What stands in the text that a numeral writes: digits before the point, with no
zero in front that could be left out, as many digits behind the point as there
are places, and all of them together tell the coefficient.  So nothing of a
numeral is lost in its text.
-/

namespace LoxTokens

theorem tenTo_pos (exponent : Nat) : 0 < tenTo exponent :=
  Nat.pow_pos (by decide)

theorem tenTo_add (m n : Nat) : tenTo (m + n) = tenTo m * tenTo n :=
  Nat.pow_add 10 m n

/-- Only zero is written with a zero in front. -/
theorem eq_zero_of_head?_toDigits {n : Nat} (hhead : (Nat.toDigits 10 n).head? = some '0') :
    n = 0 := by
  induction n using Nat.strongRecOn with
  | _ n ih =>
    rw [Nat.toDigits_eq_if (by decide)] at hhead
    split at hhead
    · exact Nat.digitChar_eq_zero.mp (Option.some.inj hhead)
    · rename_i hlarge
      -- the first digit is that of a tenth of the number, which is not zero
      have hfirst : (Nat.toDigits 10 (n / 10)).head? = some '0' := by
        have hne : Nat.toDigits 10 (n / 10) ≠ [] := Nat.toDigits_ne_nil
        obtain ⟨c, digits, hdigits⟩ := List.exists_cons_of_ne_nil hne
        rwa [hdigits] at hhead ⊢
      have hzero := ih (n / 10) (by omega) hfirst
      omega

namespace Numeral

variable (x : Numeral)

theorem isDigit_of_mem_wholeDigits {x : Numeral} {c : Char} (hmem : c ∈ x.wholeDigits) :
    c.isDigit = true :=
  Nat.isDigit_of_mem_toDigits (by decide) (by decide) hmem

/-- A zero in front stands alone. -/
theorem wholeDigits_eq_zero {x : Numeral} (hhead : x.wholeDigits.head? = some '0') :
    x.wholeDigits = ['0'] := by
  unfold wholeDigits at hhead ⊢
  rw [eq_zero_of_head?_toDigits hhead]
  exact Nat.toDigits_zero 10

theorem isDigit_of_mem_fractionDigits {x : Numeral} {c : Char} (hmem : c ∈ x.fractionDigits) :
    c.isDigit = true := by
  unfold fractionDigits at hmem
  split at hmem
  · cases hmem
  · rcases List.mem_append.mp hmem with hzero | hdigit
    · rw [List.eq_of_mem_replicate hzero]
      rfl
    · exact Nat.isDigit_of_mem_toDigits (by decide) (by decide) hdigit

theorem length_fractionDigits : x.fractionDigits.length = x.places := by
  unfold fractionDigits
  split
  · rename_i hplaces
    rw [hplaces]
    rfl
  · rename_i hplaces
    have hrest : x.coefficient % tenTo x.places < tenTo x.places :=
      Nat.mod_lt _ (tenTo_pos x.places)
    have hlength := (Nat.length_toDigits_le_iff (b := 10) (by decide) (by omega)).mpr hrest
    rw [List.length_leftpad]
    omega

/-- The digits of the fraction, zeros on the left included, tell what the whole
digits leave of the coefficient. -/
theorem ofDigitChars_fractionDigits (whole : Nat) :
    Nat.ofDigitChars 10 x.fractionDigits whole =
      tenTo x.places * whole + x.coefficient % tenTo x.places := by
  have hvalue : Nat.ofDigitChars 10 x.fractionDigits 0 = x.coefficient % tenTo x.places := by
    unfold fractionDigits
    split
    · rename_i hplaces
      rw [hplaces]
      exact (Nat.mod_one _).symm
    · show Nat.ofDigitChars 10 (List.replicate _ '0' ++ Nat.toDigits 10 _) 0 = _
      rw [Nat.ofDigitChars_append, Nat.ofDigitChars_replicate_zero, Nat.mul_zero,
        Nat.ofDigitChars_ten_toDigits]
  rw [Nat.ofDigitChars_eq_ofDigitChars_zero, length_fractionDigits, hvalue]
  rfl

theorem ofDigitChars_digits :
    Nat.ofDigitChars 10 (x.wholeDigits ++ x.fractionDigits) 0 = x.coefficient := by
  rw [Nat.ofDigitChars_append, ofDigitChars_fractionDigits]
  unfold wholeDigits
  rw [Nat.ofDigitChars_ten_toDigits]
  exact Nat.div_add_mod _ _

/-- A number is written with digits, signs, a point and the mark of an
exponent. -/
theorem mem_chars {x : Numeral} {c : Char} (hmem : c ∈ x.chars) :
    c.isDigit = true ∨ c ∈ ['-', '+', '.', 'e'] := by
  unfold chars at hmem
  simp only [List.mem_append] at hmem
  rcases hmem with ((hsign | hwhole) | hfraction) | hexponent
  · split at hsign
    · exact Or.inr (List.mem_append_left _ hsign)
    · cases hsign
  · exact Or.inl (isDigit_of_mem_wholeDigits hwhole)
  · split at hfraction
    · cases hfraction
    · rcases List.mem_cons.mp hfraction with rfl | hdigit
      · exact Or.inr (by decide)
      · exact Or.inl (isDigit_of_mem_fractionDigits hdigit)
  · cases hexp : x.exponent with
    | none =>
        rw [hexp] at hexponent
        cases hexponent
    | some exponent =>
        rw [hexp] at hexponent
        rcases List.mem_cons.mp hexponent with rfl | hexponent
        · exact Or.inr (by decide)
        rcases List.mem_cons.mp hexponent with rfl | hdigit
        · split
          · exact Or.inr (by decide)
          · exact Or.inr (by decide)
        · exact Or.inl (Nat.isDigit_of_mem_toDigits (by decide) (by decide) hdigit)

end Numeral

end LoxTokens
