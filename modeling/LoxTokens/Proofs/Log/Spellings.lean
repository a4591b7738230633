import LoxTokens.Log.Level
import LoxTokens.Proofs.Lexicon.Beginnings

/-!
# Levels in other letters

A level may be named in letters of either case, or given by its number.  Making all
letters capitals changes no digit and makes none, so that it does not change what number
a text writes, or whether it writes one.
-/

namespace LoxTokens.Log.Level

/-- A letter becomes a capital, and every other character stays what it is. -/
theorem toUpper_cases (c : Char) :
    c.toUpper = c ∨ 'a' ≤ c ∧ c ≤ 'z' ∧ 'A' ≤ c.toUpper ∧ c.toUpper ≤ 'Z' := by
  delta Char.toUpper
  split
  · next hlower =>
      obtain ⟨hfirst, hlast⟩ := hlower
      have hlow : 97 ≤ c.val.toNat := UInt32.le_iff_toNat_le.mp hfirst
      have hhigh : c.val.toNat ≤ 122 := UInt32.le_iff_toNat_le.mp hlast
      have hcapital : (c.val + ('A'.val - 'a'.val)).toNat = c.val.toNat - 32 := by
        have hgap : ('A'.val - 'a'.val).toNat = 4294967264 := rfl
        rw [UInt32.toNat_add, hgap]
        omega
      refine .inr ⟨hfirst, hlast, ?_, ?_⟩
      · apply UInt32.le_iff_toNat_le.mpr
        rw [hcapital]
        show 65 ≤ _
        omega
      · apply UInt32.le_iff_toNat_le.mpr
        rw [hcapital]
        show _ ≤ 90
        omega
  · exact .inl rfl

/-- Only digits become digits. -/
theorem isDigit_toUpper (c : Char) : c.toUpper.isDigit = c.isDigit := by
  rcases toUpper_cases c with hsame | ⟨hlow, hhigh, hlow', hhigh'⟩
  · rw [hsame]
  · have hnot : c.isDigit = false := by
      rw [Bool.eq_false_iff, ne_eq, Start.isDigit_iff]
      rintro ⟨-, hdigit⟩
      exact absurd (Char.le_trans hlow hdigit) (by decide)
    have hnot' : c.toUpper.isDigit = false := by
      rw [Bool.eq_false_iff, ne_eq, Start.isDigit_iff]
      rintro ⟨-, hdigit⟩
      exact absurd (Char.le_trans hlow' hdigit) (by decide)
    rw [hnot, hnot']

theorem toUpper_eq_self_of_isDigit {c : Char} (hdigit : c.isDigit = true) : c.toUpper = c := by
  rcases toUpper_cases c with hsame | ⟨hlow, -, -, -⟩
  · exact hsame
  · obtain ⟨-, hhigh⟩ := Start.isDigit_iff.mp hdigit
    exact absurd (Char.le_trans hlow hhigh) (by decide)

theorem toUpper_eq_plus_iff (c : Char) : c.toUpper = '+' ↔ c = '+' := by
  rcases toUpper_cases c with hsame | ⟨hlow, -, hlow', -⟩
  · rw [hsame]
  · constructor
    · intro hplus
      rw [hplus] at hlow'
      exact absurd hlow' (by decide)
    · rintro rfl
      exact absurd hlow (by decide)

theorem head?_map_toUpper (text : List Char) :
    (text.map Char.toUpper).head? = some '+' ↔ text.head? = some '+' := by
  cases text with
  | nil => rfl
  | cons c text =>
      rw [List.map_cons, List.head?_cons, List.head?_cons, Option.some.injEq, Option.some.injEq]
      exact toUpper_eq_plus_iff c

/-- The letters of a text have no part in the number that it writes. -/
theorem number?_map_toUpper (text : List Char) :
    number? (text.map Char.toUpper) = number? text := by
  have hdigits : (if (text.map Char.toUpper).head? = some '+' then (text.map Char.toUpper).tail
      else text.map Char.toUpper) =
      (if text.head? = some '+' then text.tail else text).map Char.toUpper := by
    simp only [head?_map_toUpper]
    split
    · exact List.map_tail.symm
    · rfl
  unfold number?
  rw [hdigits]
  generalize (if text.head? = some '+' then text.tail else text) = digits
  have hall : (digits.map Char.toUpper).all Char.isDigit = digits.all Char.isDigit := by
    rw [List.all_map]
    congr 1
    funext c
    exact isDigit_toUpper c
  dsimp only
  rw [List.isEmpty_map, hall]
  by_cases hdigits : digits.all Char.isDigit = true
  · have hsame : digits.map Char.toUpper = digits := by
      refine (List.map_congr_left fun c hc => ?_).trans (List.map_id digits)
      exact toUpper_eq_self_of_isDigit (List.all_eq_true.mp hdigits c hc)
    rw [hsame]
  · rw [Bool.eq_false_iff.mpr hdigits, Bool.and_false]
    rfl

/-- A level may be named in letters of either case. -/
theorem ofText?_eq_of_map_toUpper_eq {text text' : List Char}
    (hcase : text.map Char.toUpper = text'.map Char.toUpper) : ofText? text = ofText? text' := by
  have hnumber : number? text = number? text' := by
    rw [← number?_map_toUpper, hcase, number?_map_toUpper]
  rw [ofText?, ofText?, hnumber, ofName?, ofName?, hcase]

/-- Or by its number. -/
theorem ofText?_toDigits_rank (level : Level) :
    ofText? (Nat.toDigits 10 level.rank) = some level := by
  cases level <;> rfl

end LoxTokens.Log.Level
