import LoxTokens.Log.Value
import LoxTokens.Proofs.Numbers.Nearest
import LoxTokens.Proofs.Output.Dump

/-!
# The values of number literals

A number in a source text is digits, and perhaps a point and more digits.  What
it stands for is the sum of its digits, each by its place before or behind the
point, and its token has the correct rounding of this sum for its value.  No
number is too long for that, and none is too large or too small.
-/

namespace LoxTokens

open Lexicon

/-! ## Decimal texts -/

namespace Lexicon

/-- `[0-9]+(\.[0-9]+)?`, with its digits before and behind the point. -/
inductive IsDecimal : List Char → List Char → List Char → Prop where
  | integer {whole} : IsDigits whole → IsDecimal whole whole []
  | decimal {whole fraction} : IsDigits whole → IsDigits fraction →
      IsDecimal (whole ++ '.' :: fraction) whole fraction

def digitValue (c : Char) : ℚ := (c.toNat - '0'.toNat : ℕ)

/-- The value of digits before a point: each has the weight of ten to the number
of digits behind it. -/
def wholeValue : List Char → ℚ
  | [] => 0
  | c :: digits => digitValue c * 10 ^ digits.length + wholeValue digits

/-- The value of digits behind a point. -/
def fractionValue : List Char → ℚ
  | [] => 0
  | c :: digits => (digitValue c + fractionValue digits) / 10

theorem cast_ofDigitChars (digits : List Char) :
    (Nat.ofDigitChars 10 digits 0 : ℚ) = wholeValue digits := by
  induction digits with
  | nil => rfl
  | cons c digits ih =>
      rw [Nat.ofDigitChars_cons, Nat.ofDigitChars_eq_ofDigitChars_zero, Nat.cast_add, ih,
        wholeValue, digitValue]
      push_cast
      ring

theorem fractionValue_eq (digits : List Char) :
    fractionValue digits = wholeValue digits / 10 ^ digits.length := by
  induction digits with
  | nil => simp [fractionValue, wholeValue]
  | cons c digits ih =>
      rw [fractionValue, wholeValue, ih, List.length_cons, pow_succ]
      field_simp

theorem cast_tenTo (n : Nat) : (tenTo n : ℚ) = 10 ^ n := by
  rw [tenTo, Nat.pow_eq, Nat.cast_pow, Nat.cast_ofNat]

/-- The coefficient over its power of ten is the sum of the digits. -/
theorem coefficient_div_tenTo (whole fraction : List Char) :
    ((Numeral.ofDigits whole fraction).coefficient : ℚ) / tenTo fraction.length =
      wholeValue whole + fractionValue fraction := by
  have hten : (10 : ℚ) ^ fraction.length ≠ 0 := by positivity
  have hcoefficient : ((Numeral.ofDigits whole fraction).coefficient : ℚ) =
      10 ^ fraction.length * wholeValue whole + wholeValue fraction := by
    rw [Numeral.ofDigits, Nat.ofDigitChars_append, Nat.ofDigitChars_eq_ofDigitChars_zero,
      Nat.cast_add, Nat.cast_mul, cast_ofDigitChars, cast_ofDigitChars, Nat.cast_pow,
      Nat.cast_ofNat]
  rw [hcoefficient, cast_tenTo, fractionValue_eq]
  field_simp

theorem isRounding_ofDigits (whole fraction : List Char) :
    (Numeral.ofDigits whole fraction).toBinary64.IsRounding
      (wholeValue whole + fractionValue fraction) := by
  have hscale : (Numeral.ofDigits whole fraction).scale = -fraction.length := by
    simp [Numeral.scale, Numeral.ofDigits]
  have hnegative : (Numeral.ofDigits whole fraction).negative = false := rfl
  have hone : tenTo (-(fraction.length : Int)).toNat = 1 := by
    rw [Int.toNat_of_nonpos (by omega)]
    rfl
  have hrounding := Binary64.isRounding_ofRatio (Numeral.ofDigits whole fraction).coefficient
    (tenTo_pos fraction.length)
  rw [coefficient_div_tenTo] at hrounding
  rw [Numeral.toBinary64, hnegative, hscale, hone, Nat.mul_one, neg_neg, Int.toNat_natCast]
  exact hrounding

/-! ## Texts that can be converted -/

theorem isUnsignedNumber_of_digits {text : List Char}
    (hall : ∀ c ∈ text, c.isDigit = true ∨ c = '.') (hdigit : ∃ c ∈ text, c.isDigit = true)
    (hpoint : text.count '.' ≤ 1) : Log.isUnsignedNumber text = true := by
  have hmark : ∀ c ∈ text, (decide (c ≠ 'e') && decide (c ≠ 'E')) = true := by
    intro c hc
    rcases hall c hc with hc | rfl
    · have hne : c ≠ 'e' ∧ c ≠ 'E' := by
        constructor <;> rintro rfl <;> cases hc
      simp [hne]
    · decide
  have hspan : text.span (fun c => decide (c ≠ 'e') && decide (c ≠ 'E')) = (text, []) := by
    rw [List.span_eq_takeWhile_dropWhile, List.takeWhile_eq_self_iff.mpr hmark,
      List.dropWhile_eq_nil_iff.mpr hmark]
  unfold Log.isUnsignedNumber
  simp only [hspan]
  have hany : text.any Char.isDigit = true := List.any_eq_true.mpr hdigit
  have hall : text.all (fun c => c.isDigit || decide (c = '.')) = true := by
    simpa using hall
  rw [hany, hall]
  simpa using hpoint

theorem IsDigits.isDigit {digits : List Char} (hdigits : IsDigits digits) :
    ∀ c ∈ digits, c.isDigit = true :=
  fun c hc => Start.isDigit_iff.mpr (hdigits.2 c hc)

theorem IsDigits.count_point {digits : List Char} (hdigits : IsDigits digits) :
    digits.count '.' = 0 := by
  rw [List.count_eq_zero]
  intro hmem
  cases hdigits.isDigit '.' hmem

theorem isUnsignedNumber_of_isDecimal {text whole fraction : List Char}
    (hdecimal : IsDecimal text whole fraction) : Log.isUnsignedNumber text = true := by
  cases hdecimal with
  | integer hwhole =>
      obtain ⟨c, hc⟩ := List.exists_mem_of_ne_nil _ hwhole.1
      refine isUnsignedNumber_of_digits (fun c hc => .inl (hwhole.isDigit c hc))
        ⟨c, hc, hwhole.isDigit c hc⟩ ?_
      rw [hwhole.count_point]
      exact Nat.zero_le 1
  | decimal hwhole hfraction =>
      obtain ⟨c, hc⟩ := List.exists_mem_of_ne_nil _ hwhole.1
      refine isUnsignedNumber_of_digits ?_
        ⟨c, List.mem_append_left _ hc, hwhole.isDigit c hc⟩ ?_
      · intro c hc
        rcases List.mem_append.mp hc with hc | hc
        · exact .inl (hwhole.isDigit c hc)
        · exact (List.mem_cons.mp hc).symm.imp_left (hfraction.isDigit c)
      · rw [List.count_append, List.count_cons_self, hwhole.count_point, hfraction.count_point]

theorem IsDecimal.exists_cons {text whole fraction : List Char}
    (hdecimal : IsDecimal text whole fraction) :
    ∃ first others, text = first :: others ∧ first.isDigit = true := by
  cases hdecimal with
  | integer hwhole =>
      obtain ⟨first, others, rfl⟩ := List.exists_cons_of_ne_nil hwhole.1
      exact ⟨first, others, rfl, Start.isDigit_iff.mpr (hwhole.2 first List.mem_cons_self)⟩
  | decimal hwhole hfraction =>
      obtain ⟨first, others, rfl⟩ := List.exists_cons_of_ne_nil hwhole.1
      exact ⟨first, _, rfl, Start.isDigit_iff.mpr (hwhole.2 first List.mem_cons_self)⟩

/-- What a number in a source is written with can always be converted. -/
theorem IsDecimal.isNumber {text whole fraction : List Char}
    (hdecimal : IsDecimal text whole fraction) : Log.isNumber text = true := by
  have hunsigned := isUnsignedNumber_of_isDecimal hdecimal
  obtain ⟨first, others, rfl, hfirst⟩ := hdecimal.exists_cons
  unfold Log.isNumber
  split
  · next heq =>
      cases heq
      cases hfirst
  · next heq =>
      cases heq
      cases hfirst
  · dsimp only
    rw [hunsigned, Bool.true_or]

/-! ## Tokens with a number -/

/-- The tokens with a number are those of the kind for numbers, and their lexeme is
what the number is read from. -/
theorem Spells.literal_cases {text : List Char} {kind : Token.Kind} {literal : Option Literal}
    (hspells : Spells text (.token kind literal)) :
    (∃ whole fraction, IsDecimal text whole fraction ∧ kind = .number ∧
        literal = some (.number (Numeral.ofDigits whole fraction).toBinary64)) ∨
      kind ≠ .number ∧ ∀ value, literal ≠ some (.number value) := by
  generalize hsense : Sense.token kind literal = sense at hspells
  cases hspells with
  | integer hwhole =>
      cases hsense
      exact .inl ⟨_, [], .integer hwhole, rfl, rfl⟩
  | decimal hwhole hfraction =>
      cases hsense
      exact .inl ⟨_, _, .decimal hwhole hfraction, rfl, rfl⟩
  | punctuation hmem | operator hmem | extendedOperator hmem =>
      cases hsense
      refine .inr ⟨?_, by simp⟩
      rintro rfl
      simp [Lexicon.punctuation, Lexicon.operators] at hmem
  | _ =>
      cases hsense
      all_goals exact .inr ⟨by simp, by simp⟩

end Lexicon

/-- A value that is a number equals itself. -/
theorem Literal.equals_self {literal : Literal}
    (hnumber : ∀ value, literal = .number value → value.isNaN = false) :
    literal.equals literal = true := by
  cases literal with
  | number value => simp [equals, Binary64.equals, hnumber value rfl]
  | string value => simp [equals]

theorem Token.equals_self {token : Token}
    (hnumber : ∀ value, token.literal = some (.number value) → value.isNaN = false) :
    token.equals token = true := by
  simp only [equals, decide_true, beq_self_eq_true, Bool.true_and]
  cases hliteral : token.literal with
  | none => rfl
  | some literal =>
      exact Literal.equals_self fun value hvalue => hnumber value (hvalue ▸ hliteral)

/-- A token of a scan has a number exactly if it is of the kind for numbers, and then
its lexeme is what the number is read from. -/
theorem literal_cases_of_mem_tokens {source : String} {token : Token}
    (hmem : token ∈ (scan source).tokens) :
    (∃ whole fraction, IsDecimal token.lexeme.toList whole fraction ∧ token.kind = .number ∧
        token.literal = some (.number (Numeral.ofDigits whole fraction).toBinary64)) ∨
      token.kind ≠ .number ∧ ∀ value, token.literal ≠ some (.number value) := by
  rcases isFound_of_mem_tokens hmem with ⟨rest, hread⟩ | heof
  · exact Spells.literal_cases (Token.spells_of_reads hread rfl)
  · obtain ⟨-, hsense⟩ := Piece.mk.inj heof
    obtain ⟨hkind, hliteral⟩ := Sense.token.inj hsense
    rw [hkind, hliteral]
    exact .inr ⟨by simp, by simp⟩

/-- **Numbers are decoded correctly.**  The lexeme of a token for a number is
digits, perhaps with a point and more digits, which can always be converted; and
the token has for its value the correct rounding of what the digits stand for.  So
every token of a scan equals itself. -/
theorem scan_numbers (source : String) :
    (∀ token ∈ (scan source).tokens, token.kind = .number →
      ∃ whole fraction value,
        IsDecimal token.lexeme.toList whole fraction ∧
        Log.isNumber token.lexeme.toList = true ∧
        token.literal = some (.number value) ∧
        value.IsRounding (wholeValue whole + fractionValue fraction)) ∧
    ∀ token ∈ (scan source).tokens, token.equals token = true := by
  constructor
  · intro token hmem hkind
    rcases literal_cases_of_mem_tokens hmem with
      ⟨whole, fraction, hdecimal, -, hliteral⟩ | ⟨hother, -⟩
    · exact ⟨whole, fraction, _, hdecimal, hdecimal.isNumber, hliteral,
        isRounding_ofDigits whole fraction⟩
    · exact absurd hkind hother
  · intro token hmem
    refine Token.equals_self fun value hvalue => ?_
    rcases literal_cases_of_mem_tokens hmem with
      ⟨whole, fraction, -, -, hliteral⟩ | ⟨-, hother⟩
    · rw [hliteral] at hvalue
      rw [← Literal.number.inj (Option.some.inj hvalue)]
      exact (isRounding_ofDigits whole fraction).not_nan
    · exact absurd hvalue (hother value)

/-- A tenth, which no binary number is equal to. -/
theorem scan_numbers_tenth :
    ∃ token ∈ (scan "0.1").tokens, token.kind = .number ∧
      ∃ whole fraction value,
        IsDecimal token.lexeme.toList whole fraction ∧
        Log.isNumber token.lexeme.toList = true ∧
        token.literal = some (.number value) ∧
        value.IsRounding (wholeValue whole + fractionValue fraction) := by
  have hnumber : ∃ token ∈ (scan "0.1").tokens, token.kind = .number := by decide +kernel
  obtain ⟨token, hmem, hkind⟩ := hnumber
  exact ⟨token, hmem, hkind, (scan_numbers "0.1").1 token hmem hkind⟩

end LoxTokens
