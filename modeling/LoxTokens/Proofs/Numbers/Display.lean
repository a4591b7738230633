import LoxTokens.Proofs.Json.Printing
import LoxTokens.Proofs.Numbers.Fewest
import LoxTokens.Token.Data

/-!
# Numbers shown and scanned again

A finite number is shown as a shortest decimal, sign in front, in the notation that the
scanner reads.  So the text of a number literal is scanned as one token, and it has the
same number.

The text for data is a shortest decimal too.  It is the same decimal, unless the number is
exactly in the middle of two shortest ones: people are shown the one further from zero, and
in data stands the one whose last digit is even.
-/

namespace LoxTokens

open Binary64 Lexicon

/-! ## The texts of numerals -/

/-- The last digit of a natural. -/
theorem getLast?_toDigits (n : ℕ) :
    (Nat.toDigits 10 n).getLast? = some (Nat.digitChar (n % 10)) := by
  rw [Nat.toDigits_eq_if (by decide)]
  split
  · next hsmall => rw [Nat.mod_eq_of_lt hsmall, List.getLast?_singleton]
  · rw [List.getLast?_append, List.getLast?_singleton, Option.some_or]

namespace Numeral

variable {x : Numeral}

/-- The value of a numeral, without its sign. -/
def value (x : Numeral) : ℚ := x.coefficient * 10 ^ x.scale

theorem chars_of_exponent_eq_none (hexponent : x.exponent = none) :
    x.chars = (if x.negative then ['-'] else []) ++
      (x.wholeDigits ++ if x.places = 0 then [] else '.' :: x.fractionDigits) := by
  rw [chars, hexponent, Option.map_none, Option.getD_none, List.append_nil, List.append_assoc]

theorem isDigits_wholeDigits (x : Numeral) : IsDigits x.wholeDigits :=
  ⟨Nat.toDigits_ne_nil, fun _ hmem => Start.isDigit_iff.mp (isDigit_of_mem_wholeDigits hmem)⟩

theorem isDecimal (x : Numeral) :
    IsDecimal (x.wholeDigits ++ if x.places = 0 then [] else '.' :: x.fractionDigits)
      x.wholeDigits x.fractionDigits := by
  have hlength := x.length_fractionDigits
  split
  · next hplaces =>
      rw [hplaces] at hlength
      rw [List.eq_nil_of_length_eq_zero hlength, List.append_nil]
      exact .integer x.isDigits_wholeDigits
  · next hplaces =>
      have hne : x.fractionDigits ≠ [] := by
        intro hnil
        rw [hnil] at hlength
        exact hplaces hlength.symm
      exact .decimal x.isDigits_wholeDigits ⟨hne, fun _ hmem =>
        Start.isDigit_iff.mp (isDigit_of_mem_fractionDigits hmem)⟩

theorem value_of_exponent_eq_none (hexponent : x.exponent = none) :
    x.value = wholeValue x.wholeDigits + fractionValue x.fractionDigits := by
  have hscale : x.scale = -x.places := by
    rw [scale, hexponent, Option.getD_none, zero_sub]
  have hcoefficient : (ofDigits x.wholeDigits x.fractionDigits).coefficient = x.coefficient :=
    x.ofDigitChars_digits
  rw [← coefficient_div_tenTo, hcoefficient, length_fractionDigits, cast_tenTo, value, hscale,
    zpow_neg, zpow_natCast, div_eq_mul_inv]

/-- The last digit behind the point is that of the coefficient. -/
theorem getLast?_fractionDigits_ne (hlast : x.places ≠ 0 → x.coefficient % 10 ≠ 0) :
    x.fractionDigits.getLast? ≠ some '0' := by
  unfold fractionDigits
  split
  · simp
  · next hplaces =>
      have hdvd : 10 ∣ tenTo x.places := dvd_pow_self 10 hplaces
      have hdigit : x.coefficient % tenTo x.places % 10 = x.coefficient % 10 :=
        Nat.mod_mod_of_dvd _ hdvd
      show (List.replicate _ '0' ++ Nat.toDigits 10 _).getLast? ≠ some '0'
      rw [List.getLast?_append, getLast?_toDigits, Option.some_or, hdigit]
      intro hzero
      exact hlast hplaces (Nat.digitChar_eq_zero.mp (Option.some.inj hzero))

end Numeral

/-! ## The numerals of numbers -/

namespace NumberLayout

theorem value_positional (layout : NumberLayout) (negative : Bool) (d : Decimal) :
    (layout.positional negative d).value = d.value := by
  have hten : (10 : ℚ) ≠ 0 := by norm_num
  have hplaces : (-d.exponent).toNat ≤ max layout.leastPlaces (-d.exponent).toNat :=
    Nat.le_max_right ..
  unfold positional Numeral.value Numeral.scale Decimal.value
  generalize max layout.leastPlaces (-d.exponent).toNat = places at hplaces ⊢
  dsimp only
  have hcast : ((d.exponent + places).toNat : ℤ) = d.exponent + places :=
    Int.toNat_of_nonneg (by omega)
  rw [Option.getD_none, Nat.cast_mul, cast_tenTo, ← zpow_natCast, hcast, mul_assoc,
    ← zpow_add₀ hten]
  congr 2
  omega

theorem value_scientific (negative : Bool) (d : Decimal) :
    (scientific negative d).value = d.value := by
  rw [Numeral.value, scale_scientific]
  rfl

theorem negative_numeral (layout : NumberLayout) (x : Binary64) :
    (layout.numeral x).negative = x.negative := by
  unfold numeral
  split
  · rfl
  · dsimp only
    split <;> rfl

theorem value_numeral_of_eq_zero (layout : NumberLayout) {x : Binary64}
    (hzero : x.magnitude = 0) : (layout.numeral x).value = 0 := by
  rw [numeral, if_pos hzero, Numeral.value, Nat.cast_zero, zero_mul]

theorem value_numeral_of_ne_zero (layout : NumberLayout) {x : Binary64}
    (hzero : x.magnitude ≠ 0) :
    (layout.numeral x).value = (Decimal.shortest layout.tie x.magnitude).value := by
  rw [numeral, if_neg hzero]
  dsimp only
  split
  · exact layout.value_positional _ _
  · exact value_scientific _ _

theorem exponent_plain (x : Binary64) : (plain.numeral x).exponent = none := by
  unfold numeral
  split <;> rfl

end NumberLayout

namespace Binary64

/-- A number without its sign. -/
def abs (x : Binary64) : Binary64 := { x with negative := false }

variable {x : Binary64}

theorem isPositive_abs (hfinite : x.isFinite = true) (hzero : x.magnitude ≠ 0) :
    x.abs.IsPositive :=
  ⟨rfl, hfinite, hzero⟩

/-- Zero needs no digit. -/
theorem isShortest_zero (hzero : x.magnitude = 0) : x.abs.IsShortest 0 0 := by
  have hvalue : x.abs.value = 0 := by
    rw [value_of_not_negative rfl, abs, hzero, magnitudeValue_zero]
  have hfinite : x.abs.isFinite = true := by
    rw [isFinite, abs, hzero]
    decide
  have hrounding := isRounding_value (x := x.abs) rfl hfinite
  rw [hvalue] at hrounding
  constructor
  · exact hrounding
  · exact ⟨0, 0, Nat.one_pos, by simp⟩
  · intro _ _ _ _
    exact Nat.zero_le _
  · intro _ _ _
    rw [hvalue, sub_self, abs_zero]
    exact abs_nonneg _

/-- All layouts write a shortest decimal. -/
theorem exists_isShortest_numeral (hfinite : x.isFinite = true) (layout : NumberLayout) :
    ∃ count, x.abs.IsShortest count (layout.numeral x).value := by
  by_cases hzero : x.magnitude = 0
  · rw [layout.value_numeral_of_eq_zero hzero]
    exact ⟨0, isShortest_zero hzero⟩
  · rw [layout.value_numeral_of_ne_zero hzero]
    exact ⟨_, Decimal.isShortest_shortest layout.tie (isPositive_abs hfinite hzero)⟩

/-- Two layouts write the same decimal, or the two decimals of a tie. -/
theorem value_plain_data (hfinite : x.isFinite = true) :
    (NumberLayout.plain.numeral x).value = (NumberLayout.data.numeral x).value ∨
      ∃ first second : Decimal, Decimal.IsTie x.abs first second ∧
        (NumberLayout.plain.numeral x).value = first.value ∧
        (NumberLayout.data.numeral x).value = second.value := by
  by_cases hzero : x.magnitude = 0
  · left
    rw [NumberLayout.value_numeral_of_eq_zero _ hzero,
      NumberLayout.value_numeral_of_eq_zero _ hzero]
  · rw [NumberLayout.value_numeral_of_ne_zero _ hzero,
      NumberLayout.value_numeral_of_ne_zero _ hzero]
    rcases Decimal.shortest_away_even (isPositive_abs hfinite hzero) with hsame | htie
    · exact .inl (congrArg Decimal.value hsame)
    · exact .inr ⟨_, _, htie, rfl, rfl⟩

/-- What is shown has no zero at the end of a fraction. -/
theorem coefficient_plain_mod_ten (hfinite : x.isFinite = true)
    (hplaces : (NumberLayout.plain.numeral x).places ≠ 0) :
    (NumberLayout.plain.numeral x).coefficient % 10 ≠ 0 := by
  by_cases hzero : x.magnitude = 0
  · rw [NumberLayout.numeral, if_pos hzero] at hplaces
    exact absurd rfl hplaces
  · obtain ⟨top, htop, hfirst⟩ :=
      Decimal.isFirstHit_shortest .away (isPositive_abs hfinite hzero)
    have hdigit := hfirst.digits_mod_ten_ne_zero (isPositive_abs hfinite hzero) htop
    have hnumeral : NumberLayout.plain.numeral x =
        NumberLayout.plain.positional x.negative (Decimal.shortest .away x.magnitude) := by
      rw [NumberLayout.numeral, if_neg hzero]
      rfl
    rw [hnumeral] at hplaces ⊢
    change (Decimal.shortest .away x.magnitude).digits % 10 ≠ 0 at hdigit
    generalize Decimal.shortest .away x.magnitude = d at *
    have hplaces : max 0 (-d.exponent).toNat ≠ 0 := hplaces
    have hscale : (d.exponent + (max 0 (-d.exponent).toNat : ℕ)).toNat = 0 := by omega
    show d.digits * tenTo (d.exponent + (max 0 (-d.exponent).toNat : ℕ)).toNat % 10 ≠ 0
    rw [hscale]
    exact (Nat.mul_one d.digits).symm ▸ hdigit

end Binary64

theorem Binary64.IsShortest.count_eq {x : Binary64} {count count' : ℕ} {ratio ratio' : ℚ}
    (hx : x.IsShortest count ratio) (hx' : x.IsShortest count' ratio') : count = count' :=
  le_antisymm (hx.count_le hx'.isRounding hx'.hasDigits)
    (hx'.count_le hx.isRounding hx.hasDigits)

/-! ## Scans of a single number -/

/-- A text that belongs to a language as a whole is a single piece. -/
theorem Lexicon.maximalMunch_singleton {piece : Piece} (hbelongs : Belongs piece []) :
    MaximalMunch piece.text [piece] := by
  have hlongest : IsLongest piece [] := by
    refine ⟨hbelongs, ?_⟩
    intro other behind htext _
    have hlength := congrArg List.length htext
    rw [List.append_nil, List.length_append] at hlength
    omega
  have hcut := MaximalMunch.cons hlongest .nil
  rwa [List.append_nil] at hcut

theorem Lexicon.IsDecimal.spells {text whole fraction : List Char}
    (hdecimal : IsDecimal text whole fraction) : Spells text (numberSense whole fraction) := by
  cases hdecimal with
  | integer hwhole => exact .integer hwhole
  | decimal hwhole hfraction => exact .decimal hwhole hfraction

theorem Lexicon.IsDecimal.lineFeeds_eq_zero {text whole fraction : List Char}
    (hdecimal : IsDecimal text whole fraction) : Text.lineFeeds text = 0 := by
  apply List.count_eq_zero.mpr
  intro hmem
  cases hdecimal with
  | integer hwhole => cases hwhole.isDigit _ hmem
  | decimal hwhole hfraction =>
      rcases List.mem_append.mp hmem with hmem | hmem
      · cases hwhole.isDigit _ hmem
      · cases hfraction.isDigit _ ((List.mem_cons.mp hmem).resolve_left (by decide))

/-- A decimal by itself is scanned as one token. -/
theorem scan_of_isDecimal {text whole fraction : List Char}
    (hdecimal : IsDecimal text whole fraction) :
    scan (.ofList text) =
      ⟨[⟨.number, .ofList text, some (.number (Numeral.ofDigits whole fraction).toBinary64), 1,
        ⟨0, Text.bytes text⟩⟩, .eof 1 (Text.bytes text)], []⟩ := by
  have hcut : MaximalMunch (String.ofList text).toList [⟨text, numberSense whole fraction⟩] := by
    rw [String.toList_ofList]
    exact maximalMunch_singleton (.spelled hdecimal.spells)
  rw [scan_of_cut hcut, String.toList_ofList, hdecimal.lineFeeds_eq_zero]
  rfl

/-- A number that is shown is scanned again. -/
theorem scan_chars {x : Binary64} (hfinite : x.isFinite = true) (hnegative : x.negative = false) :
    scan (.ofList x.chars) =
      ⟨[⟨.number, .ofList x.chars, some (.number x), 1, ⟨0, Text.bytes x.chars⟩⟩,
        .eof 1 (Text.bytes x.chars)], []⟩ := by
  have hexponent := NumberLayout.exponent_plain x
  have hchars : x.chars = (NumberLayout.plain.numeral x).chars := by
    rw [Binary64.chars, if_pos hfinite]
  rw [Numeral.chars_of_exponent_eq_none hexponent, NumberLayout.negative_numeral, hnegative,
    if_neg Bool.false_ne_true, List.nil_append] at hchars
  have hdecimal := (NumberLayout.plain.numeral x).isDecimal
  rw [← hchars] at hdecimal
  have hsame : (Numeral.ofDigits (NumberLayout.plain.numeral x).wholeDigits
      (NumberLayout.plain.numeral x).fractionDigits).toBinary64 = x := by
    obtain ⟨count, hshortest⟩ := exists_isShortest_numeral hfinite NumberLayout.plain
    have hrounding := isRounding_ofDigits (NumberLayout.plain.numeral x).wholeDigits
      (NumberLayout.plain.numeral x).fractionDigits
    rw [← Numeral.value_of_exponent_eq_none hexponent] at hrounding
    apply eq_of_magnitude_eq
    · rw [hnegative]
      exact hrounding.not_negative
    · show _ = x.abs.magnitude
      exact hrounding.magnitude_eq hshortest.isRounding
  rw [scan_of_isDecimal hdecimal, hsame]

/-- The number of a token is not negative. -/
theorem negative_of_mem_tokens {source : String} {token : Token} {value : Binary64}
    (hmem : token ∈ (scan source).tokens) (hliteral : token.literal = some (.number value)) :
    value.negative = false := by
  rcases literal_cases_of_mem_tokens hmem with ⟨whole, fraction, -, -, hvalue⟩ | ⟨-, hother⟩
  · rw [hvalue] at hliteral
    rw [← Literal.number.inj (Option.some.inj hliteral)]
    exact (isRounding_ofDigits whole fraction).not_negative
  · exact absurd hliteral (hother value)

/-! ## Every number -/

/-- **A number is shown as a shortest decimal and scanned again.**  The text of a finite
number is a decimal without an exponent, behind a sign, with no zero in front or at the end
that could be left out.  It rounds to the number, no decimal of fewer digits does, and none of
as many digits is nearer.  The text for data writes a decimal of this kind too, and the same
one but for a tie.  The number of a token, by itself, is scanned as a token with this number
and nothing else. -/
theorem numbers_shown :
    (∀ x : Binary64, x.isFinite = true →
      ∃ text whole fraction count, ∃ numeral : Numeral,
        x.chars = (if x.negative then ['-'] else []) ++ text ∧
        IsDecimal text whole fraction ∧
        (whole.head? = some '0' → whole = ['0']) ∧ fraction.getLast? ≠ some '0' ∧
        x.abs.IsShortest count (wholeValue whole + fractionValue fraction) ∧
        (∀ layout depth, Json.Writes ((Literal.number x).toJson.chars layout depth)
          (.value (.number numeral))) ∧
        numeral.negative = x.negative ∧ x.abs.IsShortest count numeral.value ∧
        (wholeValue whole + fractionValue fraction = numeral.value ∨
          ∃ first second : Decimal, Decimal.IsTie x.abs first second ∧
            wholeValue whole + fractionValue fraction = first.value ∧
            numeral.value = second.value)) ∧
    ∀ (source : String) (token : Token), token ∈ (scan source).tokens →
      ∀ x : Binary64, token.literal = some (.number x) → x.isFinite = true →
        scan (.ofList x.chars) =
          ⟨[⟨.number, .ofList x.chars, some (.number x), 1, ⟨0, Text.bytes x.chars⟩⟩,
            .eof 1 (Text.bytes x.chars)], []⟩ := by
  constructor
  · intro x hfinite
    have hexponent := NumberLayout.exponent_plain x
    have hchars : x.chars = (NumberLayout.plain.numeral x).chars := by
      rw [Binary64.chars, if_pos hfinite]
    have hjson : (Literal.number x).toJson = .number (NumberLayout.data.numeral x) := by
      rw [Literal.toJson, Json.ofBinary64, Binary64.numeral?, if_pos hfinite]
      rfl
    obtain ⟨count, hshown⟩ := exists_isShortest_numeral hfinite NumberLayout.plain
    obtain ⟨count', hdata⟩ := exists_isShortest_numeral hfinite NumberLayout.data
    obtain rfl := hshown.count_eq hdata
    have hvalues := value_plain_data hfinite
    rw [Numeral.chars_of_exponent_eq_none hexponent, NumberLayout.negative_numeral] at hchars
    rw [Numeral.value_of_exponent_eq_none hexponent] at hshown hvalues
    refine ⟨_, _, _, count, NumberLayout.data.numeral x, hchars, Numeral.isDecimal _,
      Numeral.wholeDigits_eq_zero, ?_, hshown, ?_, NumberLayout.negative_numeral _ x, hdata,
      hvalues⟩
    · exact Numeral.getLast?_fractionDigits_ne (coefficient_plain_mod_ten hfinite)
    · intro layout depth
      rw [hjson, Json.chars]
      exact .number (Numeral.writes_chars _)
  · intro source token hmem x hliteral hfinite
    exact scan_chars hfinite (negative_of_mem_tokens hmem hliteral)

/-- A tenth, written with a zero at the end and shown without it. -/
theorem numbers_shown_tenth :
    ∃ x : Binary64, x.isFinite = true ∧
      (∃ token ∈ (scan "0.10").tokens, token.literal = some (.number x)) ∧
      (∃ text whole fraction count, x.chars = [] ++ text ∧ IsDecimal text whole fraction ∧
        x.abs.IsShortest count (wholeValue whole + fractionValue fraction)) ∧
      scan "0.1" =
        ⟨[⟨.number, "0.1", some (.number x), 1, ⟨0, 3⟩⟩, .eof 1 3], []⟩ := by
  obtain ⟨hshown, hscanned⟩ := numbers_shown
  let x : Binary64 := .ofBits 0x3fb999999999999a
  have hfinite : x.isFinite = true := by decide
  have hchars : x.chars = "0.1".toList := by decide +kernel
  have hvalue : (Numeral.ofDigits "0".toList "10".toList).toBinary64 = x := by decide +kernel
  have hdigits {digits : List Char} (hne : digits ≠ []) (hall : digits.all Char.isDigit = true) :
      IsDigits digits :=
    ⟨hne, fun c hc => Start.isDigit_iff.mp (List.all_eq_true.mp hall c hc)⟩
  have hdecimal : IsDecimal "0.10".toList "0".toList "10".toList :=
    @IsDecimal.decimal "0".toList "10".toList (hdigits (by decide) rfl) (hdigits (by decide) rfl)
  have hscan := scan_of_isDecimal hdecimal
  rw [hvalue] at hscan
  have htoken : ∃ token ∈ (scan "0.10").tokens, token.literal = some (.number x) := by
    rw [show "0.10" = String.ofList "0.10".toList from rfl, hscan]
    exact ⟨_, List.mem_cons_self, rfl⟩
  obtain ⟨token, hmem, hliteral⟩ := htoken
  obtain ⟨text, whole, fraction, count, numeral, htext, hform, -, -, hshortest, -⟩ :=
    hshown x hfinite
  refine ⟨x, hfinite, ⟨token, hmem, hliteral⟩, ⟨text, whole, fraction, count, htext, hform,
    hshortest⟩, ?_⟩
  have hagain := hscanned "0.10" token hmem x hliteral hfinite
  rw [hchars] at hagain
  exact hagain

/-- Two to the power of minus twenty-five, which is exactly in the middle of two shortest
decimals: the one that is shown is not the one in data. -/
theorem numbers_shown_not_as_in_data :
    ∃ x : Binary64, x.isFinite = true ∧
      (∃ token ∈ (scan "0.000000029802322387695313").tokens, token.literal = some (.number x)) ∧
      ∃ whole fraction, ∃ numeral : Numeral, IsDecimal x.chars whole fraction ∧
        Json.Writes ((Literal.number x).toJson.chars .compact 0) (.value (.number numeral)) ∧
        wholeValue whole + fractionValue fraction ≠ numeral.value := by
  let x : Binary64 := .ofBits 0x3e60000000000000
  have hfinite : x.isFinite = true := by decide
  have hchars : x.chars = "0.000000029802322387695313".toList := by decide +kernel
  have hplain : NumberLayout.plain.numeral x =
      { coefficient := 29802322387695313, places := 24 } := by decide +kernel
  have hdata : NumberLayout.data.numeral x =
      { coefficient := 29802322387695312, places := 16, exponent := some (-8) } := by
    decide +kernel
  refine ⟨x, hfinite, ?_, (NumberLayout.plain.numeral x).wholeDigits,
    (NumberLayout.plain.numeral x).fractionDigits, NumberLayout.data.numeral x, ?_, ?_, ?_⟩
  · have hscan := scan_chars hfinite rfl
    rw [hchars, String.ofList_toList] at hscan
    rw [hscan]
    exact ⟨_, List.mem_cons_self, rfl⟩
  · have hdecimal := (NumberLayout.plain.numeral x).isDecimal
    have htext := Numeral.chars_of_exponent_eq_none (NumberLayout.exponent_plain x)
    rw [NumberLayout.negative_numeral, show x.negative = false from rfl,
      if_neg Bool.false_ne_true, List.nil_append] at htext
    rw [Binary64.chars, if_pos hfinite, htext]
    exact hdecimal
  · rw [Literal.toJson, Json.ofBinary64, Binary64.numeral?, if_pos hfinite, Option.map_some,
      Option.getD_some, Json.chars]
    exact .number (Numeral.writes_chars _)
  · rw [← Numeral.value_of_exponent_eq_none (NumberLayout.exponent_plain x), hplain, hdata]
    norm_num [Numeral.value, Numeral.scale]

end LoxTokens
