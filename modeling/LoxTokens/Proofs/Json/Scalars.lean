import LoxTokens.Proofs.Json.Reader
import LoxTokens.Proofs.Lexicon.Runs

/-!
# Numbers and strings are read

What the grammar gives a text for its number or its string is what the reader
finds at the front of any text that begins with it.  A number has to end there:
behind it stands nothing with which it could go on.  A string ends with its
second quote, whatever follows.
-/

namespace LoxTokens

open Text (Stops)

/-! ## Numbers -/

namespace Numeral

/-- A number does not go on with this rest of a text. -/
def Ends (rest : List Char) : Prop :=
  ∀ c ∈ rest.head?, c.isDigit = false ∧ c ∉ ['.', 'e', 'E']

variable {rest : List Char}

theorem Ends.stops (hends : Ends rest) : Stops Char.isDigit rest :=
  fun c hc => (hends c hc).1

theorem readRun?_append {digits : List Char} (hdigits : IsRun digits)
    (hstop : Stops Char.isDigit rest) : readRun? (digits ++ rest) = some (digits, rest) := by
  unfold readRun?
  rw [Text.takeWhile_append_of_stops hdigits.2 hstop,
    Text.dropWhile_append_of_stops hdigits.2 hstop]
  exact if_neg hdigits.1

/-- A text of digits begins with nothing else. -/
theorem IsRun.head?_append_ne {digits : List Char} {c : Char} (hdigits : IsRun digits)
    (hc : c.isDigit = false) : (digits ++ rest).head? ≠ some c := by
  obtain ⟨first, others, rfl⟩ := List.exists_cons_of_ne_nil hdigits.1
  intro hhead
  have hdigit := hdigits.2 first (by simp)
  rw [Option.some.inj hhead, hc] at hdigit
  cases hdigit

theorem readSign_append {sign text : List Char} {negative : Bool} (hsign : WritesSign sign negative)
    (htext : text.head? ≠ some '-') : readSign (sign ++ text) = (negative, text) := by
  cases hsign with
  | minus => rfl
  | plus =>
      show readSign text = (false, text)
      unfold readSign
      split
      · exact absurd rfl htext
      · rfl

theorem readFraction?_append {fraction digits : List Char}
    (hfraction : WritesFraction fraction digits)
    (hstop : Stops Char.isDigit rest) (hpoint : rest.head? ≠ some '.') :
    readFraction? (fraction ++ rest) = some (digits, rest) := by
  cases hfraction with
  | present hdigits => exact readRun?_append hdigits hstop
  | absent =>
      show readFraction? rest = some ([], rest)
      unfold readFraction?
      split
      · exact absurd rfl hpoint
      · rfl

theorem readPower?_append {power : List Char} {value : Int} (hpower : WritesPower power value)
    (hstop : Stops Char.isDigit rest) : readPower? (power ++ rest) = some (value, rest) := by
  cases hpower with
  | plus hdigits => simp [readPower?, readPowerSign, readRun?_append hdigits hstop]
  | minus hdigits => simp [readPower?, readPowerSign, readRun?_append hdigits hstop]
  | unsigned hdigits =>
      have hsign : readPowerSign (power ++ rest) = (false, power ++ rest) := by
        unfold readPowerSign
        split
        · rename_i htext
          exact absurd (congrArg List.head? htext) (hdigits.head?_append_ne rfl)
        · rename_i htext
          exact absurd (congrArg List.head? htext) (hdigits.head?_append_ne rfl)
        · rfl
      simp [readPower?, hsign, readRun?_append hdigits hstop]

theorem readExponent?_append {mark : List Char} {exponent : Option Int}
    (hmark : WritesExponent mark exponent) (hends : Ends rest) :
    readExponent? (mark ++ rest) = some (exponent, rest) := by
  cases hmark with
  | present hmem hpower => simp [readExponent?, hmem, readPower?_append hpower hends.stops]
  | absent =>
      show readExponent? rest = some (none, rest)
      cases rest with
      | nil => rfl
      | cons c rest =>
          have hc : c ∉ ['e', 'E'] := fun hmem => (hends c rfl).2 (List.mem_cons_of_mem _ hmem)
          simp [readExponent?, hc]

/-- Behind whole digits and behind a fraction stands no digit, and behind a
fraction no point. -/
theorem WritesExponent.head?_append {mark : List Char} {exponent : Option Int} {c : Char}
    (hmark : WritesExponent mark exponent) (hends : Ends rest)
    (hc : c ∈ (mark ++ rest).head?) : c.isDigit = false ∧ c ≠ '.' := by
  cases hmark with
  | absent =>
      obtain ⟨hdigit, hother⟩ := hends c hc
      exact ⟨hdigit, fun hpoint => hother (by simp [hpoint])⟩
  | present hmem _ =>
      obtain rfl := Option.some.inj hc
      simp only [List.mem_cons, List.not_mem_nil, or_false] at hmem
      rcases hmem with rfl | rfl
      · exact ⟨rfl, by decide⟩
      · exact ⟨rfl, by decide⟩

/-- A number begins with a digit or its sign. -/
theorem Writes.exists_cons {text : List Char} {x : Numeral} (hwrites : Writes text x) :
    ∃ c others, text = c :: others ∧ (c = '-' ∨ c.isDigit = true) := by
  cases hwrites with
  | parts hsign hwhole _ _ =>
      cases hsign with
      | minus => exact ⟨'-', _, rfl, Or.inl rfl⟩
      | plus =>
          obtain ⟨⟨hne, hdigits⟩, _⟩ := hwhole
          obtain ⟨first, others, rfl⟩ := List.exists_cons_of_ne_nil hne
          exact ⟨first, _, rfl, Or.inr (hdigits first List.mem_cons_self)⟩

/-- A number is read to its end, as long as it could not go on there. -/
theorem read?_append {text : List Char} {x : Numeral} (hwrites : Writes text x)
    (hends : Ends rest) : read? (text ++ rest) = some (x, rest) := by
  cases hwrites with
  | @parts sign negative whole fraction digits mark exponent hsign hwhole hfraction hmark =>
    have hmarkEnds : ∀ c ∈ (mark ++ rest).head?, c.isDigit = false ∧ c ≠ '.' :=
      fun c => hmark.head?_append hends
    have hpoint : (mark ++ rest).head? ≠ some '.' := fun hhead => (hmarkEnds _ hhead).2 rfl
    have hstop : Stops Char.isDigit (fraction ++ (mark ++ rest)) := by
      cases hfraction with
      | absent => exact fun c hc => (hmarkEnds c hc).1
      | present _ => exact Text.stops_cons.mpr rfl
    have hguard : guard (whole.head? = some '0' → whole = ['0']) = some () := if_pos hwhole.2
    unfold read?
    rw [List.append_assoc, List.append_assoc, List.append_assoc,
      readSign_append hsign (hwhole.1.head?_append_ne rfl)]
    refine Option.bind_eq_some_iff.mpr ⟨_, readRun?_append hwhole.1 hstop, ?_⟩
    refine Option.bind_eq_some_iff.mpr ⟨(), hguard, ?_⟩
    refine Option.bind_eq_some_iff.mpr
      ⟨_, readFraction?_append hfraction (fun c hc => (hmarkEnds c hc).1) hpoint, ?_⟩
    exact Option.bind_eq_some_iff.mpr ⟨_, readExponent?_append hmark hends, rfl⟩

end Numeral

namespace Json

variable {rest : List Char}

/-! ## Strings -/

theorem isHighUnit_toNat (c : Char) : isHighUnit c.toNat = false := by
  have hvalid : c.toNat < 0xD800 ∨ 0xDFFF < c.toNat ∧ c.toNat < 0x110000 := c.valid
  simp only [isHighUnit, Bool.and_eq_false_iff, decide_eq_false_iff_not]
  omega

theorem isLowUnit_toNat (c : Char) : isLowUnit c.toNat = false := by
  have hvalid : c.toNat < 0xD800 ∨ 0xDFFF < c.toNat ∧ c.toNat < 0x110000 := c.valid
  simp only [isLowUnit, Bool.and_eq_false_iff, decide_eq_false_iff_not]
  omega

theorem readChar?_append {text : List Char} {c : Char} (hwrites : WritesChar text c)
    (rest : List Char) : readChar? (text ++ rest) = some (c, rest) := by
  cases hwrites with
  | plain hlarge hquote hbackslash =>
      show readChar? (c :: rest) = some (c, rest)
      unfold readChar?
      split
      · rename_i htext
        exact absurd (List.cons.inj htext).1 hbackslash
      · rename_i htext
        exact absurd (List.cons.inj htext).1 hbackslash
      · rename_i htext
        obtain ⟨rfl, rfl⟩ := List.cons.inj htext
        exact if_pos ⟨hlarge, hquote, hbackslash⟩
      · rename_i htext
        cases htext
  | short hmem =>
      simp only [shortEscapes, List.mem_cons, Prod.mk.injEq, List.not_mem_nil, or_false] at hmem
      rcases hmem with ⟨rfl, rfl⟩ | ⟨rfl, rfl⟩ | ⟨rfl, rfl⟩ | ⟨rfl, rfl⟩ | ⟨rfl, rfl⟩ | ⟨rfl, rfl⟩ |
        ⟨rfl, rfl⟩ | ⟨rfl, rfl⟩ <;> rfl
  | unit hunit =>
      simp [readChar?, hunit, isHighUnit_toNat, isLowUnit_toNat]
  | pair hhigh hisHigh hlow hisLow hpoint =>
      simp [readChar?, hhigh, hisHigh, hlow, hisLow, hpoint]

/-- Each way to write a character takes at least one. -/
theorem readChars?_append {chars : List (List Char × Char)}
    (hchars : ∀ char ∈ chars, WritesChar char.1 char.2) (rest : List Char) {fuel : Nat}
    (hfuel : chars.length < fuel) :
    readChars? fuel (chars.flatMap Prod.fst ++ '"' :: rest) = some (chars.map Prod.snd, rest) := by
  induction chars generalizing fuel with
  | nil =>
      obtain ⟨fuel, rfl⟩ := Nat.exists_eq_add_one.mpr hfuel
      rfl
  | cons char chars ih =>
      obtain ⟨fuel, rfl⟩ := Nat.exists_eq_add_one.mpr (Nat.zero_lt_of_lt hfuel)
      obtain ⟨hchar, hchars⟩ := List.forall_mem_cons.mp hchars
      have hrest := ih hchars (Nat.lt_of_succ_lt_succ hfuel)
      rw [List.flatMap_cons, List.append_assoc]
      unfold readChars?
      rw [readChar?_append hchar]
      simp [hrest]

end Json

end LoxTokens
