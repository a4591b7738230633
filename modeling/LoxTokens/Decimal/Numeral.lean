import LoxTokens.Binary64.Rounding

/-!
# Decimal numerals

A numeral is a number as it is written: a sign, whole digits, perhaps a
fraction after a point and perhaps an exponent of ten.  The digits are kept as
one `coefficient` together with the number of `places` behind the point, so
that every numeral can be written and its value needs no second look at the
digits:

  `coefficient` times ten to the power `exponent - places`.
-/

namespace LoxTokens

def tenTo (exponent : Nat) : Nat := Nat.pow 10 exponent

/-- A decimal numeral.  Without an exponent none is written, which is not the
same as writing an exponent of zero. -/
structure Numeral where
  negative : Bool := false
  coefficient : Nat
  places : Nat := 0
  exponent : Option Int := none
  deriving DecidableEq

namespace Numeral

def ofNat (n : Nat) : Numeral := { coefficient := n }

/-- The numeral written with these whole digits and these digits behind the
point; leading zeros count for nothing. -/
def ofDigits (whole fraction : List Char) : Numeral where
  coefficient := Nat.ofDigitChars 10 (whole ++ fraction) 0
  places := fraction.length

/-- The numeral that a text writes which is digits, and perhaps a point and
more digits. -/
def ofChars (text : List Char) : Numeral :=
  ofDigits (text.takeWhile Char.isDigit) ((text.dropWhile Char.isDigit).drop 1)

/-- The digits before the point, at least one. -/
def wholeDigits (x : Numeral) : List Char :=
  Nat.toDigits 10 (x.coefficient / tenTo x.places)

/-- The digits behind the point, zeros included on the left. -/
def fractionDigits (x : Numeral) : List Char :=
  if x.places = 0 then []
  else (Nat.toDigits 10 (x.coefficient % tenTo x.places)).leftpad x.places '0'

/-- An exponent of ten as it is written, its sign always shown. -/
def exponentChars (exponent : Int) : List Char :=
  'e' :: (if exponent < 0 then '-' else '+') :: Nat.toDigits 10 exponent.natAbs

/-- The text of a numeral.  The point stands only in front of digits. -/
def chars (x : Numeral) : List Char :=
  (if x.negative then ['-'] else []) ++ x.wholeDigits ++
    (if x.places = 0 then [] else '.' :: x.fractionDigits) ++
    (x.exponent.map exponentChars).getD []

/-- The power of ten that the coefficient counts. -/
def scale (x : Numeral) : Int := x.exponent.getD 0 - x.places

/-- The binary64 number nearest to the numeral's value. -/
def toBinary64 (x : Numeral) : Binary64 :=
  .ofRatio x.negative (x.coefficient * tenTo x.scale.toNat) (tenTo (-x.scale).toNat)

end Numeral

end LoxTokens
