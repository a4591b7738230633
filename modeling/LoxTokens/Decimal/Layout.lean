import LoxTokens.Decimal.Shortest

/-!
# The written forms of a number

Both forms write the shortest decimal that reads back and differ in where the
point goes.  The plain form never uses an exponent and writes no fraction for a
whole number.  The data form, for readers that tell whole numbers from others
by the point, keeps `.0` and turns to an exponent outside a middle range.
-/

namespace LoxTokens

/-- How the digits of a number are laid out. -/
structure NumberLayout where
  /-- Where two shortest decimals are equally near. -/
  tie : Decimal.Tie
  /-- The leading exponents, from the first on and before the second, that are
  written with no exponent; all of them without a range. -/
  plainRange : Option (Int × Int)
  /-- The least number of places in a number written with no exponent. -/
  leastPlaces : Nat

namespace NumberLayout

/-- The form for people: never an exponent, no fraction if there is none, and
a tie goes away from zero. -/
def plain : NumberLayout := ⟨.away, none, 0⟩

/-- The form for data: no exponent from `1e-5` up to `1e16`, at least one
place there, and a tie goes to the even digit. -/
def data : NumberLayout := ⟨.even, some (-5, 16), 1⟩

/-- Whether a decimal with this leading exponent is written with none. -/
def writesPlain (layout : NumberLayout) (leading : Int) : Bool :=
  layout.plainRange.all fun (low, high) => low ≤ leading && leading < high

/-- A decimal written without an exponent: zeros on the right make a whole
number, and the least number of places is filled up with zeros. -/
def positional (layout : NumberLayout) (negative : Bool) (d : Decimal) : Numeral :=
  let places := max layout.leastPlaces (-d.exponent).toNat
  { negative, places, coefficient := d.digits * tenTo (d.exponent + places).toNat }

/-- A decimal written with one digit before the point and its exponent. -/
def scientific (negative : Bool) (d : Decimal) : Numeral :=
  { negative, coefficient := d.digits, places := d.length - 1, exponent := some d.leading }

/-- The numeral of a finite number. -/
def numeral (layout : NumberLayout) (x : Binary64) : Numeral :=
  if x.magnitude = 0 then
    { negative := x.negative, coefficient := 0, places := layout.leastPlaces }
  else
    let d := Decimal.shortest layout.tie x.magnitude
    if layout.writesPlain d.leading then layout.positional x.negative d
    else scientific x.negative d

end NumberLayout

namespace Binary64

/-- The text of a number for people to read, infinities and the absence of a
number included. -/
def chars (x : Binary64) : List Char :=
  if x.isFinite then (NumberLayout.plain.numeral x).chars
  else if x.isNaN then "NaN".toList
  else if x.negative then "-inf".toList
  else "inf".toList

/-- The numeral of a number in data, where only finite numbers have one. -/
def numeral? (x : Binary64) : Option Numeral :=
  if x.isFinite then some (NumberLayout.data.numeral x) else none

end Binary64

end LoxTokens
