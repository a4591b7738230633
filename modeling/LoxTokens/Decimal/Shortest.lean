import LoxTokens.Decimal.Numeral

/-!
# The shortest decimal that reads back

The decimal of fewest digits that rounds to a given binary64 number, and of
those the nearest to it.  Decimals are taken from the grids of multiples of a
power of ten, coarsest first.  If any point of a grid rounds to the number then
so does one of the two neighbours of the number on that grid, so only these
two are tried; and since every finite number is itself a multiple of
ten to the power `-1074`, the search meets a hit no later than on that grid.
-/

namespace LoxTokens

/-- A positive decimal: `digits` times ten to the power `exponent`. -/
structure Decimal where
  digits : Nat
  exponent : Int
  deriving DecidableEq

namespace Decimal

/-- The magnitude of the binary64 number nearest to a decimal. -/
def magnitude (d : Decimal) : Nat :=
  Binary64.roundMagnitude (d.digits * tenTo d.exponent.toNat) (tenTo (-d.exponent).toNat)

def length (d : Decimal) : Nat := (Nat.toDigits 10 d.digits).length

def leading (d : Decimal) : Int := d.exponent + d.length - 1

/-- Which of two equally near candidates is written. -/
inductive Tie
  /-- The one further from zero. -/
  | away
  /-- The one whose last digit is even. -/
  | even
  deriving DecidableEq

/-- Whether the upper neighbour is nearer to `num / den` than the lower
neighbour `num / den` rounded down, a tie going as asked. -/
def upperNearer (tie : Tie) (num den : Nat) : Bool :=
  let twice := 2 * (num % den)
  den < twice || (twice = den && (tie = .away || num / den % 2 = 1))

/-- The neighbour of a magnitude on the grid of multiples of a power of ten
that reads back as this magnitude, the nearer one if both do. -/
def onGrid? (tie : Tie) (magnitude : Nat) (exponent : Int) : Option Decimal :=
  let num := Binary64.units magnitude * tenTo (-exponent).toNat
  let den := Binary64.unitsOfOne * tenTo exponent.toNat
  let lower : Decimal := ⟨num / den, exponent⟩
  let upper : Decimal := ⟨num / den + 1, exponent⟩
  let nearerFirst := if upperNearer tie num den then [upper, lower] else [lower, upper]
  nearerFirst.find? fun d => d.magnitude == magnitude

/-- The first hit on the grids of exponents from `fuel - 1074` down to `-1074`,
where the number itself is a point of the grid. -/
def firstHit (tie : Tie) (magnitude : Nat) : Nat → Decimal
  | 0 => ⟨Binary64.units magnitude * tenTo 1074 / Binary64.unitsOfOne, -1074⟩
  | fuel + 1 => (onGrid? tie magnitude (fuel + 1 - 1074)).getD (firstHit tie magnitude fuel)

/-- An exponent whose power of ten is at least the number, so that no coarser
grid can have a hit that this one has not: the length of the integer part or,
below one, as many places as the reciprocal has digits but one. -/
def topExponent (magnitude : Nat) : Int :=
  let units := Binary64.units magnitude
  if Binary64.unitsOfOne ≤ units then (Nat.toDigits 10 (units / Binary64.unitsOfOne)).length
  else 1 - (Nat.toDigits 10 (Binary64.unitsOfOne / units)).length

/-- The shortest decimal that rounds to a finite magnitude other than zero. -/
def shortest (tie : Tie) (magnitude : Nat) : Decimal :=
  firstHit tie magnitude (topExponent magnitude + 1074).toNat

end Decimal

end LoxTokens
