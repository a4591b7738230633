/-!
# Binary floating-point numbers of 64 bits

A number of the IEEE binary64 format is a sign and a magnitude, the low 63
bits of its word.  Read as an unsigned integer the magnitude orders the
numbers it stands for, so arithmetic on `Nat` is enough here.  A magnitude
below `infinite` stands for the finite number

  `units magnitude / unitsOfOne`,

a whole multiple of the least subnormal.  The magnitude `infinite` itself is
infinity, and every magnitude above it is not a number.
-/

namespace LoxTokens

/-- The weight of the sign in a word, and so a bound for all magnitudes. -/
def Binary64.signBit : Nat := 0x8000000000000000

/-- A binary64 word, cut into its sign bit and the 63 bits below it. -/
structure Binary64 where
  negative : Bool
  magnitude : Nat
  magnitude_lt : magnitude < Binary64.signBit := by decide
  deriving DecidableEq

namespace Binary64

/-- The number of magnitudes with the same exponent field: one for each
fraction of 52 bits. -/
def block : Nat := 0x10000000000000

/-- The magnitude of infinity: the exponent field full, the fraction zero. -/
def infinite : Nat := 2047 * block

/-- The doublings that separate a magnitude's unit from the least subnormal.
The magnitudes of the first two blocks share the least unit. -/
def scale (magnitude : Nat) : Nat := magnitude / block - 1

/-- The significand, with its leading bit: what is left of the magnitude once
its scale is taken off the exponent field. -/
def significand (magnitude : Nat) : Nat := magnitude - scale magnitude * block

/-- A finite magnitude as a count of least subnormals. -/
def units (magnitude : Nat) : Nat := significand magnitude <<< scale magnitude

def unitsOfOne : Nat := 1 <<< 1074

/-- Whether the word stands for a number, zero and subnormals included. -/
def isFinite (x : Binary64) : Bool := x.magnitude < infinite

def isNaN (x : Binary64) : Bool := infinite < x.magnitude

/-- The number that a 64-bit word encodes. -/
def ofBits (word : UInt64) : Binary64 where
  negative := signBit ≤ word.toNat
  magnitude := word.toNat % signBit
  magnitude_lt := Nat.mod_lt _ (by decide)

/-- The 64-bit word that encodes a number. -/
def toBits (x : Binary64) : UInt64 :=
  .ofNat ((if x.negative then signBit else 0) + x.magnitude)

theorem toNat_toBits (x : Binary64) :
    x.toBits.toNat = (if x.negative then signBit else 0) + x.magnitude := by
  have hmagnitude := x.magnitude_lt
  unfold toBits
  rw [UInt64.toNat_ofNat']
  unfold signBit at *
  split <;> omega

theorem ofBits_toBits (x : Binary64) : ofBits x.toBits = x := by
  have hmagnitude := x.magnitude_lt
  have hword := x.toNat_toBits
  obtain ⟨negative, magnitude, _⟩ := x
  simp only [ofBits, Binary64.mk.injEq, hword]
  unfold signBit at *
  cases negative <;> simp at hmagnitude ⊢ <;> omega

theorem toBits_ofBits (word : UInt64) : (ofBits word).toBits = word := by
  have hword := word.toNat_lt
  apply UInt64.toNat_inj.mp
  simp only [toNat_toBits, ofBits, decide_eq_true_eq]
  unfold signBit
  split <;> omega

/-- Numeric equality: a word that is no number equals nothing, itself
included, and the two zeros are equal. -/
def equals (x y : Binary64) : Bool :=
  !x.isNaN && !y.isNaN &&
    (x.magnitude == y.magnitude && (x.negative == y.negative || x.magnitude == 0))

end Binary64

end LoxTokens
