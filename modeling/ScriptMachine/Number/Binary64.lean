/-!
# Binary64 — the exact value of a double

A double is read through its bit pattern as a sign, a natural mantissa and a power of two, so that
everything a script can see of a number (its integer part, its remainder, its shortest text) is
exact integer arithmetic. `Float` itself keeps a single NaN, so `toBits` is the whole number.
-/

namespace ScriptMachine.Number

/-- A finite double: `(-1)^negative * mantissa * 2^exponent`. -/
structure Finite where
  negative : Bool
  mantissa : Nat
  exponent : Int
  deriving DecidableEq, Repr

/-- What a bit pattern stands for. -/
inductive Class where
  | nan
  | infinite (negative : Bool)
  | finite (value : Finite)
  deriving DecidableEq, Repr

/-- Number of bits below the exponent field. -/
def fractionBits : Nat := 52

/-- The leading mantissa bit, which a normal double does not store. -/
def hiddenBit : Nat := 1 <<< fractionBits

/-- The sign bit. -/
def signBit : Nat := 1 <<< 63

/-- The exponent of the last mantissa bit of the smallest doubles. -/
def minExponent : Int := -1074

/-- Reads a bit pattern: a zero exponent field marks the subnormals, a full one the non-finite. -/
def ofBits (bits : UInt64) : Class :=
  let n := bits.toNat
  let negative := decide (signBit ≤ n)
  let field : Nat := (n >>> fractionBits) % 2048
  let fraction : Nat := n % hiddenBit
  if field = 2047 then
    if fraction = 0 then .infinite negative else .nan
  else if field = 0 then .finite ⟨negative, fraction, minExponent⟩
  else .finite ⟨negative, hiddenBit + fraction, (field : Int) - 1075⟩

/-- Reads a double. -/
def classify (x : Float) : Class := ofBits x.toBits

namespace Finite

/-- The magnitude with its fraction dropped. -/
def truncated (x : Finite) : Nat :=
  if 0 ≤ x.exponent then x.mantissa <<< x.exponent.toNat
  else x.mantissa >>> (-x.exponent).toNat

/-- No digit stands after the binary point. -/
def isIntegral (x : Finite) : Bool :=
  0 ≤ x.exponent || x.mantissa % (1 <<< (-x.exponent).toNat) == 0

/-- The value rounded toward zero. -/
def toInt (x : Finite) : Int :=
  if x.negative then -(x.truncated : Int) else x.truncated

/-- The bit pattern of a value whose mantissa has at most 53 bits and whose exponent is not below
`minExponent`: the mantissa is shifted up until it is normal or the exponent is least. -/
def toBits (x : Finite) : UInt64 :=
  let sign := if x.negative then signBit else 0
  if x.mantissa = 0 then UInt64.ofNat sign
  else
    let shift := min (fractionBits - x.mantissa.log2) (x.exponent - minExponent).toNat
    let mantissa := x.mantissa <<< shift
    let exponent := x.exponent - shift
    if mantissa < hiddenBit then UInt64.ofNat (sign + mantissa)
    else UInt64.ofNat (sign + (exponent + 1075).toNat * hiddenBit + (mantissa - hiddenBit))

end Finite

/-- The bit pattern with the sign bit alone. -/
def negativeZeroBits : UInt64 := 0x8000000000000000

/-- The zero that divides one into negative infinity. -/
def isNegativeZero (x : Float) : Bool := x.toBits == negativeZeroBits

end ScriptMachine.Number
