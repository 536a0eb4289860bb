import ScriptMachine.Number.Binary64

/-!
# Arithmetic — remainder, powers and 32-bit words of doubles

The remainder is exact and takes the sign of the dividend. The bitwise operators read their
operands as integers modulo `2^32`, in two's complement. A power of one or to zero is one, even
where the other operand is no number, unless that operand signals.
-/

namespace ScriptMachine.Number

/-- The remainder of two magnitudes over their common power of two. -/
def Finite.rem (x y : Finite) : Finite :=
  let exponent := min x.exponent y.exponent
  let a := x.mantissa <<< (x.exponent - exponent).toNat
  let b := y.mantissa <<< (y.exponent - exponent).toNat
  ⟨x.negative, a % b, exponent⟩

/-- The quiet NaN. -/
def nan : Float := 0.0 / 0.0

/-- `x - y * trunc (x / y)` without rounding. An infinite dividend or a zero divisor has no
remainder, and an infinite divisor leaves the dividend as it is. -/
def remainder (x y : Float) : Float :=
  match classify x, classify y with
  | .finite a, .finite b => if b.mantissa = 0 then nan else Float.ofBits (a.rem b).toBits
  | .finite _, .infinite _ => x
  | _, _ => nan

/-- Whether bits stand for a double that is no number and that signals: the first bit of its
fraction is clear. -/
def isSignaling (bits : UInt64) : Bool :=
  ofBits bits = .nan && bits.toNat % hiddenBit < hiddenBit / 2

/-- A power, of operands that are given by their bits. -/
def power (base exponent : UInt64) : Float :=
  if isSignaling base || isSignaling exponent then nan
  else Float.pow (Float.ofBits base) (Float.ofBits exponent)

/-- The 32-bit word of a number: its integer part modulo `2^32`, and zero for what is not finite. -/
def toWord (x : Float) : BitVec 32 :=
  match classify x with
  | .finite a => BitVec.ofInt 32 a.toInt
  | _ => 0

/-- A word as the signed number it encodes. -/
def ofWord (w : BitVec 32) : Float := Float.ofInt w.toInt

/-- Bitwise conjunction of two numbers. -/
def bitAnd (x y : Float) : Float := ofWord (toWord x &&& toWord y)

/-- Bitwise disjunction of two numbers. -/
def bitOr (x y : Float) : Float := ofWord (toWord x ||| toWord y)

end ScriptMachine.Number
