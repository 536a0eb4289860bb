import ScriptMachine.Number.Binary64

/-!
# Shortest — the fewest decimal digits that read back

Every double is the nearest one to an interval of reals, which includes its ends when the mantissa
is even. `shortest` looks on coarser and finer decimal grids, from one digit on, for a point of that
interval: the first grid with a hit wins, and of two hits the nearer one, the larger on a tie.
-/

namespace ScriptMachine.Number

/-- A decimal: `digits * 10^exponent`. -/
structure Decimal where
  digits : Nat
  exponent : Int
  deriving DecidableEq, Repr

/-- The reals that round to one double, as numerators over a common denominator. -/
structure Interval where
  low : Nat
  value : Nat
  high : Nat
  denominator : Nat
  closed : Bool

/-- The interval of a positive double. The gap below a power of two is half the gap above it,
except at the bottom of the range. -/
def Finite.interval (x : Finite) : Interval :=
  let scale := 1 <<< x.exponent.toNat
  let below := if x.mantissa = hiddenBit && minExponent < x.exponent then 1 else 2
  { low := (4 * x.mantissa - below) * scale
    value := 4 * x.mantissa * scale
    high := (4 * x.mantissa + 2) * scale
    denominator := 4 <<< (-x.exponent).toNat
    closed := x.mantissa % 2 == 0 }

/-- Number of decimal digits. -/
def decimalLength (n : Nat) : Nat := (Nat.toDigits 10 n).length

/-- The power `k` of ten with `10^(k-1) ≤ value < 10^k`. -/
def Interval.magnitude (i : Interval) : Int :=
  if i.denominator ≤ i.value then decimalLength (i.value / i.denominator)
  else 1 - (decimalLength ((i.denominator + i.value - 1) / i.value - 1) : Int)

/-- The decimal `digits * 10^exponent` as a fraction. -/
def Decimal.fraction (d : Decimal) : Nat × Nat :=
  (d.digits * Nat.pow 10 d.exponent.toNat, Nat.pow 10 (-d.exponent).toNat)

/-- Whether a decimal lies in the interval. -/
def Interval.contains (i : Interval) (d : Decimal) : Bool :=
  let (n, m) := d.fraction
  let point := n * i.denominator
  if i.closed then i.low * m ≤ point && point ≤ i.high * m
  else i.low * m < point && point < i.high * m

/-- The neighbours of the value on the grid of multiples of `10^exponent`, the lower one first. -/
def Interval.neighbours (i : Interval) (exponent : Int) : Decimal × Decimal :=
  let lower := i.value * Nat.pow 10 (-exponent).toNat / (i.denominator * Nat.pow 10 exponent.toNat)
  (⟨lower, exponent⟩, ⟨lower + 1, exponent⟩)

/-- Whether the upper neighbour is at least as near to the value as the lower one. -/
def Interval.prefersUpper (i : Interval) (exponent : Int) : Bool :=
  let (lower, upper) := i.neighbours exponent
  let (n, m) := lower.fraction
  let (n', _) := upper.fraction
  2 * i.value * m ≥ (n + n') * i.denominator

/-- The point of one grid that stands for the value, if the interval has one. -/
def Interval.onGrid (i : Interval) (exponent : Int) : Option Decimal :=
  let (lower, upper) := i.neighbours exponent
  match i.contains lower, i.contains upper with
  | true, true => some (if i.prefersUpper exponent then upper else lower)
  | true, false => some lower
  | false, true => some upper
  | false, false => none

/-- Seventeen digits always suffice. -/
def maxDigits : Nat := 17

/-- Drops trailing zeros of the digits, at most `fuel` of them. -/
def Decimal.strip : Nat → Decimal → Decimal
  | 0, d => d
  | fuel + 1, d =>
    if d.digits ≠ 0 ∧ d.digits % 10 = 0 then strip fuel ⟨d.digits / 10, d.exponent + 1⟩ else d

/-- The shortest decimal that reads back as a positive double. -/
def Finite.shortest (x : Finite) : Decimal :=
  let i := x.interval
  let k := i.magnitude
  let hit := (List.range maxDigits).findSome? fun (n : Nat) => i.onGrid (k - ((n : Int) + 1))
  (hit.getD (i.neighbours (k - maxDigits)).1).strip (maxDigits + 1)

end ScriptMachine.Number
