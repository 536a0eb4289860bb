import ScriptMachine.Number.Shortest

/-!
# Text — numbers as scripts see them

Integral values below `10^15` are written as integers; every other finite number has the fewest
digits that read back, in positional notation whatever its size.
-/

namespace ScriptMachine.Number

/-- A decimal in positional notation. -/
def Decimal.positional (d : Decimal) : String :=
  let text := Nat.repr d.digits
  if 0 ≤ d.exponent then text ++ "".pushn '0' d.exponent.toNat
  else
    let places := (-d.exponent).toNat
    let padded := "".pushn '0' (places + 1 - text.length) ++ text
    let whole := padded.length - places
    String.ofList (padded.toList.take whole) ++ "." ++ String.ofList (padded.toList.drop whole)

/-- From here on an integral value is no longer written as an integer. -/
def integerBound : Nat := 1000000000000000

/-- The text of a finite number; a zero has no sign. -/
def Finite.text (x : Finite) : String :=
  if x.isIntegral && x.truncated < integerBound then
    let digits := Nat.repr x.truncated
    if x.negative && x.mantissa != 0 then "-" ++ digits else digits
  else
    let digits := x.shortest.positional
    if x.negative then "-" ++ digits else digits

/-- The text of a number. -/
def text (x : Float) : String :=
  match classify x with
  | .nan => "NaN"
  | .infinite false => "Infinity"
  | .infinite true => "-Infinity"
  | .finite a => a.text

end ScriptMachine.Number
