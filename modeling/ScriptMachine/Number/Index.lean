import ScriptMachine.Number.Binary64

/-!
# Index — positions in arrays and strings

Positions are 64-bit words. A number is a position when it is integral and not negative, and a text
when it is a run of decimal digits, with at most one plus sign before them.
-/

namespace ScriptMachine.Number

/-- The largest position. -/
def maxPosition : Nat := 0xffffffffffffffff

/-- The integer part of a number that is not negative, no larger than `maxPosition`. -/
def Finite.position (x : Finite) : Nat := min x.truncated maxPosition

/-- A number as a position: it has to be finite, integral and at least zero. -/
def toPosition? (x : Float) : Option Nat :=
  match classify x with
  | .finite a =>
    if a.isIntegral && (!a.negative || a.mantissa == 0) then some a.position else none
  | _ => none

/-- The nearest position at or below a number; zero for NaN and for negative numbers. -/
def floorPosition (x : Float) : Nat :=
  match classify x with
  | .finite a => if a.negative then 0 else a.position
  | .infinite false => maxPosition
  | _ => 0

/-- The number written by a run of ASCII digits. -/
def digitsValue (digits : List Char) : Nat :=
  digits.foldl (fun n c => n * 10 + (c.toNat - '0'.toNat)) 0

/-- A run of ASCII digits, at least one, that does not exceed `maxPosition`. -/
def readDigits? (digits : List Char) : Option Nat :=
  if digits.isEmpty || !digits.all Char.isDigit then none
  else
    let n := digitsValue digits
    if n ≤ maxPosition then some n else none

/-- A text as a position. -/
def readPosition? (text : String) : Option Nat :=
  match text.toList with
  | '+' :: digits => readDigits? digits
  | digits => readDigits? digits

end ScriptMachine.Number
