import ScriptMachine.Number.Arithmetic
import ScriptMachine.Value.Render

/-!
# Operator — operators on two values

Addition joins texts when either side is one. Every other arithmetic, bitwise or order operator
takes numbers only, and equality takes anything.
-/

namespace ScriptMachine

/-- The operators on two values. -/
inductive BinaryOp where
  | add
  | sub
  | mul
  | div
  | rem
  | pow
  | eq
  | ne
  | lt
  | le
  | gt
  | ge
  | bitAnd
  | bitOr
  deriving DecidableEq, Repr

namespace BinaryOp

/-- Every operator. -/
def all : List BinaryOp :=
  [.add, .sub, .mul, .div, .rem, .pow, .eq, .ne, .lt, .le, .gt, .ge, .bitAnd, .bitOr]

/-- How an operator is written. -/
def symbol : BinaryOp → String
  | .add => "+"
  | .sub => "-"
  | .mul => "*"
  | .div => "/"
  | .rem => "%"
  | .pow => "**"
  | .eq => "=="
  | .ne => "!="
  | .lt => "<"
  | .le => "<="
  | .gt => ">"
  | .ge => ">="
  | .bitAnd => "&"
  | .bitOr => "|"

/-- The operator with a given symbol. -/
def ofSymbol? (symbol : String) : Option BinaryOp := all.find? fun op => op.symbol == symbol

/-- What an operator makes of two numbers, given by their bits. -/
def onNumbers (a b : UInt64) (op : BinaryOp) : Value :=
  let x := Float.ofBits a
  let y := Float.ofBits b
  match op with
  | .add => .ofFloat (x + y)
  | .sub => .ofFloat (x - y)
  | .mul => .ofFloat (x * y)
  | .div => .ofFloat (x / y)
  | .rem => .ofFloat (Number.remainder x y)
  | .pow => .ofFloat (Number.power a b)
  | .eq => .bool (x == y)
  | .ne => .bool !(x == y)
  | .lt => .bool (x < y)
  | .le => .bool (x ≤ y)
  | .gt => .bool (x > y)
  | .ge => .bool (x ≥ y)
  | .bitAnd => .ofFloat (Number.bitAnd x y)
  | .bitOr => .ofFloat (Number.bitOr x y)

/-- Applies an operator. -/
def apply (h : Heap) (op : BinaryOp) (a b : Value) : Except Cause Value :=
  match op, a, b with
  | .eq, a, b => .ok (.bool (a.same b))
  | .ne, a, b => .ok (.bool !(a.same b))
  | op, .number x, .number y => .ok (op.onNumbers x y)
  | .add, .string s, b => .ok (.string (s ++ b.text h))
  | .add, a, .string t => .ok (.string (a.text h ++ t))
  | op, a, b => .error (.typeMismatch op.symbol a.kind b.kind)

end BinaryOp

end ScriptMachine
