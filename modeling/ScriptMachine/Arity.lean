/-!
# Arity — how many arguments a host function takes
-/

namespace ScriptMachine

/-- The argument counts that a host function accepts. -/
inductive Arity where
  | exact (count : Nat)
  | range (min max : Nat)
  | variadic (min : Nat)
  deriving DecidableEq, Repr

namespace Arity

/-- Whether a number of arguments is accepted. -/
def accepts : Arity → Nat → Bool
  | .exact n, count => count == n
  | .range min max, count => min ≤ count && count ≤ max
  | .variadic min, count => min ≤ count

/-- The accepted counts in words. -/
def text : Arity → String
  | .exact n => s!"{n}"
  | .range min max => s!"{min} to {max}"
  | .variadic min => s!"at least {min}"

end Arity

end ScriptMachine
