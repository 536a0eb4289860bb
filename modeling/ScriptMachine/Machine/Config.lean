/-!
# Config — the limits of a machine
-/

namespace ScriptMachine

/-- How many stack entries a machine may hold and how many instructions it may execute before it is
reset. Both are checked before every instruction. -/
structure Config where
  maxStack : Nat := 65536
  maxCycles : Option Nat := none
  deriving DecidableEq, Repr

namespace Config

/-- Sets the stack limit. -/
def withMaxStack (c : Config) (size : Nat) : Config := { c with maxStack := size }

/-- Sets the instruction limit. -/
def withMaxCycles (c : Config) (count : Nat) : Config := { c with maxCycles := some count }

/-- Removes the instruction limit. -/
def unlimited (c : Config) : Config := { c with maxCycles := none }

end Config

end ScriptMachine
