import ScriptMachine.Code.Instruction

/-!
# Section — the code of one body

Section zero is the script itself, every other section the body of a function or method.
-/

namespace ScriptMachine

/-- A body of code under its name. -/
structure CodeSection where
  name : String
  code : Array Instruction := #[]
  deriving DecidableEq, Repr

/-- A number right-aligned in five columns. -/
def columnText (n : Nat) : String :=
  let digits := Nat.repr n
  "".pushn ' ' (5 - digits.length) ++ digits

namespace CodeSection

/-- The name of section zero. -/
def scriptName : String := "<script>"

/-- The operations alone. -/
def ops (s : CodeSection) : List Opcode := s.code.toList.map (·.op)

/-- The last operation. -/
def lastOp? (s : CodeSection) : Option Opcode := s.code.back?.map (·.op)

/-- The lines of a listing. -/
def lines (s : CodeSection) : List String :=
  (s.name ++ ":") :: s.code.toList.mapIdx fun i instruction => columnText i ++ " " ++ instruction.text

/-- A listing. -/
def text (s : CodeSection) : String := String.join (s.lines.map (· ++ "\n"))

end CodeSection

end ScriptMachine
