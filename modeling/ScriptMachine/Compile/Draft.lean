import ScriptMachine.Code.Program
import ScriptMachine.Script.Tree

/-!
# Draft — what has been compiled so far

The generator returns the code of each tree as a list and keeps everything else in a draft: the pool
of constants, the bodies of functions, the classes, counters for labels and hidden names, and the
problems found. A body takes its place in the draft before it is compiled, so functions are numbered
in the order in which they begin.
-/

namespace ScriptMachine.Compile

/-- A constant that code refers to. -/
inductive Literal where
  | undefined
  | null
  | bool (b : Bool)
  | number (bits : UInt64)
  | string (s : String)
  | regex (pattern : Pattern)

/-- What constants are told apart by: numbers by their bits, patterns by their text. -/
inductive LiteralKey where
  | undefined
  | null
  | bool (b : Bool)
  | number (bits : UInt64)
  | string (s : String)
  | regex (source : String)
  deriving DecidableEq, Repr

namespace Literal

/-- What a constant is told apart by. -/
def key : Literal → LiteralKey
  | .undefined => .undefined
  | .null => .null
  | .bool b => .bool b
  | .number bits => .number bits
  | .string s => .string s
  | .regex pattern => .regex pattern.source

/-- The value of a constant at its place in the pool. -/
def value (index : Nat) : Literal → Value
  | .undefined => .undefined
  | .null => .null
  | .bool b => .bool b
  | .number bits => .number bits
  | .string s => .string s
  | .regex pattern => .regex (.pooled index) pattern

/-- The constant zero. -/
def zero : Literal := .number (0.0 : Float).toBits

/-- The constant one. -/
def one : Literal := .number (1.0 : Float).toBits

end Literal

/-- A function or method: its name, its parameters and its code. -/
structure Body where
  name : String
  params : List String
  code : Code := []

/-- What has been compiled so far. -/
structure Draft where
  constants : Array Literal := #[]
  bodies : Array Body := #[]
  /-- Classes with the bodies of their methods, the latest first. -/
  classes : List (String × List Nat) := []
  labels : Nat := 0
  lambdas : Nat := 0
  parked : Nat := 0
  /-- Problems, the latest first. -/
  problems : List Diagnostic := []

/-- Computations that extend the draft. -/
abbrev Gen := StateM Draft

/-- A new label. Labels are unique across all sections. -/
def newLabel : Gen Nat := fun d => (d.labels, { d with labels := d.labels + 1 })

/-- A new number for a function expression. -/
def newLambda : Gen Nat := fun d => (d.lambdas, { d with lambdas := d.lambdas + 1 })

/-- A new hidden name for the operand of a target. -/
def newParked : Gen String := fun d => (s!"@parked#{d.parked}", { d with parked := d.parked + 1 })

/-- Notes a problem at a place. -/
def report (span : Span) (message : String) : Gen Unit := fun d =>
  ((), { d with problems := ⟨message, span.line, span.column⟩ :: d.problems })

/-- The place of a constant in the pool, where it is put if it is new. A map from keys to places finds
the same place as this search as long as there is room for the constant: see `Compile.KeyedPool`. -/
def poolIndex (literal : Literal) : Gen Nat := fun d =>
  match d.constants.findIdx? fun c => c.key == literal.key with
  | some i => (i, d)
  | none => (d.constants.size, { d with constants := d.constants.push literal })

/-- Takes a place for a body. -/
def openBody (name : String) (params : List String) : Gen Nat := fun d =>
  (d.bodies.size, { d with bodies := d.bodies.push { name, params } })

/-- Fills the place of a body. -/
def closeBody (index : Nat) (code : Code) : Gen Unit := fun d =>
  ((), { d with bodies := d.bodies.modify index fun b => { b with code } })

/-- Whether a class is declared already. -/
def classDeclared (name : String) : Gen Bool := fun d => ((d.classes.lookup name).isSome, d)

/-- Declares a class with the bodies of its methods. -/
def declareClass (name : String) (methods : List Nat) : Gen Unit := fun d =>
  ((), { d with classes := (name, methods) :: d.classes })

/-- The entry of the function table for a body: body `i` is section `i + 1`. -/
def Body.function (index : Nat) (b : Body) : ScriptFunction :=
  { name := b.name, sectionIndex := index + 1, arity := b.params.length, params := b.params }

/-- The program of a draft and the code of the script. -/
def Draft.program (d : Draft) (script : Code) : Except Cause Program :=
  Program.assemble
    (#[⟨CodeSection.scriptName, script.toArray⟩] ++ d.bodies.map fun b => ⟨b.name, b.code.toArray⟩)
    (d.constants.mapIdx Literal.value) (d.bodies.mapIdx Body.function) d.classes

end ScriptMachine.Compile
