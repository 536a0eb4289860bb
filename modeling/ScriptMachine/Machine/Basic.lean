import ScriptMachine.Code.Program
import ScriptMachine.Machine.Config
import ScriptMachine.Machine.Stack
import ScriptMachine.Native.Registry

/-!
# Machine — the state of a run

A machine is a value: every operation takes one and gives the next. It holds the program, the place
in it, the stack, the current and the global scope, the heap, and what the host can see of the run.
-/

namespace ScriptMachine

/-- How far a machine got. -/
inductive RunState where
  | ready
  | running
  | paused
  | done
  | error
  deriving DecidableEq, Repr

/-- A state in a sentence. -/
def RunState.text : RunState → String
  | .ready => "ready"
  | .running => "running"
  | .paused => "paused"
  | .done => "done"
  | .error => "error"

/-- A state as a diagnostic shows it. -/
def RunState.name : RunState → String
  | .ready => "Ready"
  | .running => "Running"
  | .paused => "Paused"
  | .done => "Done"
  | .error => "Error"

/-- A machine. -/
structure Machine where
  program : Program
  config : Config
  stack : Stack
  /-- The section being executed. -/
  sectionIndex : Nat
  /-- The next instruction of the section. -/
  pc : Nat
  env : ScopeId
  globals : ScopeId
  state : RunState
  /-- Instructions executed since the last reset. -/
  cycles : Nat
  registry : Registry
  hosts : Hosts
  heap : Heap
  /-- Lines that were logged and not yet taken, in order. -/
  log : Array String
  /-- The last value that no try region caught. -/
  lastException : Option Value
  /-- Host calls under way. -/
  hostCalls : Nat

namespace Machine

/-- A machine at the start of a program. The heap and the host values may hold what the constants
of the program refer to. -/
def load (program : Program) (config : Config) (heap : Heap) (hosts : Hosts) : Machine :=
  let (globals, heap) := heap.newRoot
  { program, config, stack := .empty, sectionIndex := 0, pc := 0, env := globals, globals
    state := .ready, cycles := 0, registry := .builtins, hosts, heap, log := #[]
    lastException := none, hostCalls := 0 }

/-- Empties the stack, makes a new global scope and goes back to the start. Host values stay. -/
def reset (m : Machine) : Machine :=
  let (globals, heap) := m.heap.newRoot
  { m with
    stack := .empty, sectionIndex := 0, pc := 0, env := globals, globals, state := .ready
    cycles := 0, heap, lastException := none, hostCalls := 0 }

/-- Applies an operation to the heap. The machine lets go of its heap meanwhile, so that the
operation can change it in place. -/
@[inline] def onHeap {α : Type} (m : Machine) (f : Heap → α × Heap) : α × Machine :=
  let heap := m.heap
  let rest := { m with heap := {} }
  let (a, heap) := f heap
  (a, { rest with heap })

theorem onHeap_eq {α : Type} (m : Machine) (f : Heap → α × Heap) :
    m.onHeap f = ((f m.heap).1, { m with heap := (f m.heap).2 }) := rfl

/-- Changes the heap. -/
@[inline] def mapHeap (m : Machine) (f : Heap → Heap) : Machine := (m.onHeap fun h => ((), f h)).2

/-- The value of a global name. -/
def getGlobal? (m : Machine) (name : String) : Option Value := m.heap.getLocal? m.globals name

/-- Defines a global name. -/
def defineGlobal (m : Machine) (name : String) (v : Value) : Machine :=
  m.mapHeap (·.define m.globals name v)

/-- Adds a host value. -/
def addHost (m : Machine) (native : Native) : NativeHandle × Machine :=
  let (handle, hosts) := m.hosts.add native
  (handle, { m with hosts })

/-- Gives a name to a host value. -/
def register (m : Machine) (name : String) (handle : NativeHandle) : Except Cause Unit × Machine :=
  match m.registry.register name handle with
  | .ok registry => (.ok (), { m with registry })
  | .error cause => (.error cause, m)

/-- Takes the lines that were logged. -/
def takeLog (m : Machine) : Array String × Machine := (m.log, { m with log := #[] })

/-- The value of a name: along the scopes, then among the functions, then among the host values. -/
def lookup (m : Machine) (name : String) : Except Cause Value :=
  match m.heap.resolve? m.env name with
  | some v => .ok v
  | none =>
    match m.program.function? name with
    | some v => .ok v
    | none =>
      match m.registry.get? name with
      | some handle => .ok (.native handle)
      | none => .error (.undefinedVariable name)

/-- A machine as a diagnostic shows it. The stack is shown from the bottom. -/
def inspect (m : Machine) : String :=
  let stack := ", ".intercalate (m.stack.entries.reverse.map (·.inspect m.heap))
  "Vm \x7b state: " ++ m.state.name ++ ", section: " ++ Nat.repr m.sectionIndex ++ ", pc: "
    ++ Nat.repr m.pc ++ ", stack: [" ++ stack ++ "], cycles: " ++ Nat.repr m.cycles ++ ", natives: "
    ++ m.registry.inspect ++ ", .. \x7d"

end Machine

end ScriptMachine
