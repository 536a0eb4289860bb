import ScriptMachine.Machine.Unwind

/-!
# Run — executing a program in whole, by statements, or by calls

`tick` executes one instruction; `drive` repeats it until something stops the machine. A program may
run forever, so `drive` and what is built on it take an amount of fuel, one unit per instruction, and
give no result when it is used up.
-/

namespace ScriptMachine

/-- Whether to stop before every statement. -/
inductive Mode where
  | run
  | step
  deriving DecidableEq, Repr

namespace Machine

/-- The limit that is exceeded, if there is one. -/
def exceeded? (m : Machine) : Option ResourceLimit :=
  if m.config.maxStack < m.stack.depth then some (.stack m.config.maxStack)
  else
    match m.config.maxCycles with
    | some limit => if limit ≤ m.cycles then some (.cycles limit) else none
    | none => none

/-- What one instruction leads to. -/
inductive Tick where
  | next (m : Machine)
  | stop (reason : Stop) (m : Machine)
  | fault (fault : Fault) (m : Machine)

/-- Executes one instruction. The limits are checked first. When stepping, the machine stops before
a boundary unless it has only just started. -/
def tick (mode : Mode) (first : Bool) (m : Machine) : Tick :=
  match m.exceeded? with
  | some limit =>
    let (fault, m) := m.fatal (.limit limit) none
    .fault fault m
  | none =>
    match m.program.instruction? m.sectionIndex m.pc with
    | none =>
      let (fault, m) := m.fatal (.invariant (.outside m.pc m.sectionIndex)) none
      .fault fault m
    | some i =>
      if mode = .step ∧ i.boundary ∧ !first then .stop .boundary m
      else
        match dispatch i { m with cycles := m.cycles + 1, pc := m.pc + 1 } with
        | .ok none m => .next m
        | .ok (some reason) m => .stop reason m
        | .error cause m =>
          match m.handle cause i.span with
          | (none, m) => .next m
          | (some fault, m) => .fault fault m

/-- Executes instructions until something stops the machine. -/
def drive (mode : Mode) : (fuel : Nat) → (first : Bool) → Machine →
    Option (Except Fault Stop × Machine)
  | 0, _, _ => none
  | fuel + 1, first, m =>
    match m.tick mode first with
    | .next m => drive mode fuel false m
    | .stop reason m => some (.ok reason, m)
    | .fault fault m => some (.error fault, m)

/-- The state after a stop, or the fault of a host frame that returns without a host call. -/
def settle (m : Machine) : Stop → Except Fault RunState × Machine
  | .eof => (.ok .done, { m with state := .done })
  | .breakpoint | .boundary => (.ok .paused, { m with state := .paused })
  | .hostReturn =>
    let (fault, m) := m.fatal (.invariant .strayHostReturn) none
    (.error fault, m)

/-- Executes the script from where it stands. A machine that stopped on an error has to be reset
first, and one that is done stays done. -/
def execute (mode : Mode) (fuel : Nat) (m : Machine) : Option (Except Fault RunState × Machine) :=
  match m.state with
  | .error => some (.error { cause := .halted }, m)
  | .done => some (.ok .done, m)
  | _ =>
    (drive mode fuel true { m with state := .running }).map fun
      | (.ok reason, m) => m.settle reason
      | (.error fault, m) => (.error fault, m)

/-- Runs to the end of the script or to a breakpoint. -/
def run (fuel : Nat) (m : Machine) : Option (Except Fault RunState × Machine) := m.execute .run fuel

/-- Runs to the next statement. -/
def step (fuel : Nat) (m : Machine) : Option (Except Fault RunState × Machine) := m.execute .step fuel

/-- What a call by the host gives once its function has stopped. -/
def finishCall (saved : RunState) : Except Fault Stop × Machine → Except Fault Value × Machine
  | (.ok .hostReturn, m) =>
    match m.stack.top? with
    | some (.value v) => (.ok v, { m with stack := m.stack.drop, state := saved })
    | other =>
      (.error { cause := .invariant (.unexpectedEntry "pop" .value (other.map Entry.kind)) },
       { m with stack := m.stack.drop, state := saved })
  | (.ok reason, m) =>
    let (fault, m) := m.fatal (.invariant (.hostCallEnded reason)) none
    (.error fault, m)
  | (.error fault, m) => (.error fault, if m.state = .error then m else { m with state := saved })

/-- Calls a function or a host value by name. The machine keeps its place and its state, so a paused
script can go on afterwards. -/
def call (fuel : Nat) (name : String) (args : List Value) (m : Machine) :
    Option (Except Fault Value × Machine) :=
  if m.state = .error then some (.error { cause := .halted }, m)
  else
    match m.lookup name with
    | .error cause => some (.error { cause }, m)
    | .ok (.function _ f) =>
      let saved := m.state
      let m := { m with state := .running, hostCalls := m.hostCalls + 1 }
      (drive .run fuel true (enterFunction f none args true m)).map fun (result, m) =>
        finishCall saved (result, { m with hostCalls := m.hostCalls - 1 })
    | .ok (.native handle) =>
      if handle.callable then
        match callNative handle none args m with
        | (.ok v, m) => some (.ok v, m)
        | (.error cause, m) => some (.error { cause }, m)
      else some (.error { cause := .notCallable .native }, m)
    | .ok other => some (.error { cause := .notCallable other.kind }, m)

end Machine

end ScriptMachine
