import ScriptMachine.Machine.Dispatch

/-!
# Unwind — where errors go

A catchable error goes to the nearest try region, unless the frame of a host call lies nearer: then
it goes to the host, and the machine stands where it stood before that call. What nothing catches
leaves an empty stack and the state `error`, and so does every error that cannot be caught.
-/

namespace ScriptMachine.Machine

/-- Where unwinding ends. -/
inductive Landing where
  /-- A try region, with what lies below it. -/
  | region (r : Region) (below : List Entry)
  /-- The frame of a host call, with what lies below it. -/
  | host (f : Frame) (below : List Entry)
  /-- The bottom of the stack, with the outermost frame passed. -/
  | bottom (last : Option Frame)

/-- Where unwinding ends, and the frames it passes, innermost first. -/
def unwind (last : Option Frame) : List Entry → Landing × List Frame
  | [] => (.bottom last, [])
  | .region r :: below => (.region r below, [])
  | .frame f :: below =>
    if f.fromHost then (.host f below, [f])
    else
      let (landing, frames) := unwind (some f) below
      (landing, f :: frames)
  | .value _ :: below => unwind last below
  | .loop _ :: below => unwind last below

/-- The place of the machine as the trace of a fault. -/
def traceAt (m : Machine) (span : Option Span) : Trace :=
  { source := m.program.sectionName? m.sectionIndex
    position := span.bind fun s => if s.isUnknown then none else some (s.line, s.column) }

/-- Stops the machine for good. -/
def fatal (m : Machine) (cause : Cause) (span : Option Span) : Fault × Machine :=
  ({ cause, trace := some (m.traceAt span) }, { m with state := .error })

/-- What the host gets of an error that nothing caught. -/
def surfacedCause (h : Heap) (thrown : Value) : Cause → Cause
  | .thrown _ => .uncaught (thrown.message h)
  | cause => cause

/-- Hands an error that nothing caught to the host: it is logged, and the value is remembered. -/
def surface (m : Machine) (cause : Cause) (thrown : Value) (trace : Trace) : Fault × Machine :=
  let cause := surfacedCause m.heap thrown cause
  let line := cause.message m.heap ++ " " ++ trace.text
  ({ cause, trace := some trace },
   { m with log := m.log.push line, lastException := some thrown })

/-- The value that a handler sees. -/
def thrownValue (cause : Cause) (h : Heap) : Value × Heap :=
  match cause with
  | .thrown v => (v, h)
  | cause => h.newError (cause.message h)

/-- The machine back at a frame. -/
def atFrame (m : Machine) (f : Frame) : Machine :=
  { m with sectionIndex := f.returnSection, pc := f.returnPc, env := f.env }

/-- Routes an error. The result is the fault that reaches the host, if nothing handles the error. -/
def handle (m : Machine) (cause : Cause) (span : Span) : Option Fault × Machine :=
  if !cause.isCatchable then
    let (fault, m) := m.fatal cause (some span)
    (some fault, m)
  else
    let (thrown, m) := m.onHeap (thrownValue cause)
    let (landing, frames) := unwind none m.stack.entries
    let trace := { m.traceAt (some span) with frames := frames.map (·.callee) }
    match landing with
    | .region r below =>
      (none, { m with
        stack := (Stack.ofList below).push (.value thrown)
        sectionIndex := r.sectionIndex, pc := r.handlerPc, env := r.env })
    | .host f below =>
      let m := { m.atFrame f with stack := .ofList below }
      let (fault, m) := m.surface cause thrown trace
      (some fault, m)
    | .bottom last =>
      let m := { (last.map m.atFrame).getD m with stack := .empty }
      let (fault, m) := m.surface cause thrown trace
      (some fault, { m with state := .error })

end ScriptMachine.Machine
