import ScriptMachine.Machine.Basic

/-!
# Property — reading and writing properties

Objects have fields; arrays and strings have elements, a length and methods; patterns have their
source and methods; errors have a message; host values decide for themselves. Nothing else has
properties.
-/

namespace ScriptMachine.Machine

/-- The property of something with positions: the element there, its length, or a method. -/
def positional (key : Value) (elementAt : Nat → Option Value) (length : Nat)
    (methods : List Builtin) : Value :=
  match key.readPosition? with
  | some i => (elementAt i).getD .undefined
  | none =>
    match key with
    | .string name => if name = "length" then .ofNat length else Builtin.method methods name
    | _ => .undefined

/-- Reads a property. -/
def property (m : Machine) (target key : Value) : Except Cause Value :=
  match target with
  | .object o => .ok ((m.heap.getLocal? (m.heap.fields o) (key.keyName m.heap)).getD .undefined)
  | .array a =>
    .ok (positional key (m.heap.element? a) (m.heap.elements a).size Builtin.arrayMethods)
  | .string s =>
    .ok (positional key (fun i => s.toList[i]?.map fun c => .string c.toString) s.length
      Builtin.stringMethods)
  | .regex _ p =>
    let name := key.keyName m.heap
    .ok (if name = "source" then .string p.source else Builtin.method Builtin.regexMethods name)
  | .error _ message =>
    match key with
    | .string name => .ok (if name = "message" then .string message else .undefined)
    | _ => .ok .undefined
  | .native handle => (m.hosts.find handle).read (key.keyName m.heap) m.heap
  | other => .error (.invalidProperty (key.keyName m.heap) other.kind)

/-- Writes a property. -/
def setProperty (m : Machine) (target key v : Value) : Except Cause Unit × Machine :=
  match target with
  | .object o =>
    let name := key.keyName m.heap
    let slot := m.heap.fieldSlot (m.heap.fields o) name
    (.ok (), m.mapHeap (·.define slot name v))
  | .array a =>
    match key.toPosition? with
    | some i =>
      match Heap.checkIndex i with
      | .ok () => (.ok (), m.mapHeap (·.modifyArray a (Heap.place i v)))
      | .error cause => (.error cause, m)
    | none => (.error (.invalidProperty (key.keyName m.heap) .array), m)
  | .native handle =>
    let name := key.keyName m.heap
    let native := m.hosts.find handle
    m.onHeap (native.write name v)
  | other => (.error (.invalidProperty (key.keyName m.heap) other.kind), m)

end ScriptMachine.Machine
