import ScriptMachine.Compile.Generate
import ScriptMachine.Machine.Property

/-!
# Dispatch — what each instruction does

An instruction runs against the machine and either goes on, stops, or fails with a cause. A failure
keeps what the instruction has done up to then: operands that were taken stay taken.
-/

namespace ScriptMachine.Machine

/-- Steps of an instruction. -/
abbrev Exec := EStateM Cause Machine

/-- Something read from the machine. -/
@[inline] def reads {α : Type} (f : Machine → α) : Exec α := fun m => .ok (f m) m

/-- Something read from the machine that may fail. -/
@[inline] def readsOrFails {α : Type} (f : Machine → Except Cause α) : Exec α := fun m =>
  match f m with
  | .ok a => .ok a m
  | .error cause => .error cause m

/-- A change of the machine. -/
@[inline] def change (f : Machine → Machine) : Exec Unit := fun m => .ok () (f m)

/-- A change of the machine that may fail. -/
@[inline] def changeOrFail {α : Type} (f : Machine → Except Cause α × Machine) : Exec α := fun m =>
  match f m with
  | (.ok a, m) => .ok a m
  | (.error cause, m) => .error cause m

/-- An operation on the heap. -/
@[inline] def allocate {α : Type} (f : Heap → α × Heap) : Exec α := fun m =>
  let (a, m) := m.onHeap f
  .ok a m

/-! ### The stack -/

/-- Puts an entry on the stack. -/
def pushEntry (e : Entry) : Exec Unit := change fun m => { m with stack := m.stack.push e }

/-- Puts a value on the stack. -/
def push (v : Value) : Exec Unit := pushEntry (.value v)

/-- Takes the top entry. -/
def popEntry : Exec (Option Entry) := fun m =>
  let top := m.stack.top?
  .ok top { m with stack := m.stack.drop }

/-- The failure of an instruction that finds the wrong entry. -/
def unexpected {α : Type} (action : String) (expected : EntryKind) (found : Option Entry) : Exec α :=
  throw (.invariant (.unexpectedEntry action expected (found.map Entry.kind)))

/-- Takes a value. -/
def pop : Exec Value := do
  match ← popEntry with
  | some (.value v) => return v
  | other => unexpected "pop" .value other

/-- The top value. -/
def peek : Exec Value := do
  match ← reads (·.stack.top?) with
  | some (.value v) => return v
  | other => unexpected "peek" .value other

/-- Takes values, the last one first, and adds them in front of others. -/
def popOnto (values : List Value) : Nat → Exec (List Value)
  | 0 => return values
  | n + 1 => do popOnto ((← pop) :: values) n

/-- Takes values and gives them in the order in which they were pushed. Room for as many is assumed to
be there, as it is for what compiled code has pushed; no machine has it for a count from `2 ^ 58` on,
which can only be written by hand. -/
def popArgs (count : Nat) : Exec (List Value) := popOnto [] count

/-- Drops values down to a loop marker, which stays, and gives its scope. Any other entry in the way
is taken too and given with what lies below it. -/
def unwindLoop : List Entry → Except (Option Entry × List Entry) (ScopeId × List Entry)
  | .value _ :: rest => unwindLoop rest
  | .loop env :: rest => .ok (env, .loop env :: rest)
  | [] => .error (none, [])
  | e :: rest => .error (some e, rest)

/-! ### Names and jumps -/

/-- The place of a label. -/
def resolve (label : Nat) : Exec Nat := readsOrFails fun m =>
  match m.program.jumpTarget? label with
  | some pc => .ok pc
  | none => .error (.invariant (.unknownLabel label))

/-- Jumps to a label. -/
def jump (label : Nat) : Exec Unit := do
  let pc ← resolve label
  change fun m => { m with pc }

/-- The key of a property: on the stack for the `indexer`, else the name itself. -/
def propertyKey (name : String) : Exec Value :=
  if name = indexer then pop else return .string name

/-! ### Calls -/

/-- The scope of a call: inside the fields of an object that receives it, where `this` is the
object, else inside the globals. -/
def callScope (globals : ScopeId) (receiver : Option Value) (h : Heap) : ScopeId × Heap :=
  match receiver with
  | some (.object o) =>
    let (scope, h) := h.newChild (h.fields o)
    (scope, h.define scope thisName (.object o))
  | _ => h.newChild globals

/-- Parameters with their arguments; a parameter without an argument is `undefined`. -/
def bindParams : List String → List Value → List (String × Value)
  | [], _ => []
  | p :: ps, [] => (p, .undefined) :: bindParams ps []
  | p :: ps, v :: vs => (p, v) :: bindParams ps vs

/-- Puts a frame on the stack and goes to the first instruction of a function. -/
def enterFunction (f : ScriptFunction) (receiver : Option Value) (args : List Value)
    (fromHost : Bool) (m : Machine) : Machine :=
  let globals := m.globals
  let (scope, m) := m.onHeap fun h =>
    let (scope, h) := callScope globals receiver h
    (scope, h.defineAll scope (bindParams f.params args))
  let frame : Frame :=
    { returnSection := m.sectionIndex, returnPc := m.pc, env := m.env, callee := f.name, fromHost }
  { m with
    stack := m.stack.push (.frame frame), env := scope, sectionIndex := f.sectionIndex, pc := 0 }

/-- Calls a host value. -/
def callNative (handle : NativeHandle) (receiver : Option Value) (args : List Value) (m : Machine) :
    Except Cause Value × Machine :=
  let native := m.hosts.find handle
  let ((result, log), m) := m.onHeap fun h =>
    let r := native.call receiver args h
    ((r.result, r.log), r.heap)
  (result, { m with log := m.log ++ log })

/-- Calls a value: a function is entered, a host value runs and its result is pushed. -/
def callValue (callee : Value) (receiver : Option Value) (args : List Value) : Exec Unit :=
  match callee with
  | .function _ f => change (enterFunction f receiver args false)
  | .native handle =>
    if handle.callable then do push (← changeOrFail (callNative handle receiver args))
    else throw (.notCallable .native)
  | other => throw (.notCallable other.kind)

/-- The methods of a class by the names they have in it. -/
def namedMethods (className : String) (methods : List (Nat × ScriptFunction)) :
    List (String × Nat × ScriptFunction) :=
  methods.filterMap fun (i, f) => (f.methodOf? className).map fun name => (name, i, f)

/-- Makes an object of a class and enters its constructor, if it has one. A name that is no class
may be a host function. -/
def instantiate (className : String) (args : List Value) : Exec Unit := do
  match ← reads (·.program.classMethods? className) with
  | some methods =>
    let named := namedMethods className methods
    let globals ← reads (·.globals)
    let object ← allocate fun h =>
      let (object, h) := h.newObject className globals
      let fields := h.fields object
      (object, h.defineAll fields (named.map fun (name, i, f) => (name, .function (.declared i) f)))
    match named.reverse.find? fun (name, _) => name == Compile.constructorName with
    | some (_, _, f) => change (enterFunction f (some (.object object)) args false)
    | none => push (.object object)
  | none =>
    match ← reads (·.registry.get? className) with
    | some handle =>
      if handle.callable then push (← changeOrFail (callNative handle none args))
      else throw (.undefinedClass className)
    | none => throw (.undefinedClass className)

/-! ### Instructions -/

/-- The class of records. -/
def recordClass : String := "Object"

/-- Where an instruction stands, in words. -/
def location (m : Machine) (span : Span) : String :=
  (m.program.sectionName? m.sectionIndex).getD "?" ++ ":" ++ span.text

/-- Returns to the frame below the result. -/
def returnToFrame : Exec (Option Stop) := do
  let v ← pop
  match ← popEntry with
  | some (.frame f) =>
    change fun m => { m with sectionIndex := f.returnSection, pc := f.returnPc, env := f.env }
    push v
    return if f.fromHost then some .hostReturn else none
  | other => unexpected "RETURN" .frame other

/-- Leaves a loop or starts its next round: the stack and the scope are those of the marker. -/
def exitLoop (label : Nat) : Exec Unit := do
  match unwindLoop (← reads (·.stack.entries)) with
  | .ok (env, entries) =>
    change fun m => { m with env, stack := .ofList entries }
    jump label
  | .error (found, rest) =>
    change fun m => { m with stack := .ofList rest }
    unexpected "LOOP_EXIT" .loop found

/-- Opens a try region. -/
def openRegion (handler : Nat) (final : Option Nat) (keep : Bool) : Exec Unit := do
  let held ← if keep then some <$> pop else Pure.pure none
  let handlerPc ← resolve handler
  let finalPc ← match final with
    | some l => some <$> resolve l
    | none => Pure.pure none
  change fun m =>
    { m with stack := m.stack.push (.region ⟨m.sectionIndex, handlerPc, finalPc, m.env⟩) }
  match held with
  | some v => push v
  | none => return ()

/-- Makes a record. -/
def createRecord (keys : List String) : Exec Unit := do
  let values ← popArgs keys.length
  let globals ← reads (·.globals)
  let object ← allocate fun h =>
    let (object, h) := h.newObject recordClass globals
    let fields := h.fields object
    (object, h.defineAll fields (keys.zip values))
  push (.object object)

/-- Executes an instruction. -/
def dispatch (i : Instruction) : Exec (Option Stop) := do
  match i.op with
  | .nop | .label _ => return none
  | .const index =>
    push (← readsOrFails fun m =>
      match m.program.constants[index]? with
      | some v => .ok v
      | none => .error (.invariant (.constantRange index)))
    return none
  | .dup =>
    push (← peek)
    return none
  | .pop =>
    let _ ← pop
    return none
  | .fetch name =>
    push (← readsOrFails (·.lookup name))
    return none
  | .fetchProperty name =>
    let key ← propertyKey name
    let target ← pop
    push (← readsOrFails (·.property target key))
    return none
  | .store name =>
    let v ← pop
    let slot ← readsOrFails fun m => m.heap.slot m.env name
    change fun m => m.mapHeap (·.define slot name v)
    return none
  | .storeProperty name =>
    let key ← propertyKey name
    let target ← pop
    let v ← pop
    changeOrFail (·.setProperty target key v)
    return none
  | .declare name =>
    let env ← reads (·.env)
    change fun m => m.mapHeap (·.define env name .undefined)
    return none
  | .binary op =>
    let b ← pop
    let a ← pop
    push (← readsOrFails fun m => op.apply m.heap a b)
    return none
  | .jump label =>
    jump label
    return none
  | .jumpTrue label =>
    if (← pop).isTruthy then jump label
    return none
  | .jumpFalse label =>
    if !(← pop).isTruthy then jump label
    return none
  | .call argc isMethod =>
    let callee ← pop
    let receiver ← if isMethod then some <$> pop else Pure.pure none
    let args ← popArgs argc
    callValue callee receiver args
    return none
  | .ret => returnToFrame
  | .enterScope =>
    let env ← reads (·.env)
    let inner ← allocate (·.newChild env)
    change fun m => { m with env := inner }
    return none
  | .leaveScope =>
    match ← reads fun m => m.heap.parent? m.env with
    | some outer =>
      change fun m => { m with env := outer }
      return none
    | none => throw (.invariant .leaveRoot)
  | .loopStart =>
    change fun m => { m with stack := m.stack.push (.loop m.env) }
    return none
  | .loopEnd =>
    match ← popEntry with
    | some (.loop _) => return none
    | other => unexpected "LOOP_END" .loop other
  | .loopExit label =>
    exitLoop label
    return none
  | .tryStart handler final keep =>
    openRegion handler final keep
    return none
  | .tryEnd =>
    match ← popEntry with
    | some (.region _) => return none
    | other => unexpected "END_TRY" .region other
  | .throw => throw (.thrown (← pop))
  | .createObject className argc =>
    instantiate className (← popArgs argc)
    return none
  | .createArray count =>
    let items ← popArgs count
    push (.array (← allocate (·.newArray items.toArray)))
    return none
  | .createRecord keys =>
    createRecord keys
    return none
  | .debugger =>
    if 0 < (← reads (·.hostCalls)) then return none
    else
      change fun m => { m with log := m.log.push ("debugger: paused at " ++ m.location i.span) }
      return some .breakpoint
  | .eof => return some .eof

end ScriptMachine.Machine
