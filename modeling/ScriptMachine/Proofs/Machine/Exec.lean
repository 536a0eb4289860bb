import Mathlib.Data.List.Induction
import ScriptMachine.Machine.Run

/-!
# Exec — what each instruction does to a given stack

One equation per instruction. The stack is written out as far as the instruction looks at it, so a
proof that knows the top entries rewrites with the equation and never opens `dispatch`.
-/

namespace ScriptMachine.Machine

variable {m : Machine} {i : Instruction} {v : Value} {s : List Entry}

/-- The machine with other entries on its stack. -/
def onStack (m : Machine) (entries : List Entry) : Machine := { m with stack := .ofList entries }

@[simp] theorem onStack_self (m : Machine) : m.onStack m.stack.entries = m := by
  have h : Stack.ofList m.stack.entries = m.stack := Stack.ext rfl
  simp only [onStack, h]

theorem eq_onStack {m : Machine} {s : List Entry} (h : m.stack.entries = s) : m = m.onStack s := by
  rw [← h, onStack_self]

@[simp] theorem entries_onStack (m : Machine) (s : List Entry) :
    (m.onStack s).stack.entries = s := rfl

@[simp] theorem heap_onStack (m : Machine) (s : List Entry) : (m.onStack s).heap = m.heap := rfl

@[simp] theorem env_onStack (m : Machine) (s : List Entry) : (m.onStack s).env = m.env := rfl

@[simp] theorem program_onStack (m : Machine) (s : List Entry) :
    (m.onStack s).program = m.program := rfl

/-! ### Steps of instructions -/

theorem exec_bind {α β : Type} (x : Exec α) (f : α → Exec β) (m : Machine) :
    (x >>= f) m = match x m with
      | .ok a m => f a m
      | .error c m => .error c m := by
  show EStateM.bind x f m = _
  unfold EStateM.bind
  cases x m <;> rfl

theorem exec_bind_ok {α β : Type} {x : Exec α} {f : α → Exec β} {a : α} {m₁ : Machine}
    (h : x m = .ok a m₁) : (x >>= f) m = f a m₁ := by
  rw [exec_bind, h]

theorem pop_value (m : Machine) (v : Value) (s : List Entry) :
    pop (m.onStack (.value v :: s)) = .ok v (m.onStack s) := rfl

/-- Arguments on the stack: the last one is on top. -/
def pushed (args : List Value) (s : List Entry) : List Entry := args.reverse.map Entry.value ++ s

theorem popOnto_pushed (m : Machine) (s : List Entry) (args taken : List Value) :
    popOnto taken args.length (m.onStack (pushed args s)) = .ok (args ++ taken) (m.onStack s) := by
  induction args using List.reverseRecOn generalizing taken with
  | nil => rfl
  | append_singleton args v ih =>
    have hs : pushed (args ++ [v]) s = .value v :: pushed args s := by simp [pushed]
    rw [hs, List.length_append, List.length_singleton, popOnto, exec_bind_ok (pop_value m v _)]
    rw [ih (v :: taken), List.append_assoc, List.singleton_append]

theorem popArgs_pushed (m : Machine) (s : List Entry) (args : List Value) :
    popArgs args.length (m.onStack (pushed args s)) = .ok args (m.onStack s) := by
  rw [popArgs, popOnto_pushed, List.append_nil]

/-! ### Values, names and properties -/

/-- The end of an instruction that pushes a value if it gets one. -/
def give (m : Machine) (s : List Entry) : Except Cause Value → EStateM.Result Cause Machine (Option Stop)
  | .ok v => .ok none (m.onStack (.value v :: s))
  | .error c => .error c (m.onStack s)

theorem dispatch_skip (h : i.op = .nop ∨ ∃ l, i.op = .label l) : dispatch i m = .ok none m := by
  obtain h | ⟨l, h⟩ := h <;> simp only [dispatch, h] <;> rfl

theorem dispatch_const {index : Nat} (h : i.op = .const index) (hv : m.program.constants[index]? = some v) :
    dispatch i (m.onStack s) = .ok none (m.onStack (.value v :: s)) := by
  simp only [dispatch, h]
  rw [exec_bind_ok (show readsOrFails _ (m.onStack s) = .ok v (m.onStack s) by
    simp only [readsOrFails, program_onStack, hv])]
  rfl

theorem dispatch_dup (h : i.op = .dup) :
    dispatch i (m.onStack (.value v :: s)) = .ok none (m.onStack (.value v :: .value v :: s)) := by
  simp only [dispatch, h]
  rfl

theorem dispatch_pop (h : i.op = .pop) :
    dispatch i (m.onStack (.value v :: s)) = .ok none (m.onStack s) := by
  simp only [dispatch, h]
  rfl

theorem dispatch_fetch {name : String} (h : i.op = .fetch name) :
    dispatch i (m.onStack s) = give m s (m.lookup name) := by
  have hl : (m.onStack s).lookup name = m.lookup name := rfl
  simp only [dispatch, h, exec_bind, readsOrFails, hl]
  cases m.lookup name <;> rfl

theorem dispatch_fetchProperty {name : String} {target : Value} (h : i.op = .fetchProperty name)
    (hn : name ≠ indexer) :
    dispatch i (m.onStack (.value target :: s)) = give m s (m.property target (.string name)) := by
  have hp : (m.onStack s).property target (.string name) = m.property target (.string name) := rfl
  simp only [dispatch, h, propertyKey, if_neg hn]
  rw [exec_bind_ok (show (pure (Value.string name) : Exec Value) _ = .ok _ _ from rfl),
    exec_bind_ok (pop_value m target s)]
  simp only [exec_bind, readsOrFails, hp]
  cases m.property target (.string name) <;> rfl

theorem dispatch_fetchElement {key target : Value} (h : i.op = .fetchProperty indexer) :
    dispatch i (m.onStack (.value key :: .value target :: s)) = give m s (m.property target key) := by
  have hp : (m.onStack s).property target key = m.property target key := rfl
  simp only [dispatch, h, propertyKey, if_pos]
  rw [exec_bind_ok (pop_value m key _), exec_bind_ok (pop_value m target s)]
  simp only [exec_bind, readsOrFails, hp]
  cases m.property target key <;> rfl

theorem dispatch_binary {op : BinaryOp} {a b : Value} (h : i.op = .binary op) :
    dispatch i (m.onStack (.value b :: .value a :: s)) = give m s (op.apply m.heap a b) := by
  simp only [dispatch, h]
  rw [exec_bind_ok (pop_value m b _), exec_bind_ok (pop_value m a s)]
  simp only [exec_bind, readsOrFails, heap_onStack]
  cases op.apply m.heap a b <;> rfl

theorem dispatch_store {name : String} (h : i.op = .store name) :
    dispatch i (m.onStack (.value v :: s)) =
      match m.heap.slot m.env name with
      | .ok slot => .ok none ((m.mapHeap (·.define slot name v)).onStack s)
      | .error c => .error c (m.onStack s) := by
  simp only [dispatch, h]
  rw [exec_bind_ok (pop_value m v s)]
  simp only [exec_bind, readsOrFails, heap_onStack, env_onStack]
  cases m.heap.slot m.env name <;> rfl

/-- The end of an instruction that changes the machine below the stack and gives no value. -/
def settleWrite (s : List Entry) :
    Except Cause Unit × Machine → EStateM.Result Cause Machine (Option Stop)
  | (.ok (), m) => .ok none (m.onStack s)
  | (.error c, m) => .error c (m.onStack s)

theorem setProperty_onStack (m : Machine) (s : List Entry) (target key v : Value) :
    (m.onStack s).setProperty target key v =
      ((m.setProperty target key v).1, (m.setProperty target key v).2.onStack s) := by
  unfold setProperty
  cases target with
  | array a =>
    cases hk : key.toPosition? with
    | none => simp only; rfl
    | some i => simp only; cases Heap.checkIndex i <;> rfl
  | _ => rfl

theorem changeOrFail_setProperty (m : Machine) (s : List Entry) (target key v : Value) :
    (changeOrFail (·.setProperty target key v) >>= fun _ => (pure none : Exec (Option Stop))) (m.onStack s) =
      settleWrite s (m.setProperty target key v) := by
  simp only [exec_bind, changeOrFail, setProperty_onStack]
  obtain ⟨r, m'⟩ := m.setProperty target key v
  cases r <;> rfl

theorem dispatch_storeProperty {name : String} {target : Value} (h : i.op = .storeProperty name)
    (hn : name ≠ indexer) :
    dispatch i (m.onStack (.value target :: .value v :: s)) =
      settleWrite s (m.setProperty target (.string name) v) := by
  simp only [dispatch, h, propertyKey, if_neg hn]
  rw [exec_bind_ok (show (pure (Value.string name) : Exec Value) _ = .ok _ _ from rfl),
    exec_bind_ok (pop_value m target _), exec_bind_ok (pop_value m v s), changeOrFail_setProperty]

theorem dispatch_storeElement {key target : Value} (h : i.op = .storeProperty indexer) :
    dispatch i (m.onStack (.value key :: .value target :: .value v :: s)) =
      settleWrite s (m.setProperty target key v) := by
  simp only [dispatch, h, propertyKey, if_pos]
  rw [exec_bind_ok (pop_value m key _), exec_bind_ok (pop_value m target _),
    exec_bind_ok (pop_value m v s), changeOrFail_setProperty]

theorem dispatch_declare {name : String} (h : i.op = .declare name) :
    dispatch i m = .ok none (m.mapHeap (·.define m.env name .undefined)) := by
  simp only [dispatch, h]
  rfl

/-! ### Jumps and calls -/

theorem jump_resolved {label pc : Nat} (h : m.program.jumpTarget? label = some pc) :
    jump label m = .ok () { m with pc } := by
  rw [jump, exec_bind_ok (show resolve label m = .ok pc m by simp only [resolve, readsOrFails, h])]
  rfl

theorem dispatch_jump {label pc : Nat} (h : i.op = .jump label)
    (hl : m.program.jumpTarget? label = some pc) : dispatch i m = .ok none { m with pc } := by
  simp only [dispatch, h]
  rw [exec_bind_ok (jump_resolved hl)]
  rfl

/-- The machine after a conditional jump that takes its operand. -/
def branch (m : Machine) (taken : Bool) (pc : Nat) : Machine := if taken then { m with pc } else m

theorem dispatch_jumpTrue {label pc : Nat} (h : i.op = .jumpTrue label)
    (hl : m.program.jumpTarget? label = some pc) :
    dispatch i (m.onStack (.value v :: s)) = .ok none ((m.branch v.isTruthy pc).onStack s) := by
  simp only [dispatch, h]
  rw [exec_bind_ok (pop_value m v s)]
  cases hv : v.isTruthy with
  | true =>
    rw [if_pos rfl, exec_bind_ok (jump_resolved (m := m.onStack s) hl)]
    rfl
  | false => rfl

theorem dispatch_jumpFalse {label pc : Nat} (h : i.op = .jumpFalse label)
    (hl : m.program.jumpTarget? label = some pc) :
    dispatch i (m.onStack (.value v :: s)) = .ok none ((m.branch (!v.isTruthy) pc).onStack s) := by
  simp only [dispatch, h]
  rw [exec_bind_ok (pop_value m v s)]
  cases hv : v.isTruthy with
  | true => rfl
  | false =>
    show (jump label >>= fun _ => (pure none : Exec (Option Stop))) (m.onStack s) = _
    rw [exec_bind_ok (jump_resolved (m := m.onStack s) hl)]
    rfl

/-- The end of an instruction that runs a host value. -/
def settleNative (s : List Entry) :
    Except Cause Value × Machine → EStateM.Result Cause Machine (Option Stop)
  | (.ok v, m) => .ok none (m.onStack (.value v :: s))
  | (.error c, m) => .error c (m.onStack s)

theorem push_callNative (m : Machine) (s : List Entry) (handle : NativeHandle)
    (receiver : Option Value) (args : List Value) :
    (do push (← changeOrFail (callNative handle receiver args)); return none : Exec (Option Stop))
      (m.onStack s) = settleNative s (callNative handle receiver args m) := by
  simp only [exec_bind, changeOrFail]
  have h : callNative handle receiver args (m.onStack s) =
      ((callNative handle receiver args m).1, (callNative handle receiver args m).2.onStack s) := rfl
  rw [h]
  obtain ⟨r, m'⟩ := callNative handle receiver args m
  cases r <;> rfl

/-- What a call of a value leads to. -/
def called (m : Machine) (s : List Entry) (callee : Value) (receiver : Option Value)
    (args : List Value) : EStateM.Result Cause Machine (Option Stop) :=
  match callee with
  | .function _ f => .ok none (enterFunction f receiver args false (m.onStack s))
  | .native handle =>
    if handle.callable then settleNative s (callNative handle receiver args m)
    else .error (.notCallable .native) (m.onStack s)
  | other => .error (.notCallable other.kind) (m.onStack s)

theorem callValue_eq (m : Machine) (s : List Entry) (callee : Value) (receiver : Option Value)
    (args : List Value) :
    (do callValue callee receiver args; return none : Exec (Option Stop)) (m.onStack s) =
      called m s callee receiver args := by
  unfold called
  cases callee with
  | native handle =>
    simp only [callValue]
    by_cases hc : handle.callable = true
    · simp only [hc, if_true, ← push_callNative, exec_bind]
      cases changeOrFail (callNative handle receiver args) (m.onStack s) <;> rfl
    · simp only [hc]
      rfl
  | _ => rfl

theorem dispatch_call {callee : Value} {args : List Value} (h : i.op = .call args.length false) :
    dispatch i (m.onStack (.value callee :: pushed args s)) = called m s callee none args := by
  simp only [dispatch, h]
  rw [exec_bind_ok (pop_value m callee _), if_neg Bool.false_ne_true,
    exec_bind_ok (show (pure none : Exec (Option Value)) _ = .ok none _ from rfl),
    exec_bind_ok (popArgs_pushed m s args), callValue_eq]

theorem dispatch_callMethod {callee receiver : Value} {args : List Value}
    (h : i.op = .call args.length true) :
    dispatch i (m.onStack (.value callee :: .value receiver :: pushed args s)) =
      called m s callee (some receiver) args := by
  simp only [dispatch, h]
  rw [exec_bind_ok (pop_value m callee _), if_pos trivial,
    exec_bind_ok (show (some <$> pop : Exec (Option Value)) _ = .ok (some receiver) (m.onStack (pushed args s)) from rfl),
    exec_bind_ok (popArgs_pushed m s args), callValue_eq]

theorem dispatch_ret {f : Frame} (h : i.op = .ret) :
    dispatch i (m.onStack (.value v :: .frame f :: s)) =
      .ok (if f.fromHost then some .hostReturn else none) ((m.atFrame f).onStack (.value v :: s)) := by
  simp only [dispatch, h]
  rfl

/-! ### Scopes, loops and try regions -/

theorem dispatch_enterScope (h : i.op = .enterScope) :
    dispatch i m =
      .ok none { m with env := (m.heap.newChild m.env).1, heap := (m.heap.newChild m.env).2 } := by
  simp only [dispatch, h]
  rfl

theorem dispatch_leaveScope {outer : ScopeId} (h : i.op = .leaveScope)
    (hp : m.heap.parent? m.env = some outer) : dispatch i m = .ok none { m with env := outer } := by
  simp only [dispatch, h]
  rw [exec_bind_ok (show reads _ m = .ok (some outer) m by simp only [reads, hp])]
  rfl

theorem dispatch_leaveRoot (h : i.op = .leaveScope) (hp : m.heap.parent? m.env = none) :
    dispatch i m = .error (.invariant .leaveRoot) m := by
  simp only [dispatch, h]
  rw [exec_bind_ok (show reads _ m = .ok none m by simp only [reads, hp])]
  rfl

theorem dispatch_loopStart (h : i.op = .loopStart) :
    dispatch i (m.onStack s) = .ok none (m.onStack (.loop m.env :: s)) := by
  simp only [dispatch, h]
  rfl

theorem dispatch_loopEnd {env : ScopeId} (h : i.op = .loopEnd) :
    dispatch i (m.onStack (.loop env :: s)) = .ok none (m.onStack s) := by
  simp only [dispatch, h]
  rfl

theorem dispatch_loopExit {env : ScopeId} {label pc : Nat} (h : i.op = .loopExit label)
    (hl : m.program.jumpTarget? label = some pc) :
    dispatch i (m.onStack (.loop env :: s)) = .ok none ({ m with env, pc }.onStack (.loop env :: s)) := by
  have hx : exitLoop label (m.onStack (.loop env :: s)) =
      jump label ({ m with env }.onStack (.loop env :: s)) := rfl
  simp only [dispatch, h]
  rw [exec_bind_ok (hx.trans (jump_resolved hl))]
  rfl

/-! Leaving a loop and opening a region, in parts. -/

theorem exitLoop_ok {label : Nat} {found : ScopeId × List Entry} (h : unwindLoop m.stack.entries = .ok found) :
    exitLoop label m = jump label { m with env := found.1, stack := .ofList found.2 } := by
  simp only [exitLoop, exec_bind, reads, h]
  rfl

theorem exitLoop_error {label : Nat} {found : Option Entry × List Entry}
    (h : unwindLoop m.stack.entries = .error found) :
    exitLoop label m = (unexpected "LOOP_EXIT" .loop found.1 : Exec Unit) { m with stack := .ofList found.2 } := by
  simp only [exitLoop, exec_bind, reads, h]
  rfl

/-- Puts a region on the stack, below the value that is kept. -/
def markRegion (handlerPc : Nat) (finalPc : Option Nat) (held : Option Value) : Exec Unit := do
  change fun m =>
    { m with stack := m.stack.push (.region ⟨m.sectionIndex, handlerPc, finalPc, m.env⟩) }
  match held with
  | some v => push v
  | none => return ()

/-- Opens a region once the value that is kept is off the stack. -/
def openHeld (handler : Nat) (final : Option Nat) (held : Option Value) : Exec Unit := do
  let handlerPc ← resolve handler
  let finalPc ← match final with
    | some l => some <$> resolve l
    | none => Pure.pure none
  markRegion handlerPc finalPc held

theorem openRegion_true (handler : Nat) (final : Option Nat) :
    openRegion handler final true = some <$> pop >>= openHeld handler final := rfl

theorem openRegion_false (handler : Nat) (final : Option Nat) :
    openRegion handler final false = openHeld handler final none := rfl

theorem openRegion_resolved {handler pc : Nat} {final : Option Nat} {finalPc : Option Nat}
    (hl : m.program.jumpTarget? handler = some pc)
    (hf : final.map m.program.jumpTarget? = finalPc.map some) :
    openRegion handler final false (m.onStack s) =
      .ok () (m.onStack (.region ⟨m.sectionIndex, pc, finalPc, m.env⟩ :: s)) := by
  have hr : ∀ {l p : Nat}, m.program.jumpTarget? l = some p →
      resolve l (m.onStack s) = .ok p (m.onStack s) := fun h => by
    simp only [resolve, readsOrFails, program_onStack, h]
  simp only [openRegion]
  rw [if_neg Bool.false_ne_true,
    exec_bind_ok (show (pure none : Exec (Option Value)) _ = .ok none _ from rfl),
    exec_bind_ok (hr hl)]
  cases final with
  | none =>
    cases finalPc with
    | none => rfl
    | some p => simp at hf
  | some l =>
    cases finalPc with
    | none => simp at hf
    | some p =>
      have hp : m.program.jumpTarget? l = some p := by simpa using hf
      have hm : (some <$> resolve l : Exec (Option Nat)) (m.onStack s) =
          .ok (some p) (m.onStack s) := by
        show EStateM.map some (resolve l) (m.onStack s) = _
        simp only [EStateM.map, hr hp]
      dsimp only
      rw [exec_bind_ok hm]
      rfl

theorem dispatch_tryStart {handler pc : Nat} {final finalPc : Option Nat}
    (h : i.op = .tryStart handler final false) (hl : m.program.jumpTarget? handler = some pc)
    (hf : final.map m.program.jumpTarget? = finalPc.map some) :
    dispatch i (m.onStack s) =
      .ok none (m.onStack (.region ⟨m.sectionIndex, pc, finalPc, m.env⟩ :: s)) := by
  simp only [dispatch, h]
  rw [exec_bind_ok (openRegion_resolved hl hf)]
  rfl

theorem dispatch_tryKeep {handler pc : Nat} (h : i.op = .tryStart handler none true)
    (hl : m.program.jumpTarget? handler = some pc) :
    dispatch i (m.onStack (.value v :: s)) =
      .ok none (m.onStack (.value v :: .region ⟨m.sectionIndex, pc, none, m.env⟩ :: s)) := by
  have hr : resolve handler (m.onStack s) = .ok pc (m.onStack s) := by
    simp only [resolve, readsOrFails, program_onStack, hl]
  have ho : openRegion handler none true (m.onStack (.value v :: s)) =
      .ok () (m.onStack (.value v :: .region ⟨m.sectionIndex, pc, none, m.env⟩ :: s)) := by
    simp only [openRegion]
    rw [if_pos trivial, exec_bind_ok (show (some <$> pop : Exec (Option Value)) _ =
      .ok (some v) (m.onStack s) from rfl), exec_bind_ok hr]
    rfl
  simp only [dispatch, h]
  rw [exec_bind_ok ho]
  rfl

theorem dispatch_tryEnd {r : Region} (h : i.op = .tryEnd) :
    dispatch i (m.onStack (.region r :: s)) = .ok none (m.onStack s) := by
  simp only [dispatch, h]
  rfl

theorem dispatch_throw (h : i.op = .throw) :
    dispatch i (m.onStack (.value v :: s)) = .error (.thrown v) (m.onStack s) := by
  simp only [dispatch, h]
  rfl

/-! ### Arrays, records and objects -/

theorem dispatch_createArray {items : List Value} (h : i.op = .createArray items.length) :
    dispatch i (m.onStack (pushed items s)) =
      .ok none ({ m with heap := (m.heap.newArray items.toArray).2 }.onStack
        (.value (.array (m.heap.newArray items.toArray).1) :: s)) := by
  simp only [dispatch, h]
  rw [exec_bind_ok (popArgs_pushed m s items)]
  rfl

/-- A new object with fields in order. -/
def newInstance (className : String) (globals : ScopeId) (fields : List (String × Value)) (h : Heap) :
    ObjectId × Heap :=
  ((h.newObject className globals).1,
   (h.newObject className globals).2.defineAll
    ((h.newObject className globals).2.fields (h.newObject className globals).1) fields)

theorem dispatch_createRecord {keys : List String} {values : List Value}
    (h : i.op = .createRecord keys) (hk : keys.length = values.length) :
    dispatch i (m.onStack (pushed values s)) =
      .ok none ({ m with heap := (newInstance recordClass m.globals (keys.zip values) m.heap).2 }.onStack
        (.value (.object (newInstance recordClass m.globals (keys.zip values) m.heap).1) :: s)) := by
  simp only [dispatch, h, createRecord, hk]
  rw [exec_bind, exec_bind_ok (popArgs_pushed m s values)]
  rfl

/-- The fields of a new object of a class. -/
def methodFields (named : List (String × Nat × ScriptFunction)) : List (String × Value) :=
  named.map fun (name, i, f) => (name, .function (.declared i) f)

/-- What `new` leads to. -/
def instantiated (m : Machine) (s : List Entry) (className : String) (args : List Value) :
    EStateM.Result Cause Machine (Option Stop) :=
  match m.program.classMethods? className with
  | some methods =>
    let named := namedMethods className methods
    let made := newInstance className m.globals (methodFields named) m.heap
    match named.reverse.find? fun (name, _) => name == Compile.constructorName with
    | some (_, _, f) =>
      .ok none (enterFunction f (some (.object made.1)) args false ({ m with heap := made.2 }.onStack s))
    | none => .ok none ({ m with heap := made.2 }.onStack (.value (.object made.1) :: s))
  | none =>
    match m.registry.get? className with
    | some handle =>
      if handle.callable then settleNative s (callNative handle none args m)
      else .error (.undefinedClass className) (m.onStack s)
    | none => .error (.undefinedClass className) (m.onStack s)

theorem dispatch_createObject {className : String} {args : List Value}
    (h : i.op = .createObject className args.length) :
    dispatch i (m.onStack (pushed args s)) = instantiated m s className args := by
  simp only [dispatch, h]
  rw [exec_bind_ok (popArgs_pushed m s args)]
  simp only [instantiate, instantiated]
  rw [exec_bind, exec_bind_ok (show reads _ (m.onStack s) =
    .ok (m.program.classMethods? className) (m.onStack s) from rfl)]
  cases m.program.classMethods? className with
  | some methods =>
    simp only
    cases hf : (namedMethods className methods).reverse.find?
        (fun x => x.1 == Compile.constructorName) with
    | none =>
      simp only [exec_bind, reads, allocate, onHeap_eq]
      rfl
    | some found =>
      simp only [exec_bind, reads, allocate, onHeap_eq]
      rfl
  | none =>
    simp only
    rw [exec_bind_ok (show reads _ (m.onStack s) = .ok (m.registry.get? className) (m.onStack s) from rfl)]
    cases m.registry.get? className with
    | none => rfl
    | some handle =>
      simp only
      by_cases hc : handle.callable = true
      · simp only [hc, if_true, ← push_callNative, exec_bind]
        cases changeOrFail (callNative handle none args) (m.onStack s) <;> rfl
      · simp only [hc]
        rfl

/-! ### Stops -/

theorem dispatch_eof (h : i.op = .eof) : dispatch i m = .ok (some .eof) m := by
  simp only [dispatch, h]
  rfl

theorem dispatch_debugger (h : i.op = .debugger) :
    dispatch i m =
      if 0 < m.hostCalls then .ok none m
      else .ok (some .breakpoint)
        { m with log := m.log.push ("debugger: paused at " ++ m.location i.span) } := by
  simp only [dispatch, h]
  rw [exec_bind_ok (show reads _ m = .ok m.hostCalls m from rfl)]
  split <;> rfl

end ScriptMachine.Machine
