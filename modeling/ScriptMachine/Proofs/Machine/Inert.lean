import ScriptMachine.Proofs.Compile.Nesting
import ScriptMachine.Proofs.Machine.Guard
import ScriptMachine.Proofs.Value.Retention

/-!
# Inert — instructions that work on values

An inert instruction takes values from the stack, puts values there, and goes on to the next; or it enters a function.
`Idles` says this for the steps it is made of: the markers on the stack, the place and the scope stay (`Still`), and
so they do when the instruction fails with an error that can be caught.
-/

namespace ScriptMachine.Machine

/-- The entries of a stack from its topmost marker on. -/
def footing (entries : List Entry) : List Entry := entries.dropWhile fun e => !e.isMarker

/-- A machine stays at its place and in its scope, and only values above the topmost marker change. No scope is moved.
-/
structure Still (m u : Machine) : Prop where
  sectionIndex : u.sectionIndex = m.sectionIndex
  pc : u.pc = m.pc
  env : u.env = m.env
  hosts : u.hosts = m.hosts
  footing : footing u.stack.entries = footing m.stack.entries
  heap : Heap.Retains m.heap u.heap

variable {m v u : Machine}

theorem Still.refl (m : Machine) : Still m m := ⟨rfl, rfl, rfl, rfl, rfl, .refl _⟩

theorem Still.trans (h : Still m v) (h' : Still v u) : Still m u :=
  ⟨h'.sectionIndex.trans h.sectionIndex, h'.pc.trans h.pc, h'.env.trans h.env, h'.hosts.trans h.hosts,
    h'.footing.trans h.footing, h.heap.trans h'.heap⟩

/-- A machine goes on as it is, or enters a function. -/
def Enters (v u : Machine) : Prop := v = u ∨ ∃ f receiver args, u = enterFunction f receiver args false v

/-- Steps that keep a machine still up to the last one. Errors that can be caught find it still. -/
def Idles {α : Type} (last : Machine → Machine → Prop) (x : Exec α) : Prop :=
  ∀ m, m.hosts.Retain → match x m with
    | .ok _ u => ∃ v, Still m v ∧ last v u
    | .error c u => c.isCatchable = true → Still m u

section Rules

variable {α β : Type} {last : Machine → Machine → Prop}

theorem Idles.bind {x : Exec α} {f : α → Exec β} (hx : Idles Eq x) (hf : ∀ a, Idles last (f a)) :
    Idles last (x >>= f) := by
  intro m hm
  have h := hx m hm
  rw [exec_bind]
  cases hr : x m with
  | error c u => rw [hr] at h; exact h
  | ok a u =>
    rw [hr] at h
    obtain ⟨v, hstill, rfl⟩ := h
    have hnext := hf a v (by rw [hstill.hosts]; exact hm)
    simp only
    cases hr' : f a v with
    | ok b w =>
      rw [hr'] at hnext
      obtain ⟨z, hz, hlast⟩ := hnext
      exact ⟨z, hstill.trans hz, hlast⟩
    | error c w =>
      rw [hr'] at hnext
      exact fun hc => hstill.trans (hnext hc)

/-- The result of steps does not matter. -/
theorem Idles.returning {x : Exec α} (hx : Idles last x) (b : β) : Idles last (x >>= fun _ => (pure b : Exec β)) := by
  intro m hm
  have h := hx m hm
  rw [exec_bind]
  cases hr : x m <;> rw [hr] at h <;> exact h

theorem Idles.map {x : Exec α} {f : α → β} (hx : Idles last x) : Idles last (f <$> x) := by
  intro m hm
  have h := hx m hm
  show match EStateM.map f x m with
    | .ok _ u => _
    | .error c u => _
  unfold EStateM.map
  cases hr : x m <;> rw [hr] at h <;> exact h

theorem Idles.enters {x : Exec α} (hx : Idles Eq x) : Idles Enters x := by
  intro m hm
  have h := hx m hm
  cases hr : x m with
  | ok a u =>
    rw [hr] at h
    obtain ⟨v, hstill, he⟩ := h
    exact ⟨v, hstill, .inl he⟩
  | error c u => rw [hr] at h; exact h

theorem idles_change {f : Machine → Machine} (h : ∀ m, m.hosts.Retain → Still m (f m)) : Idles Eq (change f) :=
  fun m hm => ⟨f m, h m hm, rfl⟩

theorem idles_pure (a : α) : Idles Eq (pure a : Exec α) := fun m _ => ⟨m, .refl m, rfl⟩

theorem idles_reads (f : Machine → α) : Idles Eq (reads f) := fun m _ => ⟨m, .refl m, rfl⟩

theorem idles_throw (c : Cause) : Idles last (throw c : Exec α) := fun m _ _ => .refl m

theorem idles_allocate {f : Heap → α × Heap} (h : ∀ heap, Heap.Retains heap (f heap).2) :
    Idles Eq (allocate f) := fun m _ =>
  ⟨{ m with heap := (f m.heap).2 }, ⟨rfl, rfl, rfl, rfl, rfl, h m.heap⟩, rfl⟩

theorem idles_mapHeap {f : Machine → Heap → Heap} (h : ∀ m, Heap.Retains m.heap (f m m.heap)) :
    Idles Eq (change fun m => m.mapHeap (f m)) := idles_change fun m _ => ⟨rfl, rfl, rfl, rfl, rfl, h m⟩

theorem idles_readsOrFails (f : Machine → Except Cause α) : Idles Eq (readsOrFails f) := by
  intro m hm
  unfold readsOrFails
  cases f m with
  | ok a => exact ⟨m, .refl m, rfl⟩
  | error c => exact fun _ => .refl m

theorem idles_changeOrFail {f : Machine → Except Cause α × Machine} (h : ∀ m, m.hosts.Retain → Still m (f m).2) :
    Idles Eq (changeOrFail f) := by
  intro m hm
  have hstill := h m hm
  unfold changeOrFail
  cases hr : f m with
  | mk r u =>
    rw [hr] at hstill
    cases r with
    | ok a => exact ⟨u, hstill, rfl⟩
    | error c => exact fun _ => hstill

theorem idles_push (v : Value) : Idles Eq (push v) :=
  idles_change fun _ _ => ⟨rfl, rfl, rfl, rfl, rfl, .refl _⟩

/-- A value is taken, or the machine fails for good. -/
theorem idles_pop : Idles Eq pop := by
  intro m _
  cases hs : m.stack.entries with
  | nil =>
    simp only [pop, exec_bind, popEntry, Stack.top?, hs]
    intro hc
    cases hc
  | cons e s =>
    cases e with
    | value x =>
      have hfooting : footing m.stack.drop.entries = footing m.stack.entries := by rw [Stack.entries_drop, hs]; rfl
      simp only [pop, exec_bind, popEntry, Stack.top?, hs]
      exact ⟨{ m with stack := m.stack.drop }, ⟨rfl, rfl, rfl, rfl, hfooting, .refl _⟩, rfl⟩
    | _ =>
      simp only [pop, exec_bind, popEntry, Stack.top?, hs]
      intro hc
      cases hc

theorem idles_peek : Idles Eq peek := by
  refine (idles_reads _).bind fun e => ?_
  split
  · exact idles_pure _
  · exact idles_throw _

theorem idles_popOnto (values : List Value) (n : Nat) : Idles Eq (popOnto values n) := by
  induction n generalizing values with
  | zero => exact idles_pure values
  | succ n ih => exact idles_pop.bind fun v => ih (v :: values)

theorem idles_propertyKey (name : String) : Idles Eq (propertyKey name) := by
  unfold propertyKey
  split
  · exact idles_pop
  · exact idles_pure _

theorem idles_setProperty (target key v : Value) : Idles Eq (changeOrFail (·.setProperty target key v)) := by
  refine idles_changeOrFail fun m hm => ?_
  have hretains := setProperty_retains hm target key v
  rw [setProperty_heap]
  exact ⟨rfl, rfl, rfl, rfl, rfl, hretains⟩

/-! ### Calls -/

theorem idles_enter (f : ScriptFunction) (receiver : Option Value) (args : List Value) :
    Idles Enters (change (enterFunction f receiver args false)) := fun m _ =>
  ⟨m, .refl m, .inr ⟨f, receiver, args, rfl⟩⟩

theorem idles_callNative (handle : NativeHandle) (receiver : Option Value) (args : List Value) :
    Idles Eq (changeOrFail (callNative handle receiver args)) :=
  idles_changeOrFail fun _ hm => ⟨rfl, rfl, rfl, rfl, rfl, callNative_retains hm handle receiver args⟩

theorem idles_callValue (callee : Value) (receiver : Option Value) (args : List Value) :
    Idles Enters (callValue callee receiver args) := by
  unfold callValue
  split
  · exact idles_enter _ _ _
  · split
    · exact ((idles_callNative _ _ _).bind fun v => idles_push v).enters
    · exact idles_throw _
  · exact idles_throw _

theorem idles_instantiate (className : String) (args : List Value) : Idles Enters (instantiate className args) := by
  refine (idles_reads _).bind fun methods => ?_
  cases methods with
  | some methods =>
    refine (idles_reads _).bind fun globals =>
      (idles_allocate fun h => Heap.Retains.newInstance h className globals _).bind fun object => ?_
    split
    · exact idles_enter _ _ _
    · exact (idles_push _).enters
  | none =>
    refine (idles_reads _).bind fun handle => ?_
    split
    · split
      · exact ((idles_callNative _ _ _).bind fun v => idles_push v).enters
      · exact idles_throw _
    · exact idles_throw _

theorem idles_createRecord (keys : List String) : Idles Eq (createRecord keys) :=
  (idles_popOnto _ _).bind fun values => (idles_reads _).bind fun globals =>
    (idles_allocate fun h => Heap.Retains.newInstance h recordClass globals (keys.zip values)).bind fun _ =>
      idles_push _

/-- **An inert instruction keeps a machine still**, unless it enters a function. -/
theorem idles_dispatch {i : Instruction} (hop : i.op.isInert = true) : Idles Enters (dispatch i) := by
  unfold dispatch
  cases h : i.op with
  | nop | label _ => exact (idles_pure _).enters
  | const _ => exact ((idles_readsOrFails _).bind fun _ => (idles_push _).returning _).enters
  | dup => exact (idles_peek.bind fun _ => (idles_push _).returning _).enters
  | pop => exact (idles_pop.returning _).enters
  | fetch _ => exact ((idles_readsOrFails _).bind fun _ => (idles_push _).returning _).enters
  | fetchProperty _ =>
    exact ((idles_propertyKey _).bind fun _ => idles_pop.bind fun _ => (idles_readsOrFails _).bind fun _ =>
      (idles_push _).returning _).enters
  | store _ =>
    exact (idles_pop.bind fun _ => (idles_readsOrFails _).bind fun _ =>
      (idles_mapHeap fun _ => .define _ _ _ _).returning _).enters
  | storeProperty _ =>
    exact ((idles_propertyKey _).bind fun _ => idles_pop.bind fun _ => idles_pop.bind fun _ =>
      (idles_setProperty _ _ _).returning _).enters
  | declare _ =>
    exact ((idles_reads _).bind fun _ => (idles_mapHeap fun _ => .define _ _ _ _).returning _).enters
  | binary _ =>
    exact (idles_pop.bind fun _ => idles_pop.bind fun _ => (idles_readsOrFails _).bind fun _ =>
      (idles_push _).returning _).enters
  | call argc isMethod =>
    refine idles_pop.bind fun callee => ?_
    cases isMethod with
    | true =>
      exact idles_pop.map.bind fun _ => (idles_popOnto _ _).bind fun _ => (idles_callValue _ _ _).returning _
    | false =>
      exact (idles_pure _).bind fun _ => (idles_popOnto _ _).bind fun _ => (idles_callValue _ _ _).returning _
  | createObject _ _ => exact (idles_popOnto _ _).bind fun _ => (idles_instantiate _ _).returning _
  | createArray _ =>
    exact ((idles_popOnto _ _).bind fun _ => (idles_allocate fun _ => .of_scopes rfl).bind fun _ =>
      (idles_push _).returning _).enters
  | createRecord _ => exact ((idles_createRecord _).returning _).enters
  | debugger =>
    refine ((idles_reads _).bind fun n => ?_).enters
    split
    · exact idles_pure _
    · refine Idles.returning (idles_change fun m _ => ?_) _
      exact ⟨rfl, rfl, rfl, rfl, rfl, .refl _⟩
  | _ =>
    rw [h] at hop
    cases hop

end Rules

end ScriptMachine.Machine
