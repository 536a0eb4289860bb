import ScriptMachine.Proofs.Machine.Exec

/-!
# Guard — what an instruction leaves alone

Instructions take entries off the stack, but a call frame goes only by a return or by unwinding.
`Keeps` says this for any property of stacks that survives pushing an entry and taking one that is
no frame: every instruction other than a return keeps it, unless it ends in an error that cannot be
caught. A step also leaves most components of the machine as they are (`Steady`).
-/

namespace ScriptMachine.Machine

/-- The components that no instruction changes. -/
structure Steady (m m' : Machine) : Prop where
  program : m'.program = m.program
  config : m'.config = m.config
  globals : m'.globals = m.globals
  state : m'.state = m.state
  registry : m'.registry = m.registry
  hosts : m'.hosts = m.hosts
  hostCalls : m'.hostCalls = m.hostCalls

theorem Steady.refl (m : Machine) : Steady m m := ⟨rfl, rfl, rfl, rfl, rfl, rfl, rfl⟩

theorem Steady.trans {m₁ m₂ m₃ : Machine} (h : Steady m₁ m₂) (h' : Steady m₂ m₃) : Steady m₁ m₃ :=
  ⟨h'.program.trans h.program, h'.config.trans h.config, h'.globals.trans h.globals,
    h'.state.trans h.state, h'.registry.trans h.registry, h'.hosts.trans h.hosts,
    h'.hostCalls.trans h.hostCalls⟩

theorem Steady.of_start {m m' : Machine} {stack : Stack} {env : ScopeId}
    (h : Steady { m with stack, env } m') : Steady m m' :=
  ⟨h.program, h.config, h.globals, h.state, h.registry, h.hosts, h.hostCalls⟩

/-- A property `J` of stacks that survives everything but the removal of a frame, and what is left
of it, `K`, after any one removal. -/
structure Tolerant (J K : List Entry → Prop) : Prop where
  push : ∀ {e s}, (∀ f, e = .frame f → f.fromHost = false) → J s → J (e :: s)
  pop : ∀ {e s}, e.kind ≠ .frame → J (e :: s) → J s
  drop : ∀ {s}, J s → K s.tail

/-- A step keeps `J`; one that fails for good keeps `K`. -/
def Keeps {α : Type} (J K : List Entry → Prop) (x : Exec α) : Prop :=
  ∀ m, J m.stack.entries → match x m with
    | .ok _ m' => J m'.stack.entries ∧ Steady m m'
    | .error c m' => (if c.isCatchable then J m'.stack.entries else K m'.stack.entries) ∧ Steady m m'

section Rules

variable {α β : Type} {J K : List Entry → Prop}

theorem Keeps.bind {x : Exec α} {f : α → Exec β} (hx : Keeps J K x) (hf : ∀ a, Keeps J K (f a)) :
    Keeps J K (x >>= f) := by
  intro m hm
  have h := hx m hm
  rw [exec_bind]
  cases hr : x m with
  | error c m' => rw [hr] at h; exact h
  | ok a m' =>
    rw [hr] at h
    have h' := hf a m' h.1
    simp only
    cases hr' : f a m' with
    | ok b m'' => rw [hr'] at h'; exact ⟨h'.1, h.2.trans h'.2⟩
    | error c m'' => rw [hr'] at h'; exact ⟨h'.1, h.2.trans h'.2⟩

theorem Keeps.map {x : Exec α} {f : α → β} (hx : Keeps J K x) : Keeps J K (f <$> x) := by
  intro m hm
  have h := hx m hm
  show match EStateM.map f x m with
    | .ok _ m' => _
    | .error c m' => _
  unfold EStateM.map
  cases hr : x m with
  | ok a m' => rw [hr] at h; exact h
  | error c m' => rw [hr] at h; exact h

theorem keeps_pure (a : α) : Keeps J K (pure a : Exec α) := fun m hm => ⟨hm, .refl m⟩

theorem keeps_reads (f : Machine → α) : Keeps J K (reads f) := fun m hm => ⟨hm, .refl m⟩

theorem keeps_change {f : Machine → Machine} (h : ∀ m, J m.stack.entries →
    J (f m).stack.entries ∧ Steady m (f m)) : Keeps J K (change f) := h

theorem keeps_allocate (f : Heap → α × Heap) : Keeps J K (allocate f) := fun _ hm =>
  ⟨hm, rfl, rfl, rfl, rfl, rfl, rfl, rfl⟩

variable (hJ : Tolerant J K)
include hJ

theorem Tolerant.weaken {s : List Entry} (h : J s) : K s := by
  have h' : J (.value .undefined :: s) := hJ.push (fun _ h => nomatch h) h
  exact hJ.drop h'

theorem Tolerant.ite {c : Cause} {s : List Entry} (h : J s) : if c.isCatchable then J s else K s := by
  split
  · exact h
  · exact hJ.weaken h

theorem keeps_throw (c : Cause) : Keeps J K (throw c : Exec α) := fun m hm => ⟨hJ.ite hm, .refl m⟩

theorem keeps_readsOrFails (f : Machine → Except Cause α) : Keeps J K (readsOrFails f) := by
  intro m hm
  unfold readsOrFails
  cases f m with
  | ok a => exact ⟨hm, .refl m⟩
  | error c => exact ⟨hJ.ite hm, .refl m⟩

theorem keeps_changeOrFail {f : Machine → Except Cause α × Machine}
    (h : ∀ m, (f m).2.stack = m.stack ∧ Steady m (f m).2) : Keeps J K (changeOrFail f) := by
  intro m hm
  obtain ⟨hs, hk⟩ := h m
  unfold changeOrFail
  cases hr : f m with
  | mk r m' =>
    rw [hr] at hs hk
    simp only at hs hk
    cases r with
    | ok a => exact ⟨by rw [hs]; exact hm, hk⟩
    | error c => exact ⟨by rw [hs]; exact hJ.ite hm, hk⟩

theorem keeps_push (v : Value) : Keeps J K (push v) :=
  keeps_change fun _ hm =>
    ⟨hJ.push (fun _ h => nomatch h) hm, rfl, rfl, rfl, rfl, rfl, rfl, rfl⟩

/-- Taking an entry of a kind other than a frame, or failing for good. -/
theorem keeps_take {f : Option Entry → Exec α}
    (hgood : ∀ e, e.kind ≠ .frame → Keeps J K (f (some e)))
    (hbad : ∀ e m, (∀ e', e = some e' → e'.kind = .frame) → ∃ b, f e m = .error (.invariant b) m) :
    Keeps J K (popEntry >>= f) := by
  intro m hm
  have hd : K m.stack.drop.entries := hJ.drop hm
  rw [exec_bind]
  simp only [popEntry]
  by_cases hk : ∀ e', m.stack.top? = some e' → e'.kind = .frame
  · obtain ⟨b, hb⟩ := hbad m.stack.top? { m with stack := m.stack.drop } hk
    rw [hb]
    exact ⟨hd, rfl, rfl, rfl, rfl, rfl, rfl, rfl⟩
  · push Not at hk
    obtain ⟨e, he, hne⟩ := hk
    obtain ⟨s, hs⟩ : ∃ s, m.stack.entries = e :: s := List.head?_eq_some_iff.1 he
    have hjs : J m.stack.drop.entries := by
      rw [hs] at hm
      rw [Stack.entries_drop, hs]
      exact hJ.pop hne hm
    have h := hgood e hne { m with stack := m.stack.drop } hjs
    rw [he]
    cases hr : f (some e) { m with stack := m.stack.drop } with
    | ok a m' =>
      rw [hr] at h
      exact ⟨h.1, h.2.of_start⟩
    | error c m' =>
      rw [hr] at h
      exact ⟨h.1, h.2.of_start⟩

theorem keeps_unexpected (action : String) (kind : EntryKind) (found : Option Entry) :
    Keeps J K (unexpected action kind found : Exec α) := keeps_throw hJ _

theorem keeps_pop : Keeps J K pop := by
  refine keeps_take hJ (fun e he => ?_) fun e m he => ?_
  · cases e with
    | value v => exact keeps_pure v
    | _ => exact keeps_unexpected hJ _ _ _
  · cases e with
    | none => exact ⟨_, rfl⟩
    | some e =>
      cases e with
      | value v => exact absurd (he _ rfl) (by simp [Entry.kind])
      | _ => exact ⟨_, rfl⟩

theorem keeps_peek : Keeps J K peek := by
  refine (keeps_reads _).bind fun e => ?_
  cases e with
  | none => exact keeps_unexpected hJ _ _ _
  | some e =>
    cases e with
    | value v => exact keeps_pure v
    | _ => exact keeps_unexpected hJ _ _ _

theorem keeps_popOnto (values : List Value) (n : Nat) : Keeps J K (popOnto values n) := by
  induction n generalizing values with
  | zero => exact keeps_pure values
  | succ n ih => exact (keeps_pop hJ).bind fun v => ih (v :: values)

theorem keeps_jump (label : Nat) : Keeps J K (jump label) :=
  (keeps_readsOrFails hJ _).bind fun _ =>
    keeps_change fun _ hm => ⟨hm, rfl, rfl, rfl, rfl, rfl, rfl, rfl⟩

theorem keeps_propertyKey (name : String) : Keeps J K (propertyKey name) := by
  unfold propertyKey
  split
  · exact keeps_pop hJ
  · exact keeps_pure _

theorem keeps_enter (f : ScriptFunction) (receiver : Option Value) (args : List Value) :
    Keeps J K (change (enterFunction f receiver args false)) :=
  keeps_change fun _ hm => ⟨hJ.push (fun _ h => by cases h; rfl) hm, rfl, rfl, rfl, rfl, rfl, rfl, rfl⟩

theorem keeps_callNative (handle : NativeHandle) (receiver : Option Value) (args : List Value) :
    Keeps J K (changeOrFail (callNative handle receiver args)) :=
  keeps_changeOrFail hJ fun _ => ⟨rfl, rfl, rfl, rfl, rfl, rfl, rfl, rfl⟩

theorem keeps_callValue (callee : Value) (receiver : Option Value) (args : List Value) :
    Keeps J K (callValue callee receiver args) := by
  unfold callValue
  split
  · exact keeps_enter hJ _ _ _
  · split
    · exact (keeps_callNative hJ _ _ _).bind fun v => keeps_push hJ v
    · exact keeps_throw hJ _
  · exact keeps_throw hJ _

theorem keeps_instantiate (className : String) (args : List Value) :
    Keeps J K (instantiate className args) := by
  refine (keeps_reads _).bind fun methods => ?_
  cases methods with
  | some methods =>
    refine (keeps_reads _).bind fun globals => (keeps_allocate _).bind fun object => ?_
    split
    · exact keeps_enter hJ _ _ _
    · exact keeps_push hJ _
  | none =>
    refine (keeps_reads _).bind fun handle => ?_
    split
    · split
      · exact (keeps_callNative hJ _ _ _).bind fun v => keeps_push hJ v
      · exact keeps_throw hJ _
    · exact keeps_throw hJ _

theorem Tolerant.unwindLoop_ok {s t : List Entry} {env : ScopeId} (h : unwindLoop s = .ok (env, t))
    (hs : J s) : J t := by
  induction s with
  | nil => simp [unwindLoop] at h
  | cons e s ih =>
    cases e with
    | value v => exact ih h (hJ.pop (by simp [Entry.kind]) hs)
    | loop env' =>
      simp only [unwindLoop, Except.ok.injEq, Prod.mk.injEq] at h
      rw [← h.2]
      exact hs
    | frame f => simp [unwindLoop] at h
    | region r => simp [unwindLoop] at h

theorem Tolerant.unwindLoop_error {s t : List Entry} {found : Option Entry}
    (h : unwindLoop s = .error (found, t)) (hs : J s) : K t := by
  induction s with
  | nil =>
    simp only [unwindLoop, Except.error.injEq, Prod.mk.injEq] at h
    rw [← h.2]
    exact hJ.weaken hs
  | cons e s ih =>
    cases e with
    | value v => exact ih h (hJ.pop (by simp [Entry.kind]) hs)
    | loop env' => simp [unwindLoop] at h
    | frame f =>
      simp only [unwindLoop, Except.error.injEq, Prod.mk.injEq] at h
      rw [← h.2]
      exact hJ.drop hs
    | region r =>
      simp only [unwindLoop, Except.error.injEq, Prod.mk.injEq] at h
      rw [← h.2]
      exact hJ.drop hs

theorem keeps_exitLoop (label : Nat) : Keeps J K (exitLoop label) := by
  intro m hm
  cases hu : unwindLoop m.stack.entries with
  | ok found =>
    have h := keeps_jump hJ label { m with env := found.1, stack := .ofList found.2 }
      (hJ.unwindLoop_ok hu hm)
    rw [exitLoop_ok hu]
    cases hr : jump label { m with env := found.1, stack := .ofList found.2 } with
    | ok a m' => rw [hr] at h; exact ⟨h.1, h.2.of_start⟩
    | error c m' => rw [hr] at h; exact ⟨h.1, h.2.of_start⟩
  | error found =>
    rw [exitLoop_error hu]
    exact ⟨hJ.unwindLoop_error hu hm, rfl, rfl, rfl, rfl, rfl, rfl, rfl⟩

theorem keeps_openRegion (handler : Nat) (final : Option Nat) (keep : Bool) :
    Keeps J K (openRegion handler final keep) := by
  have hrest : ∀ held handlerPc finalPc, Keeps J K (markRegion handlerPc finalPc held) := fun held handlerPc finalPc => by
    refine Keeps.bind (keeps_change fun m hm =>
      ⟨hJ.push (fun _ h => by cases h) hm, rfl, rfl, rfl, rfl, rfl, rfl, rfl⟩) fun _ => ?_
    cases held with
    | some v => exact keeps_push hJ v
    | none => exact keeps_pure ()
  have hfinal : ∀ held, Keeps J K (openHeld handler final held) := fun held => by
    refine (keeps_readsOrFails hJ _).bind fun handlerPc => ?_
    cases final with
    | some l => exact (keeps_readsOrFails hJ _).map.bind fun finalPc => hrest _ _ _
    | none => exact (keeps_pure none).bind fun finalPc => hrest _ _ _
  cases keep with
  | true =>
    rw [openRegion_true]
    exact (keeps_pop hJ).map.bind fun held => hfinal held
  | false =>
    rw [openRegion_false]
    exact hfinal none

theorem keeps_createRecord (keys : List String) : Keeps J K (createRecord keys) :=
  (keeps_popOnto hJ _ _).bind fun _ => (keeps_reads _).bind fun _ =>
    (keeps_allocate _).bind fun _ => keeps_push hJ _

omit hJ in
theorem keeps_mapHeap (f : Machine → Heap → Heap) : Keeps J K (change fun m => m.mapHeap (f m)) :=
  keeps_change fun _ hm => ⟨hm, rfl, rfl, rfl, rfl, rfl, rfl, rfl⟩

theorem keeps_setProperty (target key v : Value) :
    Keeps J K (changeOrFail (·.setProperty target key v)) := by
  refine keeps_changeOrFail hJ fun m => ?_
  unfold setProperty
  split
  · exact ⟨rfl, rfl, rfl, rfl, rfl, rfl, rfl, rfl⟩
  · split
    · split <;> exact ⟨rfl, rfl, rfl, rfl, rfl, rfl, rfl, rfl⟩
    · exact ⟨rfl, .refl m⟩
  · exact ⟨rfl, rfl, rfl, rfl, rfl, rfl, rfl, rfl⟩
  · exact ⟨rfl, .refl m⟩

/-- Every instruction other than a return keeps what survives the removal of entries that are no
frames. -/
theorem keeps_dispatch {i : Instruction} (hop : i.op ≠ .ret) : Keeps J K (dispatch i) := by
  unfold dispatch
  cases h : i.op with
  | nop => exact keeps_pure _
  | label _ => exact keeps_pure _
  | const _ =>
    exact (keeps_readsOrFails hJ _).bind fun _ => (keeps_push hJ _).bind fun _ => keeps_pure _
  | dup => exact (keeps_peek hJ).bind fun _ => (keeps_push hJ _).bind fun _ => keeps_pure _
  | pop => exact (keeps_pop hJ).bind fun _ => keeps_pure _
  | fetch _ =>
    exact (keeps_readsOrFails hJ _).bind fun _ => (keeps_push hJ _).bind fun _ => keeps_pure _
  | fetchProperty _ =>
    exact (keeps_propertyKey hJ _).bind fun _ => (keeps_pop hJ).bind fun _ =>
      (keeps_readsOrFails hJ _).bind fun _ => (keeps_push hJ _).bind fun _ => keeps_pure _
  | store _ =>
    exact (keeps_pop hJ).bind fun _ => (keeps_readsOrFails hJ _).bind fun _ =>
      (keeps_mapHeap _).bind fun _ => keeps_pure _
  | storeProperty _ =>
    exact (keeps_propertyKey hJ _).bind fun _ => (keeps_pop hJ).bind fun _ =>
      (keeps_pop hJ).bind fun _ => (keeps_setProperty hJ _ _ _).bind fun _ => keeps_pure _
  | declare _ =>
    exact (keeps_reads _).bind fun _ => (keeps_mapHeap _).bind fun _ => keeps_pure _
  | binary _ =>
    exact (keeps_pop hJ).bind fun _ => (keeps_pop hJ).bind fun _ =>
      (keeps_readsOrFails hJ _).bind fun _ => (keeps_push hJ _).bind fun _ => keeps_pure _
  | jump _ => exact (keeps_jump hJ _).bind fun _ => keeps_pure _
  | jumpTrue _ =>
    refine (keeps_pop hJ).bind fun v => ?_
    split
    · exact (keeps_jump hJ _).bind fun _ => keeps_pure _
    · exact keeps_pure _
  | jumpFalse _ =>
    refine (keeps_pop hJ).bind fun v => ?_
    split
    · exact (keeps_jump hJ _).bind fun _ => keeps_pure _
    · exact keeps_pure _
  | call argc isMethod =>
    refine (keeps_pop hJ).bind fun callee => ?_
    cases isMethod with
    | true =>
      exact (keeps_pop hJ).map.bind fun _ => (keeps_popOnto hJ _ _).bind fun _ =>
        (keeps_callValue hJ _ _ _).bind fun _ => keeps_pure _
    | false =>
      exact (keeps_pure _).bind fun _ => (keeps_popOnto hJ _ _).bind fun _ =>
        (keeps_callValue hJ _ _ _).bind fun _ => keeps_pure _
  | ret => exact absurd h hop
  | enterScope =>
    refine (keeps_reads _).bind fun _ => (keeps_allocate _).bind fun _ =>
      Keeps.bind (keeps_change fun m hm => ?_) fun _ => keeps_pure _
    exact ⟨hm, rfl, rfl, rfl, rfl, rfl, rfl, rfl⟩
  | leaveScope =>
    refine (keeps_reads _).bind fun outer => ?_
    cases outer with
    | some outer =>
      refine Keeps.bind (keeps_change fun m hm => ?_) fun _ => keeps_pure _
      exact ⟨hm, rfl, rfl, rfl, rfl, rfl, rfl, rfl⟩
    | none => exact keeps_throw hJ _
  | loopStart =>
    refine Keeps.bind (keeps_change fun m hm => ?_) fun _ => keeps_pure _
    exact ⟨hJ.push (fun _ h => nomatch h) hm, rfl, rfl, rfl, rfl, rfl, rfl, rfl⟩
  | loopEnd =>
    refine keeps_take hJ (fun e _ => ?_) fun e m he => ?_
    · cases e with
      | loop env => exact keeps_pure _
      | _ => exact keeps_unexpected hJ _ _ _
    · cases e with
      | none => exact ⟨_, rfl⟩
      | some e =>
        cases e with
        | loop env => exact absurd (he _ rfl) (by simp [Entry.kind])
        | _ => exact ⟨_, rfl⟩
  | loopExit _ => exact (keeps_exitLoop hJ _).bind fun _ => keeps_pure _
  | tryStart _ _ _ => exact (keeps_openRegion hJ _ _ _).bind fun _ => keeps_pure _
  | tryEnd =>
    refine keeps_take hJ (fun e _ => ?_) fun e m he => ?_
    · cases e with
      | region r => exact keeps_pure _
      | _ => exact keeps_unexpected hJ _ _ _
    · cases e with
      | none => exact ⟨_, rfl⟩
      | some e =>
        cases e with
        | region r => exact absurd (he _ rfl) (by simp [Entry.kind])
        | _ => exact ⟨_, rfl⟩
  | throw => exact (keeps_pop hJ).bind fun _ => keeps_throw hJ _
  | createObject _ _ =>
    exact (keeps_popOnto hJ _ _).bind fun _ => (keeps_instantiate hJ _ _).bind fun _ => keeps_pure _
  | createArray _ =>
    exact (keeps_popOnto hJ _ _).bind fun _ => (keeps_allocate _).bind fun _ =>
      (keeps_push hJ _).bind fun _ => keeps_pure _
  | createRecord _ => exact (keeps_createRecord hJ _).bind fun _ => keeps_pure _
  | debugger =>
    refine (keeps_reads _).bind fun n => ?_
    split
    · exact keeps_pure _
    · refine Keeps.bind (keeps_change fun m hm => ?_) fun _ => keeps_pure _
      exact ⟨hm, rfl, rfl, rfl, rfl, rfl, rfl, rfl⟩
  | eof => exact keeps_pure _

end Rules

/-- Every instruction, a return included, leaves the components alone that none changes. -/
theorem steady_dispatch (i : Instruction) (m : Machine) :
    match dispatch i m with
    | .ok _ m' => Steady m m'
    | .error _ m' => Steady m m' := by
  have hJ : Tolerant (fun _ => True) (fun _ => True) := ⟨fun _ _ => trivial, fun _ _ => trivial, fun _ => trivial⟩
  have hk : Keeps (fun _ => True) (fun _ => True) (dispatch i) := by
    by_cases hop : i.op = .ret
    · have hentry : Keeps (fun _ => True) (fun _ => True) popEntry := fun _ _ =>
        ⟨trivial, rfl, rfl, rfl, rfl, rfl, rfl, rfl⟩
      unfold dispatch
      rw [hop]
      refine (keeps_pop hJ).bind fun v => hentry.bind fun e => ?_
      split
      · refine Keeps.bind (keeps_change fun _ _ => ⟨trivial, rfl, rfl, rfl, rfl, rfl, rfl, rfl⟩) fun _ => ?_
        exact (keeps_push hJ v).bind fun _ => keeps_pure _
      · exact keeps_unexpected hJ _ _ _
    · exact keeps_dispatch hJ hop
  have h := hk m trivial
  cases hd : dispatch i m with
  | ok r m' => rw [hd] at h; exact h.2
  | error c m' => rw [hd] at h; exact h.2

/-! ### Stops -/

/-- The operation that stops a machine for a reason. -/
def stopOp? : Stop → Option Opcode
  | .eof => some .eof
  | .breakpoint => some .debugger
  | .hostReturn => some .ret
  | .boundary => none

/-- A step stops the machine for no other reasons. -/
def StopsFor (R : Stop → Prop) (x : Exec (Option Stop)) : Prop := ∀ m r m', x m = .ok (some r) m' → R r

section

variable {R : Stop → Prop}

theorem stopsFor_bind {α : Type} {x : Exec α} {f : α → Exec (Option Stop)} (h : ∀ a, StopsFor R (f a)) :
    StopsFor R (x >>= f) := by
  intro m r m' hb
  rw [exec_bind] at hb
  cases hx : x m with
  | ok a m₁ => rw [hx] at hb; exact h a _ _ _ hb
  | error c m₁ => rw [hx] at hb; cases hb

theorem stopsFor_pure {r : Option Stop} (h : ∀ s, r = some s → R s) : StopsFor R (pure r) := by
  intro m s m' hb
  cases hb
  exact h s rfl

theorem stopsFor_throw (c : Cause) : StopsFor R (throw c) := fun _ _ _ h => nomatch h

end

/-- An instruction stops the machine only for the reason that its operation stands for. -/
theorem stopsFor_dispatch (i : Instruction) : StopsFor (fun r => stopOp? r = some i.op) (dispatch i) := by
  have hgo : ∀ {op : Opcode}, StopsFor (fun r => stopOp? r = some op) (pure none) := stopsFor_pure nofun
  unfold dispatch
  cases i.op with
  | nop | label => exact hgo
  | eof => exact stopsFor_pure fun _ h => by cases h; rfl
  | ret =>
    refine stopsFor_bind fun v => stopsFor_bind fun e => ?_
    split
    · refine stopsFor_bind fun _ => stopsFor_bind fun _ => stopsFor_pure fun r h => ?_
      split at h <;> cases h
      rfl
    · exact stopsFor_throw _
  | jumpTrue _ | jumpFalse _ =>
    refine stopsFor_bind fun v => ?_
    split
    · exact stopsFor_bind fun _ => hgo
    · exact hgo
  | call _ isMethod =>
    refine stopsFor_bind fun callee => ?_
    cases isMethod <;>
      exact stopsFor_bind fun _ => stopsFor_bind fun _ => stopsFor_bind fun _ => hgo
  | leaveScope =>
    refine stopsFor_bind fun outer => ?_
    cases outer with
    | some outer => exact stopsFor_bind fun _ => hgo
    | none => exact stopsFor_throw _
  | loopEnd | tryEnd =>
    refine stopsFor_bind fun e => ?_
    split
    · exact hgo
    · exact stopsFor_throw _
  | throw => exact stopsFor_bind fun _ => stopsFor_throw _
  | debugger =>
    refine stopsFor_bind fun n => ?_
    split
    · exact hgo
    · exact stopsFor_bind fun _ => stopsFor_pure fun _ h => by cases h; rfl
  | dup | pop | loopExit _ | tryStart _ _ _ | createRecord _ | jump _ | loopStart | const _ | fetch _
  | declare _ | createObject _ _ | createArray _ | enterScope | binary _ | fetchProperty _ | store _
  | storeProperty _ =>
    repeat refine stopsFor_bind fun _ => ?_
    exact hgo

/-- Only a return hands control back to the host. -/
theorem silent_dispatch {i : Instruction} (hop : i.op ≠ .ret) (m m' : Machine) :
    dispatch i m ≠ .ok (some .hostReturn) m' := fun h =>
  hop (Option.some.inj (stopsFor_dispatch i m _ m' h)).symm

end ScriptMachine.Machine
