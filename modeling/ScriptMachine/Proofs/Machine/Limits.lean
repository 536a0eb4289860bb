import ScriptMachine.Proofs.Machine.HostCall
import ScriptMachine.Proofs.Machine.Service
import ScriptMachine.Proofs.Machine.Slicing

/-!
# Limits — what a machine can use up

The limits are checked before every instruction, so it matters how much one instruction can add: one
entry to the stack, whatever it takes off before, and one to the count of instructions. `Bounds` says so
of the operations that instructions are made of. Over a run this keeps the depth of the stack within the
limit, but for one entry that the next check finds, and the count at most at its own limit, which is what
makes every request end.
-/

namespace ScriptMachine.Machine

/-! ### One instruction -/

/-- From a stack of at most `b` entries: a success leaves as many as its result allows, a failure at most
one more than `n`. Instructions do not count themselves. -/
def Bounds {α : Type} (n b : Nat) (post : α → Nat) (x : Exec α) : Prop :=
  ∀ m, m.stack.depth ≤ b → match x m with
    | .ok a m' => m'.stack.depth ≤ post a ∧ m'.cycles = m.cycles
    | .error _ m' => m'.stack.depth ≤ n + 1 ∧ m'.cycles = m.cycles

section Rules

variable {α β : Type} {n b c : Nat} {post : β → Nat}

theorem Bounds.bind {x : Exec α} {f : α → Exec β} (hx : Bounds n b (fun _ => c) x)
    (hf : ∀ a, Bounds n c post (f a)) : Bounds n b post (x >>= f) := by
  intro m hm
  have h := hx m hm
  rw [exec_bind]
  cases hr : x m with
  | error cause m' => rw [hr] at h; exact h
  | ok a m' =>
    rw [hr] at h
    have h' := hf a m' h.1
    simp only
    cases hr' : f a m' with
    | ok _ m'' => rw [hr'] at h'; exact ⟨h'.1, h'.2.trans h.2⟩
    | error _ m'' => rw [hr'] at h'; exact ⟨h'.1, h'.2.trans h.2⟩

theorem Bounds.map {x : Exec α} {f : α → β} (hx : Bounds n b (fun _ => c) x) :
    Bounds n b (fun _ => c) (f <$> x) := by
  intro m hm
  have h := hx m hm
  show match EStateM.map f x m with
    | .ok _ m' => _
    | .error _ m' => _
  unfold EStateM.map
  cases hr : x m with
  | ok a m' => rw [hr] at h; exact h
  | error _ m' => rw [hr] at h; exact h

theorem Bounds.mono {d : Nat} {x : Exec α} (hx : Bounds n b (fun _ => d) x) (hd : d ≤ c := by omega) :
    Bounds n b (fun _ => c) x := by
  intro m hm
  have h := hx m hm
  cases hr : x m with
  | ok a m' => rw [hr] at h; exact ⟨Nat.le_trans h.1 hd, h.2⟩
  | error _ m' => rw [hr] at h; exact h

theorem bounds_pure (a : β) (hb : b ≤ c := by omega) : Bounds n b (fun _ => c) (pure a : Exec β) :=
  fun _ hm => ⟨Nat.le_trans hm hb, rfl⟩

theorem bounds_reads (f : Machine → α) : Bounds n b (fun _ => b) (reads f) := fun _ hm => ⟨hm, rfl⟩

theorem bounds_change {f : Machine → Machine}
    (h : ∀ m, m.stack.depth ≤ b → (f m).stack.depth ≤ c ∧ (f m).cycles = m.cycles) :
    Bounds n b (fun _ => c) (change f) := h

theorem bounds_allocate (f : Heap → α × Heap) : Bounds n b (fun _ => b) (allocate f) := fun _ hm => ⟨hm, rfl⟩

theorem bounds_push (v : Value) : Bounds n b (fun _ => b + 1) (push v) :=
  fun _ hm => ⟨Nat.succ_le_succ hm, rfl⟩

theorem bounds_popEntry : Bounds n b (fun _ => b - 1) popEntry := fun _ hm =>
  ⟨Nat.sub_le_sub_right hm 1, rfl⟩

theorem bounds_throw (cause : Cause) (hb : b ≤ n + 1 := by omega) : Bounds n b post (throw cause : Exec β) :=
  fun _ hm => ⟨Nat.le_trans hm hb, rfl⟩

theorem bounds_unexpected (action : String) (kind : EntryKind) (found : Option Entry) (hb : b ≤ n + 1 := by omega) :
    Bounds n b post (unexpected action kind found : Exec β) := bounds_throw _ hb

theorem bounds_readsOrFails (f : Machine → Except Cause α) (hb : b ≤ n + 1 := by omega) :
    Bounds n b (fun _ => b) (readsOrFails f) := by
  intro m hm
  unfold readsOrFails
  cases f m with
  | ok a => exact ⟨hm, rfl⟩
  | error cause => exact ⟨Nat.le_trans hm hb, rfl⟩

theorem bounds_changeOrFail {f : Machine → Except Cause α × Machine}
    (h : ∀ m, (f m).2.stack = m.stack ∧ (f m).2.cycles = m.cycles) (hb : b ≤ n + 1 := by omega) :
    Bounds n b (fun _ => b) (changeOrFail f) := by
  intro m hm
  obtain ⟨hs, hk⟩ := h m
  unfold changeOrFail
  cases hr : f m with
  | mk r m' =>
    rw [hr] at hs hk
    simp only at hs hk
    rw [← hs] at hm
    cases r with
    | ok a => exact ⟨hm, hk⟩
    | error cause => exact ⟨Nat.le_trans hm hb, hk⟩

theorem bounds_pop (hb : b ≤ n + 2 := by omega) : Bounds n b (fun _ => b - 1) pop := by
  refine bounds_popEntry.bind fun e => ?_
  split
  · exact bounds_pure _ (Nat.le_refl _)
  · exact bounds_unexpected _ _ _ (by omega)

theorem bounds_peek (hb : b ≤ n + 1 := by omega) : Bounds n b (fun _ => b) peek := by
  refine (bounds_reads _).bind fun e => ?_
  split
  · exact bounds_pure _ (Nat.le_refl _)
  · exact bounds_unexpected _ _ _ hb

theorem bounds_popOnto (values : List Value) (count : Nat) (hb : b ≤ n + 1 := by omega) :
    Bounds n b (fun _ => b) (popOnto values count) := by
  induction count generalizing values b with
  | zero => exact bounds_pure _ (Nat.le_refl _)
  | succ count ih => exact (bounds_pop (by omega)).bind fun v => (ih _ (by omega)).mono (Nat.sub_le _ _)

theorem bounds_popArgs (count : Nat) (hb : b ≤ n + 1 := by omega) : Bounds n b (fun _ => b) (popArgs count) :=
  bounds_popOnto _ _ hb

theorem bounds_jump (label : Nat) (hb : b ≤ n + 1 := by omega) : Bounds n b (fun _ => b) (jump label) :=
  (bounds_readsOrFails _ hb).bind fun _ => bounds_change fun _ hm => ⟨hm, rfl⟩

theorem bounds_propertyKey (name : String) (hb : b ≤ n + 1 := by omega) :
    Bounds n b (fun _ => b) (propertyKey name) := by
  unfold propertyKey
  split
  · exact (bounds_pop (by omega)).mono (Nat.sub_le _ _)
  · exact bounds_pure _ (Nat.le_refl _)

theorem bounds_enter (f : ScriptFunction) (receiver : Option Value) (args : List Value) (fromHost : Bool) :
    Bounds n b (fun _ => b + 1) (change (enterFunction f receiver args fromHost)) :=
  bounds_change fun _ hm => ⟨Nat.succ_le_succ hm, rfl⟩

theorem bounds_callNative (handle : NativeHandle) (receiver : Option Value) (args : List Value)
    (hb : b ≤ n + 1 := by omega) : Bounds n b (fun _ => b) (changeOrFail (callNative handle receiver args)) :=
  bounds_changeOrFail (fun _ => ⟨rfl, rfl⟩) hb

theorem bounds_callValue (callee : Value) (receiver : Option Value) (args : List Value) (hb : b ≤ n + 1 := by omega) :
    Bounds n b (fun _ => b + 1) (callValue callee receiver args) := by
  unfold callValue
  split
  · exact bounds_enter _ _ _ _
  · split
    · exact (bounds_callNative _ _ _ hb).bind fun _ => bounds_push _
    · exact bounds_throw _ hb
  · exact bounds_throw _ hb

theorem bounds_instantiate (className : String) (args : List Value) (hb : b ≤ n + 1 := by omega) :
    Bounds n b (fun _ => b + 1) (instantiate className args) := by
  refine (bounds_reads _).bind fun methods => ?_
  cases methods with
  | some methods =>
    refine (bounds_reads _).bind fun _ => (bounds_allocate _).bind fun _ => ?_
    split
    · exact bounds_enter _ _ _ _
    · exact bounds_push _
  | none =>
    refine (bounds_reads _).bind fun handle => ?_
    cases handle with
    | some handle =>
      simp only
      split
      · exact (bounds_callNative _ _ _ hb).bind fun _ => bounds_push _
      · exact bounds_throw _ hb
    | none => exact bounds_throw _ hb

theorem length_unwindLoop_ok {s t : List Entry} {env : ScopeId} (h : unwindLoop s = .ok (env, t)) :
    t.length ≤ s.length := by
  induction s with
  | nil => cases h
  | cons e rest ih =>
    cases e with
    | value v => exact Nat.le_succ_of_le (ih h)
    | loop env => cases h; exact Nat.le_refl _
    | _ => cases h

theorem length_unwindLoop_error {s t : List Entry} {found : Option Entry} (h : unwindLoop s = .error (found, t)) :
    t.length ≤ s.length := by
  induction s with
  | nil => cases h; exact Nat.le_refl _
  | cons e rest ih =>
    cases e with
    | value v => exact Nat.le_succ_of_le (ih h)
    | loop env => cases h
    | frame f | region r => cases h; exact Nat.le_succ _

theorem bounds_exitLoop (label : Nat) (hb : b ≤ n + 1 := by omega) : Bounds n b (fun _ => b) (exitLoop label) := by
  intro m hm
  rw [m.stack.depth_eq] at hm
  cases hu : unwindLoop m.stack.entries with
  | ok found =>
    have hlength := Nat.le_trans (length_unwindLoop_ok hu) hm
    rw [exitLoop_ok hu]
    exact bounds_jump label hb { m with env := found.1, stack := .ofList found.2 } hlength
  | error found =>
    have hlength := Nat.le_trans (length_unwindLoop_error hu) hm
    have hfails : Bounds n b (fun _ => b) (unexpected "LOOP_EXIT" .loop found.1 : Exec Unit) :=
      bounds_unexpected _ _ _ hb
    rw [exitLoop_error hu]
    exact hfails { m with stack := .ofList found.2 } hlength

theorem bounds_resolve (label : Nat) (hb : b ≤ n + 1 := by omega) : Bounds n b (fun _ => b) (resolve label) :=
  bounds_readsOrFails _ hb

/-- There is nothing to take from an empty stack. -/
theorem bounds_pop_empty {f : Value → Exec β} : Bounds n 0 post (pop >>= f) := by
  intro m hm
  have hempty : m.stack.entries = [] := List.eq_nil_of_length_eq_zero (by rw [← m.stack.depth_eq]; omega)
  have hpop : pop m = .error (.invariant (.unexpectedEntry "pop" .value none)) { m with stack := m.stack.drop } := by
    simp only [pop, popEntry, exec_bind, Stack.top?, hempty, List.head?_nil]
    rfl
  rw [exec_bind, hpop]
  exact ⟨Nat.le_trans (Nat.sub_le _ _) (by omega), rfl⟩

/-- What opens a region once its value is off the stack. -/
theorem bounds_openHeld (handler : Nat) (final : Option Nat) (held : Option Value) (hheld : b + held.toList.length ≤ c)
    (hb : b ≤ n + 1) : Bounds n b (fun _ => c + 1) (openHeld handler final held) := by
  have hrest : ∀ handlerPc finalPc, Bounds n b (fun _ => c + 1) (markRegion handlerPc finalPc held) :=
      fun handlerPc finalPc => by
    have hmark : Bounds n b (fun _ => b + 1) (change fun m =>
        { m with stack := m.stack.push (.region ⟨m.sectionIndex, handlerPc, finalPc, m.env⟩) }) :=
      bounds_change fun _ hm => ⟨Nat.succ_le_succ hm, rfl⟩
    refine hmark.bind fun _ => ?_
    cases held with
    | some v =>
      rw [Option.toList_some, List.length_singleton] at hheld
      exact (bounds_push v).mono (by omega)
    | none =>
      rw [Option.toList_none, List.length_nil] at hheld
      exact bounds_pure () (by omega)
  refine (bounds_resolve _ hb).bind fun handlerPc => ?_
  cases final with
  | some l => exact (bounds_resolve l hb).map.bind fun finalPc => hrest _ _
  | none => exact (bounds_pure none (Nat.le_refl _)).bind fun finalPc => hrest _ _

theorem bounds_openRegion (handler : Nat) (final : Option Nat) (keep : Bool) (hb : b ≤ n + 1 := by omega) :
    Bounds n b (fun _ => b + 1) (openRegion handler final keep) := by
  cases keep with
  | false =>
    rw [openRegion_false]
    exact bounds_openHeld handler final none (Nat.le_refl _) hb
  | true =>
    rw [openRegion_true, bind_map_left]
    cases b with
    | zero => exact bounds_pop_empty
    | succ b =>
      exact (bounds_pop (by omega)).bind fun v => bounds_openHeld handler final (some v) (Nat.le_refl _) (by omega)

theorem bounds_createRecord (keys : List String) (hb : b ≤ n + 1 := by omega) :
    Bounds n b (fun _ => b + 1) (createRecord keys) :=
  (bounds_popArgs _ hb).bind fun _ => (bounds_reads _).bind fun _ => (bounds_allocate _).bind fun _ => bounds_push _

theorem bounds_setProperty (target key v : Value) (hb : b ≤ n + 1 := by omega) :
    Bounds n b (fun _ => b) (changeOrFail (·.setProperty target key v)) := by
  refine bounds_changeOrFail (fun m => ?_) hb
  unfold setProperty
  split
  · exact ⟨rfl, rfl⟩
  · split
    · split <;> exact ⟨rfl, rfl⟩
    · exact ⟨rfl, rfl⟩
  · exact ⟨rfl, rfl⟩
  · exact ⟨rfl, rfl⟩

end Rules

/-- How deep an instruction may leave a stack of `n` entries: an instruction that stops the machine adds
nothing. -/
def room (n : Nat) : Option Stop → Nat
  | none => n + 1
  | some _ => n

theorem bounds_none {n b : Nat} (hb : b ≤ n + 1 := by omega) : Bounds n b (room n) (pure none) :=
  fun _ hm => ⟨Nat.le_trans hm hb, rfl⟩

theorem bounds_some {n b : Nat} (reason : Stop) (hb : b ≤ n := by omega) : Bounds n b (room n) (pure (some reason)) :=
  fun _ hm => ⟨Nat.le_trans hm hb, rfl⟩

/-- A return takes off a value and a frame before it puts the value back. -/
theorem bounds_returnToFrame (n : Nat) : Bounds n n (room n) returnToFrame := by
  cases n with
  | zero => exact bounds_pop_empty
  | succ n =>
    refine (bounds_pop (by omega)).bind fun v => bounds_popEntry.bind fun e => ?_
    split
    · refine Bounds.bind (bounds_change fun _ hm => ⟨hm, rfl⟩) fun _ => (bounds_push v).bind fun _ => ?_
      split
      · exact bounds_some _ (by omega)
      · exact bounds_none (by omega)
    · exact bounds_unexpected _ _ _ (by omega)

/-- **One instruction adds at most one entry to the stack.** -/
theorem bounds_dispatch (n : Nat) (i : Instruction) : Bounds n n (room n) (dispatch i) := by
  unfold dispatch
  cases i.op with
  | nop | label => exact bounds_none
  | const | fetch =>
    exact (bounds_readsOrFails _).bind fun _ => (bounds_push _).bind fun _ => bounds_none
  | dup => exact Bounds.bind bounds_peek fun _ => (bounds_push _).bind fun _ => bounds_none
  | pop => exact Bounds.bind bounds_pop fun _ => bounds_none
  | fetchProperty =>
    exact (bounds_propertyKey _).bind fun _ => Bounds.bind bounds_pop fun _ =>
      (bounds_readsOrFails _).bind fun _ => (bounds_push _).bind fun _ => bounds_none
  | store =>
    exact Bounds.bind bounds_pop fun _ => (bounds_readsOrFails _).bind fun _ =>
      (bounds_change fun _ hm => ⟨hm, rfl⟩).bind fun _ => bounds_none
  | storeProperty =>
    exact (bounds_propertyKey _).bind fun _ => Bounds.bind bounds_pop fun _ =>
      Bounds.bind bounds_pop fun _ => (bounds_setProperty _ _ _).bind fun _ => bounds_none
  | declare =>
    exact (bounds_reads _).bind fun _ => (bounds_change fun _ hm => ⟨hm, rfl⟩).bind fun _ => bounds_none
  | binary =>
    exact Bounds.bind bounds_pop fun _ => Bounds.bind bounds_pop fun _ =>
      (bounds_readsOrFails _).bind fun _ => (bounds_push _).bind fun _ => bounds_none
  | jump => exact (bounds_jump _).bind fun _ => bounds_none
  | jumpTrue | jumpFalse =>
    refine Bounds.bind bounds_pop fun v => ?_
    split
    · exact (bounds_jump _).bind fun _ => bounds_none
    · exact bounds_none
  | call argc isMethod =>
    refine Bounds.bind bounds_pop fun callee => ?_
    cases isMethod with
    | true =>
      exact (Bounds.map bounds_pop).bind fun _ => (bounds_popArgs _).bind fun _ =>
        (bounds_callValue _ _ _).bind fun _ => bounds_none
    | false =>
      exact (bounds_pure none (Nat.le_refl _)).bind fun _ => (bounds_popArgs _).bind fun _ =>
        (bounds_callValue _ _ _).bind fun _ => bounds_none
  | ret => exact bounds_returnToFrame n
  | enterScope =>
    exact (bounds_reads _).bind fun _ => (bounds_allocate _).bind fun _ =>
      (bounds_change fun _ hm => ⟨hm, rfl⟩).bind fun _ => bounds_none
  | leaveScope =>
    refine (bounds_reads _).bind fun outer => ?_
    cases outer with
    | some outer => exact (bounds_change fun _ hm => ⟨hm, rfl⟩).bind fun _ => bounds_none
    | none => exact bounds_throw _
  | loopStart =>
    have hmark : Bounds n n (fun _ => n + 1) (change fun m => { m with stack := m.stack.push (.loop m.env) }) :=
      bounds_change fun _ hm => ⟨Nat.succ_le_succ hm, rfl⟩
    exact hmark.bind fun _ => bounds_none
  | loopEnd | tryEnd =>
    refine bounds_popEntry.bind fun e => ?_
    split
    · exact bounds_none
    · exact bounds_unexpected _ _ _
  | loopExit => exact (bounds_exitLoop _).bind fun _ => bounds_none
  | tryStart => exact (bounds_openRegion _ _ _).bind fun _ => bounds_none
  | throw => exact Bounds.bind bounds_pop fun _ => bounds_throw _
  | createObject =>
    exact (bounds_popArgs _).bind fun _ => (bounds_instantiate _ _).bind fun _ => bounds_none
  | createArray =>
    exact (bounds_popArgs _).bind fun _ => (bounds_allocate _).bind fun _ => (bounds_push _).bind fun _ => bounds_none
  | createRecord => exact (bounds_createRecord _).bind fun _ => bounds_none
  | debugger =>
    refine (bounds_reads _).bind fun _ => ?_
    split
    · exact bounds_none
    · exact (bounds_change fun _ hm => ⟨hm, rfl⟩).bind fun _ => bounds_some _
  | eof => exact bounds_some _

/-! ### One step of a run -/

variable {config : Config} {mode : Mode} {fuel : Nat} {first b : Bool} {m m' v v' u : Machine}

/-- Unwinding takes something off the stack unless it ends at the bottom. -/
theorem unwind_shorter {last : Option Frame} {s below : List Entry} {frames : List Frame} {landing : Landing}
    (h : unwind last s = (landing, frames)) (hl : (∃ r, landing = .region r below) ∨ ∃ f, landing = .host f below) :
    below.length < s.length := by
  induction s generalizing last frames with
  | nil =>
    cases h
    rcases hl with ⟨_, hl⟩ | ⟨_, hl⟩ <;> cases hl
  | cons e rest ih =>
    cases e with
    | value v | loop env => exact Nat.lt_succ_of_lt (ih h)
    | region r =>
      cases h
      rcases hl with ⟨_, hl⟩ | ⟨_, hl⟩ <;> cases hl
      exact Nat.lt_succ_self _
    | frame f =>
      rw [unwind] at h
      split at h
      · cases h
        rcases hl with ⟨_, hl⟩ | ⟨_, hl⟩ <;> cases hl
        exact Nat.lt_succ_self _
      · rcases hrest : unwind (some f) rest with ⟨landing', frames'⟩
        rw [hrest] at h
        cases h
        exact Nat.lt_succ_of_lt (ih hrest)

/-- A machine within its limits, but for one entry that the next check finds. -/
structure Within (limits : Config) (m : Machine) : Prop where
  config : m.config = limits
  depth : m.stack.depth ≤ limits.maxStack + 1
  cycles : ∀ limit, limits.maxCycles = some limit → m.cycles ≤ limit

/-- A machine that rests within its limits unless it has failed. -/
structure Settled (limits : Config) (m : Machine) : Prop extends Within limits m where
  rest : m.state ≠ .error → m.stack.depth ≤ limits.maxStack

/-- What is left of the limits after one instruction. -/
def Tick.Keeps (limits : Config) (cycles : Nat) : Tick → Prop
  | .next u => Within limits u ∧ u.cycles = cycles
  | .stop _ u => (Within limits u ∧ u.stack.depth ≤ limits.maxStack) ∧ u.cycles = cycles
  | .fault _ u => Settled limits u ∧ u.cycles = cycles

theorem Within.fatal (hv : Within config v) (cause : Cause) (span : Option Span) :
    Settled config (v.fatal cause span).2 :=
  ⟨⟨hv.config, hv.depth, hv.cycles⟩, fun hstate => absurd rfl hstate⟩

/-- Where an error goes, nothing is added to the stack. -/
theorem Within.routed (hu : Within config u) (cause : Cause) (span : Span) :
    (u.routed cause span).Keeps config u.cycles := by
  have hdepth := hu.depth
  rw [u.stack.depth_eq] at hdepth
  unfold Machine.routed handle
  by_cases hc : cause.isCatchable = true
  · simp only [hc, Bool.not_true, Bool.false_eq_true, if_false, onHeap_eq]
    rcases hland : unwind none u.stack.entries with ⟨landing, frames⟩
    cases landing with
    | region r below =>
      have hless := unwind_shorter hland (.inl ⟨r, rfl⟩)
      exact ⟨⟨hu.config, Nat.le_trans hless hdepth, hu.cycles⟩, rfl⟩
    | host f below =>
      have hless := unwind_shorter hland (.inr ⟨f, rfl⟩)
      have hbelow : below.length ≤ config.maxStack := Nat.le_of_lt_succ (Nat.lt_of_lt_of_le hless hdepth)
      exact ⟨⟨⟨hu.config, Nat.le_succ_of_le hbelow, hu.cycles⟩, fun _ => hbelow⟩, rfl⟩
    | bottom last =>
      cases last <;>
        exact ⟨⟨⟨hu.config, Nat.zero_le _, hu.cycles⟩, fun hstate => absurd rfl hstate⟩, rfl⟩
  · simp only [hc, Bool.not_false, if_true]
    exact ⟨hu.fatal _ _, rfl⟩

/-- A machine that executes its instruction is within both limits. -/
theorem limits_of_fetches (h : v.fetches mode first = true) :
    v.stack.depth ≤ v.config.maxStack ∧ ∀ limit, v.config.maxCycles = some limit → v.cycles < limit := by
  rw [fetches, Bool.and_eq_true, Option.isNone_iff_eq_none] at h
  have hlimit := h.1
  unfold exceeded? at hlimit
  split at hlimit
  · cases hlimit
  · rename_i hdepth
    refine ⟨Nat.le_of_not_lt hdepth, fun limit hl => ?_⟩
    simp only [hl] at hlimit
    by_contra hcycles
    rw [if_pos (Nat.le_of_not_lt hcycles)] at hlimit
    cases hlimit

/-- **One instruction keeps a machine within its limits**, and counts one if it is executed. -/
theorem Within.tick (hv : Within config v) (mode : Mode) (first : Bool) :
    (v.tick mode first).Keeps config (v.cycles + (v.fetches mode first).toNat) := by
  rcases tick_cases mode first v with ⟨-, -, ht, hfetch, hrun⟩ | ⟨ht, hfetch⟩
  · rw [ht, hfetch]
    exact ⟨⟨hv, hv.config ▸ (limits_of_fetches hrun).1⟩, rfl⟩
  rw [ht, hfetch]
  by_cases hrun : v.fetches .run true = true
  · obtain ⟨i, hi⟩ := tick_of_fetches hrun
    obtain ⟨hdepth, hcycles⟩ := limits_of_fetches hrun
    rw [hv.config] at hdepth hcycles
    have hbounds := bounds_dispatch config.maxStack i v.fetching hdepth
    have hsteady := steady_dispatch i v.fetching
    have hwithin : ∀ u : Machine, u.config = v.config → u.stack.depth ≤ config.maxStack + 1 →
        u.cycles = v.cycles + 1 → Within config u := fun u hconfig hd hc =>
      ⟨hconfig.trans hv.config, hd, fun limit hl => by rw [hc]; exact hcycles limit hl⟩
    rw [hi, hrun]
    cases hd : dispatch i v.fetching with
    | ok r u =>
      rw [hd] at hbounds hsteady
      cases r with
      | none => exact ⟨hwithin u hsteady.config hbounds.1 hbounds.2, hbounds.2⟩
      | some reason =>
        exact ⟨⟨hwithin u hsteady.config (Nat.le_succ_of_le hbounds.1) hbounds.2, hbounds.1⟩, hbounds.2⟩
    | error cause u =>
      rw [hd] at hbounds hsteady
      have hcount : u.cycles = v.cycles + true.toNat := hbounds.2
      rw [← hcount]
      exact (hwithin u hsteady.config hbounds.1 hbounds.2).routed cause i.span
  · obtain ⟨fault, hfault, -⟩ := tick_of_not_fetches (Bool.eq_false_iff.2 hrun)
    rw [hfault, Bool.eq_false_iff.2 hrun]
    exact ⟨⟨⟨hv.config, hv.depth, hv.cycles⟩, fun hstate => absurd rfl hstate⟩, rfl⟩

/-! ### Runs -/

/-- A machine that passes an instruction on executes it. -/
theorem executes_of_next (h : v.tick mode first = .next u) : v.fetches mode first = true := by
  rcases tick_cases mode first v with ⟨-, -, ht, -⟩ | ⟨ht, hfetch⟩
  · cases h.symm.trans ht
  · rw [hfetch, fetches_of_next (ht.symm.trans h)]

/-- All through a run the machine is within its limits. -/
theorem Within.passes (hv : Within config v) (hp : Passes mode first v b v') : Within config v' := by
  refine hp.invariant hv fun b v₁ v₂ hv₁ ht => ?_
  have hkeeps := hv₁.tick mode b
  rw [ht] at hkeeps
  exact hkeeps.1

/-- What a run leaves, and how many instructions it has executed. -/
theorem Within.drive {r : Except Fault Stop} (hv : Within config v) (h : drive mode fuel first v = some (r, u)) :
    u.cycles = v.cycles + (visited mode fuel first v).length ∧ Settled config u ∧
      ((∃ reason, r = .ok reason) → u.stack.depth ≤ config.maxStack) := by
  induction fuel generalizing first v with
  | zero => cases h
  | succ fuel ih =>
    have hkeeps := hv.tick mode first
    unfold Machine.drive at h
    unfold visited
    cases ht : v.tick mode first with
    | next v₁ =>
      rw [ht] at h hkeeps
      rw [executes_of_next ht] at hkeeps
      obtain ⟨hcycles, hrest⟩ := ih hkeeps.1 h
      refine ⟨?_, hrest⟩
      rw [hcycles, hkeeps.2, if_pos (executes_of_next ht), List.length_cons]
      simp only [Bool.toNat_true]
      omega
    | stop reason u =>
      rw [ht] at h hkeeps
      cases h
      obtain ⟨⟨hwithin, hdepth⟩, hcycles⟩ := hkeeps
      refine ⟨?_, ⟨hwithin, fun _ => hdepth⟩, fun _ => hdepth⟩
      rw [hcycles]
      cases v.fetches mode first <;> rfl
    | fault fault u =>
      rw [ht] at h hkeeps
      cases h
      refine ⟨?_, hkeeps.1, by rintro ⟨_, ⟨⟩⟩⟩
      rw [hkeeps.2]
      cases v.fetches mode first <;> rfl

/-- With a limit on instructions every run ends. -/
theorem Within.drive_isSome {limit : Nat} (hv : Within config v) (hl : config.maxCycles = some limit)
    (hf : limit < v.cycles + fuel) : (Machine.drive mode fuel first v).isSome = true := by
  induction fuel generalizing first v with
  | zero => exact absurd (hv.cycles limit hl) (Nat.not_le_of_lt hf)
  | succ fuel ih =>
    have hkeeps := hv.tick mode first
    unfold Machine.drive
    cases ht : v.tick mode first with
    | next v₁ =>
      rw [ht, executes_of_next ht] at hkeeps
      have hcycles : v₁.cycles = v.cycles + 1 := hkeeps.2
      exact ih hkeeps.1 (by omega)
    | stop => rfl
    | fault => rfl

/-- A run goes on from any machine that it passes. -/
theorem drive_of_passes {result : Except Fault Stop × Machine} (hp : Passes mode first v b v')
    (h : drive mode fuel first v = some result) : ∃ fuel', drive mode fuel' b v' = some result := by
  induction hp with
  | start => exact ⟨fuel, h⟩
  | next _ ht ih =>
    obtain ⟨fuel', h'⟩ := ih
    cases fuel' with
    | zero => cases h'
    | succ fuel' =>
      unfold drive at h'
      rw [ht] at h'
      exact ⟨fuel', h'⟩

/-- What becomes of a machine that has hit a limit: it fails for good, and no region gets the error. It
hits a limit at the check before an instruction, or where an instruction says so. -/
inductive Hits (mode : Mode) (first : Bool) (v : Machine) (limit : ResourceLimit) : Machine → Prop where
  | check : v.exceeded? = some limit → Hits mode first v limit { v with state := .error }
  | instruction {i u} : v.fetches mode first = true →
      v.program.instruction? v.sectionIndex v.pc = some i → dispatch i v.fetching = .error (.limit limit) u →
      Hits mode first v limit { u with state := .error }

theorem Hits.tick {limit : ResourceLimit} (h : Hits mode first v limit u) :
    ∃ fault, v.tick mode first = .fault fault u ∧ fault.cause = .limit limit := by
  cases h with
  | check hlimit =>
    refine ⟨(v.fatal (.limit limit) none).1, ?_, rfl⟩
    unfold Machine.tick
    rw [hlimit]
    rfl
  | @instruction i u hfetch hi hd =>
    rcases tick_cases mode first v with ⟨-, -, -, hnot, -⟩ | ⟨ht, -⟩
    · rw [hnot] at hfetch
      cases hfetch
    · rw [fetches, Bool.and_eq_true, Option.isNone_iff_eq_none] at hfetch
      refine ⟨(u.fatal (.limit limit) (some i.span)).1, ?_, rfl⟩
      rw [ht, tick_of_instruction hfetch.1 hi, hd]
      rfl

/-- A run that comes to a limit ends there. -/
theorem Hits.drive {limit : ResourceLimit} {result : Except Fault Stop × Machine} (hp : Passes mode first v b v')
    (hh : Hits mode b v' limit u) (h : drive mode fuel first v = some result) :
    ∃ fault, result = (.error fault, u) ∧ fault.cause = .limit limit := by
  obtain ⟨fuel', h'⟩ := drive_of_passes hp h
  obtain ⟨fault, ht, hcause⟩ := hh.tick
  cases fuel' with
  | zero => cases h'
  | succ fuel' =>
    unfold Machine.drive at h'
    rw [ht] at h'
    cases h'
    exact ⟨fault, rfl, hcause⟩

end ScriptMachine.Machine

namespace ScriptMachine

open Machine

/-! ### Requests -/

/-- The machine at which a request begins to execute instructions. -/
inductive Request.Starts (m : Machine) : Request → Mode → Machine → Prop where
  | run {fuel} : m.Live → Starts m (.run fuel) .run m.awake
  | step {fuel} : m.Live → Starts m (.step fuel) .step m.awake
  | call {fuel name args id g} : m.state ≠ .error → m.lookup name = .ok (.function id g) →
      Starts m (.call fuel name args) .run (m.entered g args)

/-- The machines whose instructions a request executes. -/
def Request.course (m : Machine) : Request → List Machine
  | .run fuel => if m.Live then visited .run fuel true m.awake else []
  | .step fuel => if m.Live then visited .step fuel true m.awake else []
  | .call fuel name args =>
    if m.state = .error then []
    else
      match m.lookup name with
      | .ok (.function _ g) => visited .run fuel true (m.entered g args)
      | _ => []
  | _ => []

/-- The number of instructions executed since the start or the last reset, after a request. -/
def Request.tally (m : Machine) (n : Nat) : Request → Nat
  | .reset => 0
  | request => n + (request.course m).length

/-- The machines that a host can bring about, with the number of instructions executed since the start or
the last reset. -/
inductive Machine.Lasts (p : Program) (config : Config) : Nat → Machine → Prop where
  | load {heap hosts} : Lasts p config 0 (Machine.load p config heap hosts)
  | serve {n m request cause m'} : Lasts p config n m → m.serve request = some (cause, m') →
      Lasts p config (request.tally m n) m'

variable {p : Program} {config : Config} {mode : Mode} {fuel : Nat} {m m' v v' u : Machine} {request : Request}
  {cause : Option Cause}

namespace Machine

theorem Settled.awake (hm : Settled config m) : Within config m.awake := ⟨hm.config, hm.depth, hm.cycles⟩

/-- A call puts one frame on the stack. -/
theorem Settled.entered (hm : Settled config m) (hstate : m.state ≠ .error) (g : ScriptFunction)
    (args : List Value) : Within config (m.entered g args) :=
  ⟨hm.config, Nat.succ_le_succ (hm.rest hstate), hm.cycles⟩

theorem Settled.settle (hu : Settled config u) (hd : u.stack.depth ≤ config.maxStack) (reason : Stop) :
    Settled config (u.settle reason).2 ∧ (u.settle reason).2.cycles = u.cycles := by
  cases reason with
  | hostReturn => exact ⟨hu.toWithin.fatal (.invariant .strayHostReturn) none, rfl⟩
  | _ => exact ⟨⟨⟨hu.config, hu.depth, hu.cycles⟩, fun _ => hd⟩, rfl⟩

theorem not_live_execute {r : Except Fault RunState} (hlive : ¬ m.Live) (h : m.execute mode fuel = some (r, m')) :
    m' = m := by
  unfold execute at h
  split at h
  · cases h; rfl
  · cases h; rfl
  · rename_i herror hdone
    exact absurd ⟨herror, hdone⟩ hlive

/-- Executing the script leaves a machine within its limits. -/
theorem Settled.execute {r : Except Fault RunState} (hm : Settled config m)
    (h : m.execute mode fuel = some (r, m')) : Settled config m' ∧
      m'.cycles = m.cycles + (if m.Live then visited mode fuel true m.awake else []).length := by
  by_cases hlive : m.Live
  · rw [execute_eq hlive] at h
    rw [if_pos hlive]
    obtain ⟨⟨result, u⟩, hd, ha⟩ := Option.map_eq_some_iff.1 h
    obtain ⟨hcycles, hsettled, hdepth⟩ := hm.awake.drive hd
    cases result with
    | ok reason =>
      obtain ⟨hu, hcount⟩ := hsettled.settle (hdepth ⟨reason, rfl⟩) reason
      have hm' : (u.settle reason).2 = m' := congrArg Prod.snd ha
      rw [hm'] at hu hcount
      exact ⟨hu, hcount.trans hcycles⟩
    | error fault =>
      cases ha
      exact ⟨hsettled, hcycles⟩
  · rw [if_neg hlive, not_live_execute hlive h]
    exact ⟨hm, rfl⟩

/-- The end of a call leaves a machine within its limits. -/
theorem Settled.finishCall {saved : RunState} {r : Except Fault Stop} {result : Except Fault Value}
    (hu : Settled config u) (hd : (∃ reason, r = .ok reason) → u.stack.depth ≤ config.maxStack)
    (h : finishCall saved (r, { u with hostCalls := u.hostCalls - 1 }) = (result, m')) :
    Settled config m' ∧ m'.cycles = u.cycles := by
  unfold Machine.finishCall at h
  split at h
  · rename_i he
    cases he
    have hdrop : u.stack.drop.depth ≤ config.maxStack := Nat.le_trans (Nat.sub_le _ _) (hd ⟨_, rfl⟩)
    split at h <;>
    · cases h
      exact ⟨⟨⟨hu.config, Nat.le_succ_of_le hdrop, hu.cycles⟩, fun _ => hdrop⟩, rfl⟩
  · rename_i he
    cases he
    cases h
    exact ⟨⟨⟨hu.config, hu.depth, hu.cycles⟩, fun hstate => absurd rfl hstate⟩, rfl⟩
  · rename_i he
    cases he
    cases h
    split
    · exact ⟨⟨⟨hu.config, hu.depth, hu.cycles⟩, hu.rest⟩, rfl⟩
    · rename_i hstate
      exact ⟨⟨⟨hu.config, hu.depth, hu.cycles⟩, fun _ => hu.rest hstate⟩, rfl⟩

/-- A call that does not run a function executes nothing. -/
theorem call_aside {name : String} (hf : m.state ≠ .error → ∀ id g, m.lookup name ≠ .ok (.function id g)) (fuel : Nat)
    (args : List Value) : (Request.call fuel name args).course m = [] ∧ ∃ result heap log,
      m.call fuel name args = some (result, { m with heap, log }) := by
  by_cases herr : m.state = .error
  · simp only [Request.course, Machine.call, if_pos herr]
    exact ⟨trivial, _, m.heap, m.log, rfl⟩
  · simp only [Request.course, Machine.call, if_neg herr]
    cases hl : m.lookup name with
    | error cause => exact ⟨rfl, _, m.heap, m.log, rfl⟩
    | ok callee =>
      cases callee with
      | function id g => exact absurd hl (hf herr id g)
      | native handle =>
        refine ⟨rfl, ?_⟩
        simp only
        split
        · rcases hn : callNative handle none args m with ⟨r, u⟩
          have hu : u = { m with heap := u.heap, log := u.log } := by
            rw [show u = (callNative handle none args m).2 by rw [hn]]
            rfl
          cases r <;> exact ⟨_, u.heap, u.log, by rw [← hu]⟩
        · exact ⟨_, m.heap, m.log, rfl⟩
      | _ => exact ⟨rfl, _, m.heap, m.log, rfl⟩

/-- A call that runs a function. -/
theorem call_function {name : String} {id : Identity} {g : ScriptFunction} (hstate : m.state ≠ .error)
    (hl : m.lookup name = .ok (.function id g)) (fuel : Nat) (args : List Value) :
    (Request.call fuel name args).course m = visited .run fuel true (m.entered g args) ∧
      m.call fuel name args = (Machine.drive .run fuel true (m.entered g args)).map fun (result, u) =>
        Machine.finishCall m.state (result, { u with hostCalls := u.hostCalls - 1 }) := by
  simp only [Request.course, Machine.call, if_neg hstate, hl, true_and]
  rfl

/-- A call leaves a machine within its limits. -/
theorem Settled.call {name : String} {args : List Value} {result : Except Fault Value} (hm : Settled config m)
    (h : m.call fuel name args = some (result, m')) : Settled config m' ∧
      m'.cycles = m.cycles + ((Request.call fuel name args).course m).length := by
  by_cases hf : m.state ≠ .error ∧ ∃ id g, m.lookup name = .ok (.function id g)
  · obtain ⟨hstate, id, g, hl⟩ := hf
    obtain ⟨hcourse, hcall⟩ := call_function hstate hl fuel args
    rw [hcall] at h
    obtain ⟨⟨r, u⟩, hd, hfinish⟩ := Option.map_eq_some_iff.1 h
    obtain ⟨hcycles, hsettled, hdepth⟩ := (hm.entered hstate g args).drive hd
    obtain ⟨hm', hcount⟩ := hsettled.finishCall hdepth hfinish
    rw [hcourse]
    exact ⟨hm', hcount.trans hcycles⟩
  · have hnone : m.state ≠ .error → ∀ id g, m.lookup name ≠ .ok (.function id g) :=
      fun hstate id g hl => hf ⟨hstate, id, g, hl⟩
    obtain ⟨hcourse, r, heap, log, hcall⟩ := call_aside hnone fuel args
    rw [hcall] at h
    cases h
    rw [hcourse]
    exact ⟨⟨⟨hm.config, hm.depth, hm.cycles⟩, hm.rest⟩, rfl⟩

/-- Every request leaves a machine within its limits, and the count of instructions is kept. -/
theorem Settled.serve {n : Nat} (hm : Settled config m) (hn : m.cycles = n) (h : m.serve request = some (cause, m')) :
    Settled config m' ∧ m'.cycles = request.tally m n := by
  cases request with
  | run fuel | step fuel =>
    obtain ⟨⟨r, u⟩, hx, hu⟩ := Option.map_eq_some_iff.1 h
    cases hu
    obtain ⟨hsettled, hcycles⟩ := hm.execute hx
    exact ⟨hsettled, by rw [hcycles, hn]; rfl⟩
  | call fuel name args =>
    obtain ⟨⟨r, u⟩, hx, hu⟩ := Option.map_eq_some_iff.1 h
    cases hu
    obtain ⟨hsettled, hcycles⟩ := hm.call hx
    exact ⟨hsettled, by rw [hcycles, hn]; rfl⟩
  | reset =>
    cases h
    exact ⟨⟨⟨hm.config, Nat.zero_le _, fun _ _ => Nat.zero_le _⟩, fun _ => Nat.zero_le _⟩, rfl⟩
  | define | add | prepare | takeLog =>
    cases h
    exact ⟨⟨⟨hm.config, hm.depth, hm.cycles⟩, hm.rest⟩, hn⟩
  | register name handle =>
    simp only [Machine.serve, Machine.register] at h
    cases hr : m.registry.register name handle with
    | ok registry =>
      rw [hr] at h
      cases h
      exact ⟨⟨⟨hm.config, hm.depth, hm.cycles⟩, hm.rest⟩, hn⟩
    | error c =>
      rw [hr] at h
      cases h
      exact ⟨hm, hn⟩

theorem Lasts.settled {n : Nat} (h : Lasts p config n m) : Settled config m ∧ m.cycles = n := by
  induction h with
  | load => exact ⟨⟨⟨rfl, Nat.zero_le _, fun _ _ => Nat.zero_le _⟩, fun _ => Nat.zero_le _⟩, rfl⟩
  | serve _ hserve ih => exact ih.1.serve ih.2 hserve

/-- With a limit on instructions every request ends. -/
theorem Settled.ends {limit : Nat} (hm : Settled config m) (hl : config.maxCycles = some limit) (hf : limit < fuel) :
    (m.run fuel).isSome = true ∧ (m.step fuel).isSome = true ∧
      ∀ name args, (m.call fuel name args).isSome = true := by
  have hexecute : ∀ mode, (m.execute mode fuel).isSome = true := fun mode => by
    by_cases hlive : m.Live
    · rw [execute_eq hlive, Option.isSome_map]
      exact hm.awake.drive_isSome hl (Nat.lt_of_lt_of_le hf (Nat.le_add_left _ _))
    · unfold Machine.execute
      split
      · rfl
      · rfl
      · rename_i herror hdone
        exact absurd ⟨herror, hdone⟩ hlive
  refine ⟨hexecute .run, hexecute .step, fun name args => ?_⟩
  by_cases hfun : m.state ≠ .error ∧ ∃ id g, m.lookup name = .ok (.function id g)
  · obtain ⟨hstate, id, g, hlookup⟩ := hfun
    rw [(call_function hstate hlookup fuel args).2, Option.isSome_map]
    exact (hm.entered hstate g args).drive_isSome hl (Nat.lt_of_lt_of_le hf (Nat.le_add_left _ _))
  · have hnone : m.state ≠ .error → ∀ id g, m.lookup name ≠ .ok (.function id g) :=
      fun hstate id g hlookup => hfun ⟨hstate, id, g, hlookup⟩
    obtain ⟨-, r, heap, log, hcall⟩ := call_aside hnone fuel args
    rw [hcall]
    rfl

theorem Hits.state {limit : ResourceLimit} {first : Bool} (hh : Hits mode first v limit u) : u.state = .error := by
  cases hh <;> rfl

/-- A request that comes to a limit ends there, with the machine in failure. -/
theorem Hits.serve {limit : ResourceLimit} {b : Bool} (hs : request.Starts m mode v)
    (hp : Passes mode true v b v') (hh : Hits mode b v' limit u) (h : m.serve request = some (cause, m')) :
    cause = some (.limit limit) ∧ m'.state = .error ∧ m'.stack = u.stack ∧ m'.cycles = u.cycles := by
  cases hs with
  | run hlive | step hlive =>
    obtain ⟨⟨r, m₁⟩, hx, he⟩ := Option.map_eq_some_iff.1 h
    cases he
    have hx := (execute_eq hlive).symm.trans hx
    obtain ⟨result, hd, ha⟩ := Option.map_eq_some_iff.1 hx
    obtain ⟨fault, rfl, hcause⟩ := hh.drive hp hd
    cases ha
    exact ⟨congrArg some hcause, hh.state, rfl, rfl⟩
  | call hstate hl =>
    obtain ⟨⟨r, m₁⟩, hx, he⟩ := Option.map_eq_some_iff.1 h
    cases he
    rw [(call_function hstate hl _ _).2] at hx
    obtain ⟨result, hd, ha⟩ := Option.map_eq_some_iff.1 hx
    obtain ⟨fault, rfl, hcause⟩ := hh.drive hp hd
    simp only [Machine.finishCall, if_pos hh.state] at ha
    cases ha
    exact ⟨congrArg some hcause, hh.state, rfl, rfl⟩

/-- **Limits hold**, whatever a host asks of a machine and in whatever order. Between requests the stack is
within its limit, unless the machine has failed, and then it is at most one entry deeper; the count of
instructions is that of the instructions executed, and stays within its limit; with such a limit every
request ends. While a request is served the stack is at most one entry deeper than its limit, and if a limit
is hit, by the check or by an instruction, the request ends there with that error and the machine has
failed. -/
theorem limits_hold {n : Nat} (h : Lasts p config n m) :
    m.stack.depth ≤ config.maxStack + 1 ∧ (m.state ≠ .error → m.stack.depth ≤ config.maxStack) ∧
    m.cycles = n ∧
    (∀ limit, config.maxCycles = some limit → m.cycles ≤ limit ∧ ∀ fuel, limit < fuel →
      (m.run fuel).isSome = true ∧ (m.step fuel).isSome = true ∧
        ∀ name args, (m.call fuel name args).isSome = true) ∧
    ∀ request mode v b v', Request.Starts m request mode v → Passes mode true v b v' →
      v'.stack.depth ≤ config.maxStack + 1 ∧
      (∀ limit, config.maxCycles = some limit → v'.cycles ≤ limit) ∧
      ∀ limit u, Hits mode b v' limit u → ∀ cause m', m.serve request = some (cause, m') →
        cause = some (.limit limit) ∧ m'.state = .error ∧ m'.stack = u.stack ∧ m'.cycles = u.cycles := by
  obtain ⟨hm, hn⟩ := h.settled
  refine ⟨hm.depth, hm.rest, hn, fun limit hl => ⟨hm.cycles limit hl, fun fuel hf => hm.ends hl hf⟩,
    fun request mode v b v' hs hp => ?_⟩
  have hv : Within config v := by
    cases hs with
    | run | step => exact hm.awake
    | call hstate => exact hm.entered hstate _ _
  have hv' := hv.passes hp
  exact ⟨hv'.depth, hv'.cycles, fun limit u hh cause m' hserve => hh.serve hs hp hserve⟩

/-- A program that pushes values and jumps back, for good. -/
def filling : Program :=
  { sections := #[⟨"<script>", #[{ op := .label 0 }, { op := .fetch "print" }, { op := .jump 0 }]⟩]
    labels := [(0, ⟨0, 0⟩)] }

/-- The third value does not fit on the stack, and the machine fails before the ninth instruction. -/
theorem limits_hold_filling : ∃ cause m', (load filling ⟨2, some 100⟩ {} {}).serve (.run 101) = some (cause, m') ∧
    Lasts filling ⟨2, some 100⟩ 8 m' ∧ m'.state = .error ∧ m'.stack.depth = 3 ∧ m'.cycles = 8 ∧
    m'.stack.depth ≤ 2 + 1 ∧ m'.cycles ≤ 100 := by
  have hload : Lasts filling ⟨2, some 100⟩ 0 (load filling ⟨2, some 100⟩ {} {}) := .load
  have hserve : ((load filling ⟨2, some 100⟩ {} {}).serve (.run 101)).map (fun x => (x.2.state, x.2.stack.depth)) =
      some (.error, 3) := by decide +kernel
  have htally : (Request.run 101).tally (load filling ⟨2, some 100⟩ {} {}) 0 = 8 := by decide +kernel
  obtain ⟨⟨cause, m'⟩, hs, he⟩ := Option.map_eq_some_iff.1 hserve
  obtain ⟨hstate, hdepth⟩ := Prod.mk.inj he
  have hlasts := htally ▸ hload.serve hs
  obtain ⟨hle, -, hcycles, hbudget, -⟩ := limits_hold hlasts
  exact ⟨cause, m', hs, hlasts, hstate, hdepth, hcycles, hle, (hbudget 100 rfl).1⟩

end Machine

end ScriptMachine
