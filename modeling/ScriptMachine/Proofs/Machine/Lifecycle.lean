import ScriptMachine.Proofs.Machine.Limits
import ScriptMachine.Proofs.Machine.Unwinding

/-!
# Lifecycle — the states between requests

Outside a call by the host no frame of such a call lies on the stack (`HostFree`). So a return has no host to
go back to and an error that nothing catches goes to the bottom of the stack: a run ends at a stop of the
script or in failure. A machine that waits for the next request (`Waiting`) is therefore never left running, and
every request leaves it waiting (`lifecycle_sound`).
-/

namespace ScriptMachine.Machine

variable {m m' v v' u : Machine} {c : Cause} {span : Span} {mode : Mode} {first b : Bool} {fuel : Nat}

/-- No entry is the frame of a host call. -/
def HostFree (s : List Entry) : Prop := ∀ f, Entry.frame f ∈ s → f.fromHost = false

theorem HostFree.of_subset {s t : List Entry} (h : HostFree s) (ht : t ⊆ s) : HostFree t := fun f hf => h f (ht hf)

theorem HostFree.nil : HostFree [] := fun _ hf => absurd hf List.not_mem_nil

theorem HostFree.cons {e : Entry} {s : List Entry} (he : ∀ f, e = .frame f → f.fromHost = false)
    (h : HostFree s) : HostFree (e :: s) := by
  intro f hf
  rcases List.mem_cons.1 hf with rfl | hf
  · exact he f rfl
  · exact h f hf

theorem HostFree.value {s : List Entry} (h : HostFree s) (v : Value) : HostFree (.value v :: s) :=
  h.cons fun _ hf => by cases hf

theorem tolerant_hostFree : Tolerant HostFree HostFree where
  push := HostFree.cons
  pop := fun _ h => h.of_subset (List.subset_cons_self _ _)
  drop := fun h => h.of_subset fun _ => List.mem_of_mem_tail

/-! ### One instruction -/

/-- Without the frame of a host call an error is caught, or it fails the machine. -/
theorem HostFree.handle (h : HostFree m.stack.entries) (c : Cause) (span : Span) :
    match m.handle c span with
    | (none, m') => HostFree m'.stack.entries ∧ Steady m m'
    | (some _, m') => m'.state = .error := by
  by_cases hc : c.isCatchable = true
  · rw [handle_catchable hc]
    rcases exists_topmost m.stack.entries with ⟨above, e, below, ht⟩ | hpassed
    · cases e with
      | region r =>
        rw [unwind_region ht]
        have hbelow : HostFree below := h.of_subset fun e he => by
          rw [ht.split]
          exact List.mem_append_right _ (List.mem_cons_of_mem _ he)
        exact ⟨hbelow.value _, rfl, rfl, rfl, rfl, rfl, rfl, rfl⟩
      | frame f =>
        have hf : f.fromHost = false := h f (by rw [ht.split]; simp)
        have hstops := ht.stops
        simp [Entry.letsPass, hf] at hstops
      | value v | loop env => cases ht.stops
    · rw [unwind_bottom hpassed]
      rfl
  · unfold Machine.handle
    rw [if_pos (by simpa using hc)]
    rfl

/-- Without the frame of a host call a return goes to a frame of the script, or fails. -/
theorem HostFree.ret {i : Instruction} (h : HostFree m.stack.entries) (hi : i.op = .ret) :
    match dispatch i m with
    | .ok r m' => r = none ∧ HostFree m'.stack.entries
    | .error _ m' => HostFree m'.stack.entries := by
  have hret : dispatch i m = returnToFrame m := by simp only [dispatch, hi]
  rw [hret, eq_onStack (m := m) rfl]
  cases hs : m.stack.entries with
  | nil => exact HostFree.nil
  | cons e s =>
    rw [hs] at h
    have hrest : HostFree s := h.of_subset (List.subset_cons_self _ _)
    -- a return finds its value on top, or fails before it takes a second entry
    cases e with
    | frame g | region r | loop env => exact hrest
    | value x =>
      cases s with
      | nil => exact HostFree.nil
      | cons e s =>
        have hbelow : HostFree s := hrest.of_subset (List.subset_cons_self _ _)
        cases e with
        | frame g =>
          have hreturn : returnToFrame (m.onStack (.value x :: .frame g :: s)) =
            .ok (if g.fromHost then some .hostReturn else none) ((m.atFrame g).onStack (.value x :: s)) := rfl
          rw [hreturn, hrest g List.mem_cons_self]
          exact ⟨rfl, hbelow.value x⟩
        | value y | region r | loop env => exact hbelow

/-- What one instruction may lead to outside a host call. -/
def Tick.Alone (m : Machine) : Tick → Prop
  | .next m' => HostFree m'.stack.entries ∧ Steady m m'
  | .stop reason m' => reason ≠ .hostReturn ∧ HostFree m'.stack.entries ∧ Steady m m'
  | .fault _ m' => m'.state = .error

theorem HostFree.routed (h : HostFree u.stack.entries) (hu : Steady v u) (c : Cause) (span : Span) :
    (u.routed c span).Alone v := by
  have hhandle := h.handle c span
  unfold Machine.routed
  rcases hr : u.handle c span with ⟨fault, m'⟩
  rw [hr] at hhandle
  cases fault with
  | none => exact ⟨hhandle.1, hu.trans hhandle.2⟩
  | some fault => exact hhandle

/-- **One instruction** outside a host call puts no frame of one on the stack, does not return to a host, and
fails the machine if its error is not caught. -/
theorem HostFree.tick (h : HostFree v.stack.entries) (mode : Mode) (first : Bool) : (v.tick mode first).Alone v := by
  rcases tick_cases mode first v with ⟨-, -, ht, -⟩ | ⟨ht, -⟩
  · rw [ht]
    exact ⟨nofun, h, .refl v⟩
  rw [ht]
  by_cases hfetch : v.fetches .run true = true
  · obtain ⟨i, hi⟩ := tick_of_fetches hfetch
    rw [hi]
    have hfetching : Steady v v.fetching := ⟨rfl, rfl, rfl, rfl, rfl, rfl, rfl⟩
    have hsteady := steady_dispatch i v.fetching
    have hfree : match dispatch i v.fetching with
        | .ok r m' => r ≠ some .hostReturn ∧ HostFree m'.stack.entries
        | .error _ m' => HostFree m'.stack.entries := by
      by_cases hop : i.op = .ret
      · have hret := HostFree.ret (m := v.fetching) h hop
        cases hd : dispatch i v.fetching with
        | ok r u =>
          rw [hd] at hret
          exact ⟨by rw [hret.1]; exact nofun, hret.2⟩
        | error c u =>
          rw [hd] at hret
          exact hret
      · have hkeeps := keeps_dispatch tolerant_hostFree hop v.fetching h
        cases hd : dispatch i v.fetching with
        | ok r u =>
          rw [hd] at hkeeps
          exact ⟨fun hr => silent_dispatch hop v.fetching u (hr ▸ hd), hkeeps.1⟩
        | error c u =>
          rw [hd] at hkeeps
          exact (ite_self (HostFree u.stack.entries)).mp hkeeps.1
    cases hd : dispatch i v.fetching with
    | ok r u =>
      rw [hd] at hfree hsteady
      cases r with
      | none => exact ⟨hfree.2, hfetching.trans hsteady⟩
      | some reason => exact ⟨fun hr => hfree.1 (congrArg some hr), hfree.2, hfetching.trans hsteady⟩
    | error c u =>
      rw [hd] at hfree hsteady
      exact hfree.routed (hfetching.trans hsteady) c i.span
  · obtain ⟨fault, hfault, -⟩ := tick_of_not_fetches (Bool.eq_false_iff.2 hfetch)
    rw [hfault]
    rfl

/-! ### Runs -/

theorem hostCalls_handle (m : Machine) (c : Cause) (span : Span) : (m.handle c span).2.hostCalls = m.hostCalls := by
  by_cases hc : c.isCatchable = true
  · rw [handle_catchable hc]
    cases (unwind none m.stack.entries).1 with
    | region | host => rfl
    | bottom last => cases last <;> rfl
  · unfold handle
    rw [if_pos (by simpa using hc)]
    rfl

/-- No instruction begins or ends a host call. -/
theorem hostCalls_tick (mode : Mode) (first : Bool) (v : Machine) :
    match v.tick mode first with
    | .next u | .stop _ u | .fault _ u => u.hostCalls = v.hostCalls := by
  rcases tick_cases mode first v with ⟨-, -, ht, -⟩ | ⟨ht, -⟩
  · rw [ht]
  rw [ht]
  by_cases hfetch : v.fetches .run true = true
  · obtain ⟨i, hi⟩ := tick_of_fetches hfetch
    rw [hi]
    have hsteady := steady_dispatch i v.fetching
    cases hd : dispatch i v.fetching with
    | ok r u =>
      rw [hd] at hsteady
      cases r <;> exact hsteady.hostCalls
    | error c u =>
      rw [hd] at hsteady
      have hhandle := (hostCalls_handle u c i.span).trans hsteady.hostCalls
      simp only [routed]
      rcases hr : u.handle c i.span with ⟨fault, m'⟩
      rw [hr] at hhandle
      cases fault <;> exact hhandle
  · obtain ⟨fault, hfault, -⟩ := tick_of_not_fetches (Bool.eq_false_iff.2 hfetch)
    rw [hfault]

theorem hostCalls_passes (hp : Passes mode first v b v') : v'.hostCalls = v.hostCalls := by
  refine hp.invariant (I := fun v' => v'.hostCalls = v.hostCalls) rfl fun b v₁ v₂ hv₁ ht => ?_
  have hnext := hostCalls_tick mode b v₁
  rw [ht] at hnext
  exact hnext.trans hv₁

/-- A run ends with as many host calls under way as it began with. -/
theorem hostCalls_drive {r : Except Fault Stop} (h : drive mode fuel first v = some (r, u)) :
    u.hostCalls = v.hostCalls := by
  obtain ⟨b, v', hp, hend⟩ := drive_ends h
  have hlast := hostCalls_tick mode b v'
  rcases hend with ⟨reason, -, ht⟩ | ⟨fault, -, ht⟩ <;>
  · rw [ht] at hlast
    exact hlast.trans (hostCalls_passes hp)

theorem HostFree.passes (h : HostFree v.stack.entries) (hp : Passes mode first v b v') :
    HostFree v'.stack.entries ∧ Steady v v' := by
  refine hp.invariant (I := fun v' => HostFree v'.stack.entries ∧ Steady v v') ⟨h, .refl v⟩ ?_
  rintro b v₁ v₂ ⟨hv₁, hsteady⟩ ht
  have hnext := hv₁.tick mode b
  rw [ht] at hnext
  exact ⟨hnext.1, hsteady.trans hnext.2⟩

/-- A run outside a host call ends at a stop of the script, or it fails the machine. -/
theorem HostFree.drive {r : Except Fault Stop} (h : HostFree v.stack.entries)
    (hd : drive mode fuel first v = some (r, u)) :
    (∃ reason, r = .ok reason ∧ reason ≠ .hostReturn ∧ HostFree u.stack.entries) ∨
      ∃ fault, r = .error fault ∧ u.state = .error := by
  obtain ⟨b, v', hp, hend⟩ := drive_ends hd
  have hlast := (h.passes hp).1.tick mode b
  rcases hend with ⟨reason, rfl, ht⟩ | ⟨fault, rfl, ht⟩
  · rw [ht] at hlast
    exact .inl ⟨reason, rfl, hlast.1, hlast.2.1⟩
  · rw [ht] at hlast
    exact .inr ⟨fault, rfl, hlast⟩

/-! ### Requests -/

/-- A machine that waits for a request. -/
structure Waiting (m : Machine) : Prop where
  rests : m.state ≠ .running
  hostCalls : m.hostCalls = 0
  hostFree : m.state ≠ .error → HostFree m.stack.entries

/-- **Running and stepping** leave a machine waiting, and report an error exactly if it has failed. -/
theorem Waiting.execute {r : Except Fault RunState} (hm : Waiting m) (h : m.execute mode fuel = some (r, m')) :
    Waiting m' ∧ ((∃ fault, r = .error fault) ↔ m'.state = .error) := by
  by_cases hlive : m.Live
  · rw [execute_eq hlive] at h
    obtain ⟨⟨result, u⟩, hd, ha⟩ := Option.map_eq_some_iff.1 h
    have hawake : HostFree m.awake.stack.entries := hm.hostFree hlive.1
    have hzero : u.hostCalls = 0 := (hostCalls_drive hd).trans hm.hostCalls
    rcases hawake.drive hd with ⟨reason, rfl, hreason, hu⟩ | ⟨fault, rfl, hstate⟩
    · cases reason with
      | hostReturn => exact absurd rfl hreason
      | eof | breakpoint | boundary =>
        cases ha
        exact ⟨⟨nofun, hzero, fun _ => hu⟩, by simp⟩
    · cases ha
      exact ⟨⟨by rw [hstate]; nofun, hzero, fun hne => absurd hstate hne⟩, by simp [hstate]⟩
  · have hm' := not_live_execute hlive h
    subst hm'
    refine ⟨hm, ?_⟩
    unfold Machine.execute at h
    split at h
    · rename_i herror
      cases h
      simp [herror]
    · rename_i hdone
      cases h
      simp [hdone]
    · rename_i herror hdone
      exact absurd ⟨herror, hdone⟩ hlive

/-- The end of a call takes back the host call, and leaves the state found before it or a failure. -/
theorem finishCall_state {saved : RunState} {r : Except Fault Stop} {result : Except Fault Value}
    (h : finishCall saved (r, { u with hostCalls := u.hostCalls - 1 }) = (result, m')) :
    m'.hostCalls = u.hostCalls - 1 ∧ (m'.state = saved ∨ m'.state = .error) := by
  unfold finishCall at h
  split at h
  · rename_i he
    cases he
    split at h <;>
    · cases h
      exact ⟨rfl, .inl rfl⟩
  · rename_i he
    cases he
    cases h
    exact ⟨rfl, .inr rfl⟩
  · rename_i he
    cases he
    cases h
    split
    · rename_i herror
      exact ⟨rfl, .inr herror⟩
    · exact ⟨rfl, .inl rfl⟩

/-- **A call** leaves a machine waiting, in the state found before it or in failure. -/
theorem Waiting.call {name : String} {args : List Value} {result : Except Fault Value} (hm : Waiting m)
    (h : m.call fuel name args = some (result, m')) :
    Waiting m' ∧ (m'.state = m.state ∨ m'.state = .error) := by
  cases calls_of_call h with
  | refused => exact ⟨hm, .inl rfl⟩
  | native => exact ⟨⟨hm.rests, hm.hostCalls, hm.hostFree⟩, .inl rfl⟩
  | @function id g r u _ _ hstate hl hd hf =>
    obtain ⟨hcalls, hstate'⟩ := finishCall_state hf
    have hzero : m'.hostCalls = 0 := by
      rw [hcalls, hostCalls_drive hd]
      exact hm.hostCalls
    refine ⟨⟨?_, hzero, fun hne => ?_⟩, hstate'⟩
    · rcases hstate' with hsame | herror
      · rw [hsame]
        exact hm.rests
      · rw [herror]
        nofun
    · rw [(finishCall_effects hd hf).2 hne]
      exact hm.hostFree hstate

/-- Every request leaves a machine waiting. -/
theorem Waiting.serve {request : Request} {cause : Option Cause} (hm : Waiting m)
    (h : m.serve request = some (cause, m')) : Waiting m' := by
  cases request with
  | run fuel | step fuel =>
    obtain ⟨⟨r, u⟩, hx, hu⟩ := Option.map_eq_some_iff.1 h
    cases hu
    exact (hm.execute hx).1
  | call fuel name args =>
    obtain ⟨⟨r, u⟩, hx, hu⟩ := Option.map_eq_some_iff.1 h
    cases hu
    exact (hm.call hx).1
  | reset =>
    cases h
    exact ⟨nofun, rfl, fun _ => nofun⟩
  | define | add | prepare | takeLog =>
    cases h
    exact ⟨hm.rests, hm.hostCalls, hm.hostFree⟩
  | register name handle =>
    simp only [Machine.serve, Machine.register] at h
    cases hr : m.registry.register name handle with
    | ok registry =>
      rw [hr] at h
      cases h
      exact ⟨hm.rests, hm.hostCalls, hm.hostFree⟩
    | error c =>
      rw [hr] at h
      cases h
      exact hm

theorem waiting_reset (m : Machine) : Waiting m.reset := ⟨nofun, rfl, fun _ => nofun⟩

theorem Lasts.waiting {p : Program} {config : Config} {n : Nat} (h : Lasts p config n m) : Waiting m := by
  induction h with
  | load => exact ⟨nofun, rfl, fun _ => nofun⟩
  | serve _ hserve ih => exact ih.serve hserve

/-! ### Failed and finished machines -/

theorem execute_of_error (h : m.state = .error) (mode : Mode) (fuel : Nat) :
    m.execute mode fuel = some (.error { cause := .halted }, m) := by
  simp only [execute, h]

theorem execute_of_done (h : m.state = .done) (mode : Mode) (fuel : Nat) :
    m.execute mode fuel = some (.ok .done, m) := by
  simp only [execute, h]

theorem call_of_error (h : m.state = .error) (fuel : Nat) (name : String) (args : List Value) :
    m.call fuel name args = some (.error { cause := .halted }, m) := by
  simp only [call, if_pos h]

/-- A failed machine stays failed until it is reset. -/
theorem serve_of_error {request : Request} {cause : Option Cause} (hm : m.state = .error) (hr : request ≠ .reset)
    (h : m.serve request = some (cause, m')) : m'.state = .error := by
  cases request with
  | run fuel | step fuel =>
    obtain ⟨⟨r, u⟩, hx, hu⟩ := Option.map_eq_some_iff.1 h
    cases hu
    cases (execute_of_error hm _ fuel).symm.trans hx
    exact hm
  | call fuel name args =>
    rw [serve, call_of_error hm] at h
    cases h
    exact hm
  | reset => exact absurd rfl hr
  | define | add | prepare | takeLog =>
    cases h
    exact hm
  | register name handle =>
    simp only [serve, register] at h
    cases hreg : m.registry.register name handle <;>
    · rw [hreg] at h
      cases h
      exact hm

/-- **The lifecycle is sound**, whatever a host asks of a machine and in whatever order. Between requests the
machine is ready, paused, done or failed, no host call is under way, and unless it has failed no frame of one
is left. While it executes the script there is no such frame either. Running and stepping report an error
exactly if the machine has failed afterwards. A failed machine refuses to run, to step and to be called, and
nothing but a reset ends its failure; a machine that is done stays as it is. A call that reports an error
leaves the state that it found, or a failure. -/
theorem lifecycle_sound {p : Program} {config : Config} {n : Nat} (h : Lasts p config n m) :
    (m.state = .ready ∨ m.state = .paused ∨ m.state = .done ∨ m.state = .error) ∧
    m.hostCalls = 0 ∧ (m.state ≠ .error → HostFree m.stack.entries) ∧
    (∀ mode b v, m.Live → Passes mode true m.awake b v → v.hostCalls = 0 ∧ HostFree v.stack.entries) ∧
    (∀ fuel r m', m.run fuel = some (r, m') ∨ m.step fuel = some (r, m') →
      ((∃ fault, r = .error fault) ↔ m'.state = .error)) ∧
    (m.state = .error → ∀ fuel,
      m.run fuel = some (.error { cause := .halted }, m) ∧ m.step fuel = some (.error { cause := .halted }, m) ∧
      ∀ name args, m.call fuel name args = some (.error { cause := .halted }, m)) ∧
    (m.state = .error → ∀ request cause m', request ≠ .reset → m.serve request = some (cause, m') →
      m'.state = .error) ∧
    (m.state = .done → ∀ fuel, m.run fuel = some (.ok .done, m) ∧ m.step fuel = some (.ok .done, m)) ∧
    ∀ fuel name args fault m', m.call fuel name args = some (.error fault, m') →
      m'.state = m.state ∨ m'.state = .error := by
  have hm := h.waiting
  refine ⟨?_, hm.hostCalls, hm.hostFree, fun mode b v hlive hp => ?_, fun fuel r m' hx => ?_, fun hstate fuel => ?_,
    fun hstate request cause m' hr hs => serve_of_error hstate hr hs, fun hstate fuel => ?_,
    fun fuel name args fault m' hcall => (hm.call hcall).2⟩
  · have hrests := hm.rests
    cases hstate : m.state <;> simp_all
  · have hawake : HostFree m.awake.stack.entries := hm.hostFree hlive.1
    exact ⟨(hostCalls_passes hp).trans hm.hostCalls, (hawake.passes hp).1⟩
  · rcases hx with hx | hx <;> exact (hm.execute hx).2
  · exact ⟨execute_of_error hstate .run fuel, execute_of_error hstate .step fuel, call_of_error hstate fuel⟩
  · exact ⟨execute_of_done hstate .run fuel, execute_of_done hstate .step fuel⟩

/-- A script that pauses and then throws, with a function that throws. -/
def failing : Program :=
  { sections := #[⟨"<script>", #[{ op := .debugger }, { op := .const 0 }, { op := .throw }, { op := .eof }]⟩,
      ⟨"f", #[{ op := .const 0 }, { op := .throw }, { op := .ret }]⟩]
    constants := #[.string "boom"]
    functions := #[⟨"f", 1, 0, []⟩] }

/-- The failure of a call leaves the machine paused; the failure of the script ends it, and it refuses to go
on. -/
theorem lifecycle_sound_failing : ∃ n m₁ m₂ m₃ c₂ c₃,
    (load failing {} {} {}).serve (.run 10) = some (none, m₁) ∧ m₁.state = .paused ∧
    m₁.serve (.call 10 "f" []) = some (some c₂, m₂) ∧ m₂.state = .paused ∧ HostFree m₂.stack.entries ∧
    m₂.serve (.run 10) = some (some c₃, m₃) ∧ Lasts failing {} n m₃ ∧ m₃.state = .error ∧
    m₃.run 10 = some (.error { cause := .halted }, m₃) := by
  have hcourse : ((load failing {} {} {}).serve (.run 10)).bind (fun x =>
      (x.2.serve (.call 10 "f" [])).bind fun y => (y.2.serve (.run 10)).map fun z =>
        ((x.1.isSome, x.2.state), (y.1.isSome, y.2.state), (z.1.isSome, z.2.state))) =
      some ((false, .paused), (true, .paused), (true, .error)) := by decide +kernel
  obtain ⟨⟨c₁, m₁⟩, h₁, hrest⟩ := Option.bind_eq_some_iff.1 hcourse
  obtain ⟨⟨c₂, m₂⟩, h₂, hrest⟩ := Option.bind_eq_some_iff.1 hrest
  obtain ⟨⟨c₃, m₃⟩, h₃, hstates⟩ := Option.map_eq_some_iff.1 hrest
  simp only [Prod.mk.injEq, Option.isSome_iff_exists, Option.isSome_eq_false_iff, Option.isNone_iff_eq_none] at hstates
  obtain ⟨⟨rfl, hs₁⟩, ⟨⟨c₂, rfl⟩, hs₂⟩, ⟨c₃, rfl⟩, hs₃⟩ := hstates
  have hlasts₂ := (Lasts.load.serve h₁).serve h₂
  have hlasts₃ := hlasts₂.serve h₃
  obtain ⟨-, -, hfree, -⟩ := lifecycle_sound hlasts₂
  obtain ⟨-, -, -, -, -, hhalted, -⟩ := lifecycle_sound hlasts₃
  exact ⟨_, m₁, m₂, m₃, c₂, c₃, h₁, hs₁, h₂, hs₂, hfree (by rw [hs₂]; nofun), h₃, hlasts₃, hs₃, (hhalted hs₃ 10).1⟩

end ScriptMachine.Machine
