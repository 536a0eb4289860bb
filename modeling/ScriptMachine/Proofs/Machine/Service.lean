import ScriptMachine.Proofs.Machine.Fit
import ScriptMachine.Proofs.Machine.HostCall

/-!
# Service — what a machine goes through in the hands of a host

A host runs a machine, steps it, calls its functions, resets it, defines globals and adds host values,
in any order and any number of times. Between requests a machine that may go on fits the layout of its
program (`Idle`), and every request keeps that.
-/

namespace ScriptMachine

open Compile

/-- What a host may ask of a machine. -/
inductive Request where
  | run (fuel : Nat)
  | step (fuel : Nat)
  | call (fuel : Nat) (name : String) (args : List Value)
  | reset
  | define (name : String) (v : Value)
  | add (native : Native)
  | register (name : String) (handle : NativeHandle)
  /-- The host changes what values of its own refer to. -/
  | prepare (heap : Heap)
  | takeLog

/-- The cause of a failure. -/
def failure? {α : Type} : Except Fault α → Option Cause
  | .ok _ => none
  | .error fault => some fault.cause

namespace Machine

/-- What a request reports as its failure, and the machine afterwards. A run that has not ended when
the fuel is used up gives nothing. -/
def serve (m : Machine) : Request → Option (Option Cause × Machine)
  | .run fuel => (m.run fuel).map fun (r, m) => (failure? r, m)
  | .step fuel => (m.step fuel).map fun (r, m) => (failure? r, m)
  | .call fuel name args => (m.call fuel name args).map fun (r, m) => (failure? r, m)
  | .reset => some (none, m.reset)
  | .define name v => some (none, m.defineGlobal name v)
  | .add native => some (none, (m.addHost native).2)
  | .register name handle =>
    match m.register name handle with
    | (.ok (), m) => some (none, m)
    | (.error cause, m) => some (some cause, m)
  | .prepare heap => some (none, m.mapHeap fun _ => heap)
  | .takeLog => some (none, m.takeLog.2)

end Machine

namespace Regime

/-- What a host may ask of a machine under a regime. -/
def Permits (R : Regime) (m : Machine) : Request → Prop
  | .call _ _ args => ∀ v ∈ args, R.Admits v
  | .define _ v => R.Admits v
  | .add native => R.Trusts native
  | .prepare heap => R.Passage m.heap heap
  | .run _ | .step _ | .reset | .register _ _ | .takeLog => True

/-- The machines that a program can be in under a regime, between requests. -/
inductive Reaches (R : Regime) (p : Program) : Machine → Prop where
  | load {config heap hosts} : R.Holds heap → R.Employs hosts →
      Reaches R p (Machine.load p config heap hosts)
  | serve {m request cause m'} : Reaches R p m → R.Permits m request →
      m.serve request = some (cause, m') → Reaches R p m'

/-- The machine at which a request begins to execute instructions. -/
inductive Begins (R : Regime) (m : Machine) : Mode → Machine → Prop where
  | execute {mode} : m.state ≠ .error → m.state ≠ .done → Begins R m mode { m with state := .running }
  | call {name args id g} : m.state ≠ .error → m.lookup name = .ok (.function id g) →
      (∀ v ∈ args, R.Admits v) → Begins R m .run (m.entered g args)

/-- The machines that fetch an instruction under a regime. -/
def Visits (R : Regime) (p : Program) (m : Machine) : Prop :=
  ∃ m₀ mode start first, R.Reaches p m₀ ∧ R.Begins m₀ mode start ∧ Machine.Passes mode true start first m

end Regime

/-- The first instruction of the script, and of what an allowed function runs, is in range if the
regime is strict. -/
def Ground.Ready (G : Ground) : Prop := G.regime.strict → ∀ x, x = 0 ∨ G.Enters x → G.InRange x 0

namespace Machine

variable {G : Ground} {hosted : Bool} {mode : Mode} {first b : Bool} {m m₁ m' : Machine}

/-! ### Runs -/

theorem Fits.range (hG : G.Ready) (hf : Fits G hosted m) (hstrict : G.regime.strict) :
    G.InRange m.sectionIndex m.pc := by
  rcases hf.place with hpc | hr
  · obtain ⟨base, es, rest, -, -, -, hb⟩ := hf.stands
    rw [hpc]
    refine hG hstrict _ ?_
    generalize m.sectionIndex = x at hb
    cases hb with
    | bottom => exact .inl rfl
    | host _ _ hx => exact .inr hx
    | call _ hx => exact .inr hx
  · exact hr

/-- Every machine that a run passes fits the layout. -/
theorem passes_fits (hG : G.Ready) (hf : Fits G hosted m) (hp : Passes mode first m b m') :
    Preserves G m m' ∧ Fits G hosted m' := by
  refine hp.invariant (I := fun m' => Preserves G m m' ∧ Fits G hosted m') ⟨.refl hf.sound, hf⟩ ?_
  rintro b m₁ m₂ ⟨hkeep, hfits⟩ ht
  have h := tick_fits hfits (hfits.range hG) mode b
  rw [ht] at h
  exact ⟨hkeep.trans h.1, h.2⟩

/-- How a run that fits the layout ends. -/
theorem drive_fits (hG : G.Ready) (hf : Fits G hosted m) {fuel : Nat} {r : Except Fault Stop}
    (hd : drive mode fuel first m = some (r, m')) :
    Preserves G m m' ∧ match r with
      | .ok reason => ∃ m₁, m₁.hostCalls = m.hostCalls ∧ Fits G hosted m₁ ∧
          Ends G hosted mode m₁ m' reason
      | .error f => (hosted = false → m'.state = .error) ∧
          (G.regime.strict → ∀ b, f.cause ≠ .invariant b) := by
  obtain ⟨b, m₁, hp, he⟩ := drive_ends hd
  obtain ⟨hkeep, hfits⟩ := passes_fits hG hf hp
  have h := tick_fits hfits (hfits.range hG) mode b
  obtain ⟨reason, rfl, ht⟩ | ⟨f, rfl, ht⟩ := he
  · rw [ht] at h
    exact ⟨hkeep.trans h.1, m₁, hkeep.hostCalls, hfits, h.2⟩
  · rw [ht] at h
    exact ⟨hkeep.trans h.1, h.2⟩

theorem Fits.of_state (hf : Fits G hosted m) (state : RunState) : Fits G hosted { m with state } :=
  ⟨hf.program, hf.sound.of_heap rfl rfl hf.sound.heap, hf.stands, hf.place⟩

/-! ### Requests -/

/-- A machine between requests: if it may go on with the script, it fits the layout, and if the
script is done, nothing is left on the stack unless a function may run the script. -/
structure Idle (G : Ground) (m : Machine) : Prop where
  program : m.program = G.program
  sound : G.regime.Sound m
  fits : m.state ≠ .error → m.state ≠ .done → Fits G false m
  done : m.state = .done → ¬ G.Enters 0 → m.stack.entries = []

/-- A failure that is no broken promise, if the regime is strict. -/
def Mild (G : Ground) (cause : Option Cause) : Prop :=
  G.regime.strict → ∀ b, cause ≠ some (.invariant b)

theorem Idle.of_fits (hi : Idle G m) (hp : Preserves G m m') (hdone : m'.state ≠ .done)
    (hf : m'.state ≠ .error → Fits G false m') : Idle G m' :=
  ⟨hp.program.trans hi.program, hp.sound hi.sound, fun h _ => hf h, fun h => absurd h hdone⟩

/-- At the end of the script the body of the script is on top of the stack. -/
theorem Ends.eof_bottom (he : Ends G hosted mode m m' .eof) (hzero : ¬ G.Enters 0) :
    hosted = false ∧ m'.stack.entries = [] := by
  obtain ⟨hx, k, base, es, rest, hstack, hl, -, hb⟩ := he
  rw [hx] at hb
  cases hl
  cases hb with
  | bottom h => exact ⟨h, hstack⟩
  | host _ _ hx => exact absurd hx hzero
  | call _ hx => exact absurd hx hzero

/-- A run ends with a stop that is settled, or with a fault. -/
theorem execute_drive {fuel : Nat} {r : Except Fault RunState} (herr : m.state ≠ .error)
    (hdone : m.state ≠ .done) (he : m.execute mode fuel = some (r, m')) :
    ∃ result m₁, drive mode fuel true { m with state := .running } = some (result, m₁) ∧
      match result with
      | .ok reason => m₁.settle reason = (r, m')
      | .error f => r = .error f ∧ m₁ = m' := by
  unfold execute at he
  split at he
  · rename_i h
    exact absurd h herr
  · rename_i h
    exact absurd h hdone
  · obtain ⟨⟨result, m₁⟩, hdrive, he⟩ := Option.map_eq_some_iff.1 he
    refine ⟨result, m₁, hdrive, ?_⟩
    cases result with
    | ok reason => exact he
    | error f =>
      obtain ⟨hr, hm⟩ := Prod.mk.inj he
      exact ⟨hr.symm, hm⟩

theorem execute_stopped {fuel : Nat} {r : Except Fault RunState}
    (hstate : m.state = .error ∨ m.state = .done) (he : m.execute mode fuel = some (r, m')) :
    m' = m ∧ ∀ b, failure? r ≠ some (.invariant b) := by
  unfold execute at he
  rcases hstate with h | h
  · rw [h] at he
    cases he
    exact ⟨rfl, nofun⟩
  · rw [h] at he
    cases he
    exact ⟨rfl, nofun⟩

/-- A machine that goes on with the script fits the layout again when it rests. -/
theorem execute_idle (hG : G.Ready) (hi : Idle G m) {fuel : Nat} {r : Except Fault RunState}
    (he : m.execute mode fuel = some (r, m')) : Idle G m' ∧ Mild G (failure? r) := by
  by_cases hstate : m.state = .error ∨ m.state = .done
  · obtain ⟨rfl, hr⟩ := execute_stopped hstate he
    exact ⟨hi, fun _ => hr⟩
  · obtain ⟨herr, hdone⟩ := not_or.1 hstate
    obtain ⟨result, m₁, hdrive, hresult⟩ := execute_drive herr hdone he
    have hstart : Preserves G m { m with state := .running } := ⟨rfl, rfl, rfl, .refl hi.sound.heap⟩
    obtain ⟨hkeep, hend⟩ := drive_fits hG ((hi.fits herr hdone).of_state .running) hdrive
    have hkeep := hstart.trans hkeep
    have hstop : ∀ state, Preserves G m { m₁ with state } := fun _ =>
      ⟨hkeep.program, hkeep.hosts, hkeep.hostCalls, hkeep.passage⟩
    cases result with
    | error f =>
      obtain ⟨rfl, rfl⟩ := hresult
      have herror := hend.1 rfl
      exact ⟨hi.of_fits hkeep (by rw [herror]; exact nofun) fun h => absurd herror h,
        fun hs b h => hend.2 hs b (Option.some.inj h)⟩
    | ok reason =>
      obtain ⟨m₂, -, hfits₂, hends⟩ := hend
      cases reason with
      | eof =>
        cases hresult
        refine ⟨⟨(hstop .done).program.trans hi.program, (hstop .done).sound hi.sound,
          fun _ h => absurd rfl h, fun _ hzero => (Ends.eof_bottom hends hzero).2⟩, fun _ => nofun⟩
      | breakpoint =>
        cases hresult
        exact ⟨hi.of_fits (hstop .paused) nofun fun _ => hends.1.of_state _, fun _ => nofun⟩
      | boundary =>
        cases hresult
        obtain ⟨-, rfl⟩ := hends
        exact ⟨hi.of_fits (hstop .paused) nofun fun _ => hfits₂.of_state _, fun _ => nofun⟩
      | hostReturn => cases hends.1

/-- Whatever the host does beside a machine leaves its place and its stack alone. -/
theorem Idle.aside (hi : Idle G m) {heap : Heap} {hosts : Hosts} (registry : Registry)
    (log : Array String) (hpass : G.regime.Passage m.heap heap) (hhosts : G.regime.Employs hosts) :
    Idle G { m with heap, hosts, registry, log } := by
  have hsound : G.regime.Sound { m with heap, hosts, registry, log } :=
    ⟨hi.sound.functions, hi.sound.constants, hhosts, hpass.holds⟩
  refine ⟨hi.program, hsound, fun h1 h2 => ?_, hi.done⟩
  have hf := hi.fits h1 h2
  exact ⟨hi.program, hsound, hf.stands.passage hpass, hf.place⟩

/-- A function that the host calls stands on the frame of that call. -/
theorem fits_entered (hi : Idle G m) {name : String} {args : List Value} {id : Identity}
    {g : ScriptFunction} (hl : m.lookup name = .ok (.function id g))
    (ha : ∀ v ∈ args, G.regime.Admits v) :
    G.regime.Passage m.heap (m.entered g args).heap ∧ Fits G true (m.entered g args) := by
  have hg : G.regime.allows g := by
    have h := Regime.gives_lookup hi.sound name
    rw [hl] at h
    exact h id g rfl
  have hsound : G.regime.Sound { m with state := .running, hostCalls := m.hostCalls + 1 } :=
    hi.sound.of_heap rfl rfl hi.sound.heap
  have hp := Regime.enterFunction_passage hsound g none ha true
  refine ⟨hp, hi.program, hsound.of_heap rfl rfl hp.holds, ?_, .inl rfl⟩
  have hlayout : G.layout (m.entered g args).sectionIndex (m.entered g args).pc = .empty :=
    G.laid.start _
  rw [hlayout]
  exact ⟨(m.entered g args).env, [], (m.entered g args).stack.entries, rfl, .nil, fun _ => rfl,
    .host rfl rfl ⟨g, hg, rfl⟩⟩

/-- What the host gets from a function that fits the layout. -/
theorem finishCall_mild (hzero : G.regime.strict → ¬ G.Enters 0) {saved : RunState}
    {result : Except Fault Value} {r : Except Fault Stop} (hcalls : m.hostCalls ≠ 0)
    (hend : match r with
      | .ok reason => ∃ m₂, m₂.hostCalls = m.hostCalls ∧ Fits G true m₂ ∧ Ends G true .run m₂ m₁ reason
      | .error f => G.regime.strict → ∀ b, f.cause ≠ .invariant b)
    (hf : finishCall saved (r, { m₁ with hostCalls := m₁.hostCalls - 1 }) = (result, m')) :
    Mild G (failure? result) := by
  intro hstrict b
  cases r with
  | error f =>
    cases hf
    exact fun h => hend hstrict b (Option.some.inj h)
  | ok reason =>
    obtain ⟨m₂, hm₂, -, hends⟩ := hend
    cases reason with
    | hostReturn =>
      obtain ⟨-, v, t, ht⟩ := hends
      have htop : m₁.stack.top? = some (.value v) := by rw [Stack.top?, ht]; rfl
      simp only [finishCall, htop] at hf
      cases hf
      exact fun h => by cases h
    | eof =>
      -- only the script has an end, and no allowed function runs the script
      cases (Ends.eof_bottom hends (hzero hstrict)).1
    | breakpoint => exact absurd (hm₂.symm.trans hends.2) hcalls
    | boundary => cases hends.1

theorem finishCall_keeps (saved : RunState) (r : Except Fault Stop) (m : Machine) :
    (finishCall saved (r, m)).2.program = m.program ∧ (finishCall saved (r, m)).2.hosts = m.hosts ∧
      (finishCall saved (r, m)).2.hostCalls = m.hostCalls ∧
      (finishCall saved (r, m)).2.heap = m.heap := by
  cases r with
  | error f =>
    unfold finishCall
    simp only
    split <;> exact ⟨rfl, rfl, rfl, rfl⟩
  | ok reason =>
    cases reason with
    | hostReturn =>
      unfold finishCall
      simp only
      split <;> exact ⟨rfl, rfl, rfl, rfl⟩
    | _ => exact ⟨rfl, rfl, rfl, rfl⟩

/-- A call leaves the machine as idle as it was. -/
theorem call_idle (hG : G.Ready) (hzero : G.regime.strict → ¬ G.Enters 0) (hi : Idle G m) {fuel : Nat}
    {name : String} {args : List Value} (ha : ∀ v ∈ args, G.regime.Admits v)
    {result : Except Fault Value} (hc : m.call fuel name args = some (result, m')) :
    Idle G m' ∧ Mild G (failure? result) := by
  cases calls_of_call hc with
  | @refused cause hcause =>
    refine ⟨hi, fun hstrict b h => ?_⟩
    obtain rfl : cause = .invariant b := Option.some.inj h
    rcases hcause with h | h | ⟨kind, h⟩
    · cases h
    · have hgives := Regime.gives_lookup hi.sound name
      rw [h] at hgives
      exact hgives.kept hstrict b rfl
    · cases h
  | @function id g r m₁ _ _ herr hl hd hf =>
    obtain ⟨hpass, hfits⟩ := fits_entered hi hl ha
    obtain ⟨hkeep, hend⟩ := drive_fits hG hfits hd
    have heffects := (finishCall_effects hd hf).2
    obtain ⟨hprogram, hhosts, hcalls, hheap⟩ :=
      finishCall_keeps m.state r { m₁ with hostCalls := m₁.hostCalls - 1 }
    rw [hf] at hprogram hhosts hcalls hheap
    have hpreserves : Preserves G m m' := by
      refine ⟨hprogram.trans hkeep.program, hhosts.trans hkeep.hosts, hcalls.trans ?_, ?_⟩
      · rw [hkeep.hostCalls]
        rfl
      · rw [show m'.heap = m₁.heap from hheap]
        exact hpass.trans hkeep.passage
    refine ⟨⟨hpreserves.program.trans hi.program, hpreserves.sound hi.sound, fun h1 h2 => ?_,
      fun hdone hnot => ?_⟩, ?_⟩
    · have hsame := heffects h1
      have hstate : m'.state = m.state := by rw [hsame]; rfl
      have hfits := hi.fits herr (hstate ▸ h2)
      have hpass := hpreserves.passage
      rw [hsame]
      exact ⟨hfits.program, hfits.sound.of_heap rfl rfl hpass.holds, hfits.stands.passage hpass,
        hfits.place⟩
    · have hsame := heffects (by rw [hdone]; exact nofun)
      rw [hsame] at hdone ⊢
      exact hi.done hdone hnot
    · refine finishCall_mild hzero (m := m.entered g args) (Nat.succ_ne_zero _) ?_ hf
      cases r with
      | ok reason => exact hend
      | error f => exact hend.2
  | @native handle result hresult =>
    have hnone : ∀ v : Value, none = some v → G.regime.Admits v := nofun
    obtain ⟨hp, hg⟩ := Regime.callNative_passage hi.sound handle hnone ha
    refine ⟨hi.aside _ _ hp hi.sound.hosts, fun hstrict b => ?_⟩
    rw [hresult]
    cases hr : (callNative handle none args m).1 with
    | ok v => exact nofun
    | error c =>
      rw [hr] at hg
      exact fun h => hg.kept hstrict b (Option.some.inj h)

/-- A machine at the start of the program. -/
theorem fits_start (hp : m.program = G.program) (hs : G.regime.Sound m)
    (hstack : m.stack = .empty) (hx : m.sectionIndex = 0) (hpc : m.pc = 0) : Fits G false m := by
  refine ⟨hp, hs, ?_, .inl hpc⟩
  rw [hx, hpc, G.laid.start, hstack]
  exact ⟨m.env, [], [], rfl, .nil, fun _ => rfl, .bottom rfl⟩

/-- **Requests keep a machine idle**, and under a strict regime none reports a broken promise. -/
theorem serve_idle (hG : G.Ready) (hzero : G.regime.strict → ¬ G.Enters 0) (hi : Idle G m)
    {request : Request} (hp : G.regime.Permits m request) {cause : Option Cause}
    (hs : m.serve request = some (cause, m')) : Idle G m' ∧ Mild G cause := by
  have hsame : G.regime.Passage m.heap m.heap := .refl hi.sound.heap
  have hhosts := hi.sound.hosts
  cases request with
  | run fuel | step fuel =>
    obtain ⟨⟨r, m₁⟩, hr, he⟩ := Option.map_eq_some_iff.1 hs
    cases he
    exact execute_idle hG hi hr
  | call fuel name args =>
    obtain ⟨⟨r, m₁⟩, hr, he⟩ := Option.map_eq_some_iff.1 hs
    cases he
    exact call_idle hG hzero hi hp hr
  | reset =>
    cases hs
    have hpass := Regime.passage_newScope hi.sound.heap {} rfl
    have hsound : G.regime.Sound m.reset := hi.sound.of_heap rfl rfl hpass.holds
    exact ⟨⟨hi.program, hsound, fun _ _ => fits_start hi.program hsound rfl rfl rfl, nofun⟩,
      fun _ => nofun⟩
  | define name v =>
    cases hs
    exact ⟨hi.aside _ _ (Regime.passage_define hi.sound.heap hp _ _) hhosts, fun _ => nofun⟩
  | add native =>
    cases hs
    have hadded : G.regime.Employs (m.hosts.add native).2 := by
      intro n hn
      rcases Array.mem_push.1 hn with hn | rfl
      · exact hhosts n hn
      · exact hp
    exact ⟨hi.aside _ _ hsame hadded, fun _ => nofun⟩
  | register name handle =>
    simp only [serve, register] at hs
    cases hr : m.registry.register name handle with
    | ok registry =>
      rw [hr] at hs
      cases hs
      exact ⟨hi.aside _ _ hsame hhosts, fun _ => nofun⟩
    | error c =>
      rw [hr] at hs
      cases hs
      have hc : c = .native "native name must not be empty" := by
        unfold Registry.register at hr
        split at hr <;> cases hr
        rfl
      exact ⟨hi, fun _ b h => by rw [hc] at h; cases h⟩
  | prepare heap =>
    cases hs
    exact ⟨hi.aside _ _ hp hhosts, fun _ => nofun⟩
  | takeLog =>
    cases hs
    exact ⟨hi.aside _ _ hsame hhosts, fun _ => nofun⟩

/-- A machine is idle between any requests. -/
theorem reaches_idle (hG : G.Ready) (hzero : G.regime.strict → ¬ G.Enters 0)
    (hfunctions : ∀ f ∈ G.program.functions, G.regime.allows f)
    (hconstants : ∀ v ∈ G.program.constants, G.regime.Admits v)
    (hr : G.regime.Reaches G.program m) : Idle G m := by
  induction hr with
  | @load config heap hosts hheap hhosts =>
    have hpass := Regime.passage_newScope hheap {} rfl
    have hsound : G.regime.Sound (load G.program config heap hosts) :=
      ⟨hfunctions, hconstants, hhosts, hpass.holds⟩
    exact ⟨rfl, hsound, fun _ _ => fits_start rfl hsound rfl rfl rfl, nofun⟩
  | serve _ hp hs ih => exact (serve_idle hG hzero ih hp hs).1

/-- Every machine that fetches an instruction fits the layout. -/
theorem visits_fits (hG : G.Ready) (hzero : G.regime.strict → ¬ G.Enters 0)
    (hfunctions : ∀ f ∈ G.program.functions, G.regime.allows f)
    (hconstants : ∀ v ∈ G.program.constants, G.regime.Admits v)
    (hv : G.regime.Visits G.program m) : ∃ hosted, Fits G hosted m := by
  obtain ⟨m₀, mode, start, first, hr, hb, hp⟩ := hv
  have hi := reaches_idle hG hzero hfunctions hconstants hr
  cases hb with
  | execute herr hdone =>
    exact ⟨false, (passes_fits hG ((hi.fits herr hdone).of_state .running) hp).2⟩
  | call herr hl ha => exact ⟨true, (passes_fits hG (fits_entered hi hl ha).2 hp).2⟩

end Machine

end ScriptMachine
