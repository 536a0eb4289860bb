import ScriptMachine.Proofs.Machine.Reset

/-!
# Surfacing — how errors come to the host

Errors leave a machine in one shape: a thrown value is reported as an uncaught exception and remembered,
and an exceeded limit or a broken promise leaves the machine in failure (`Surfaced`). Routing an error has
this property at each of its exits, so every run has it, and so has every call of a function. Only a host
value that the host calls by its name is not routed: what it reports reaches the host as it is
(`errors_surface`).
-/

namespace ScriptMachine

/-- Exceeded limits and broken promises: nothing goes on after them. -/
def Cause.IsFinal (c : Cause) : Prop := (∃ limit, c = .limit limit) ∨ ∃ breach, c = .invariant breach

/-- An error as the host gets it, with the machine it leaves. -/
structure Surfaced (c : Cause) (m : Machine) : Prop where
  /-- No thrown value reaches the host bare. -/
  wrapped : ∀ x, c ≠ .thrown x
  /-- What nothing goes on after has ended the machine. -/
  final : c.IsFinal → m.state = .error

namespace Machine

variable {m m' u v w : Machine} {c : Cause} {span : Span} {fault : Fault} {mode : Mode} {first b : Bool} {fuel : Nat}

/-! ### Routing an error -/

theorem not_isFinal_of_isCatchable (hc : c.isCatchable = true) : ¬ c.IsFinal := by
  rintro (⟨limit, rfl⟩ | ⟨breach, rfl⟩) <;> cases hc

/-- What reaches the host of a catchable error is neither thrown nor final. -/
theorem surfaced_surfacedCause (hc : c.isCatchable = true) (h : Heap) (thrown : Value) (m : Machine) :
    Surfaced (surfacedCause h thrown c) m := by
  cases c with
  | thrown x => exact ⟨fun _ he => (by cases he), fun hfinal => by rcases hfinal with ⟨_, he⟩ | ⟨_, he⟩ <;> cases he⟩
  | _ => exact ⟨fun _ he => (by cases he), fun hfinal => absurd hfinal (not_isFinal_of_isCatchable hc)⟩

/-- Wherever unwinding ends, what is not caught is surfaced. -/
theorem landed_surfaced (hc : c.isCatchable = true) {thrown : Value} {trace : Trace} {landing : Landing}
    (h : landed m c thrown trace landing = (some fault, u)) : Surfaced fault.cause u := by
  cases landing with
  | region => cases h
  | host | bottom =>
    cases h
    exact surfaced_surfacedCause hc _ _ _

theorem handle_surfaced (h : m.handle c span = (some fault, u)) : Surfaced fault.cause u := by
  by_cases hc : c.isCatchable = true
  · rw [handle_catchable hc] at h
    exact landed_surfaced hc h
  · unfold handle at h
    rw [if_pos (by simpa using hc)] at h
    cases h
    refine ⟨?_, fun _ => rfl⟩
    rintro x rfl
    exact hc rfl

/-- A thrown value that nothing catches is an uncaught exception, and it is remembered. -/
theorem handle_thrown {x : Value} (h : m.handle (.thrown x) span = (some fault, u)) :
    fault.cause = .uncaught (x.message m.heap) ∧ u.lastException = some x := by
  rw [handle_catchable rfl] at h
  cases hl : (unwind none m.stack.entries).1 with
  | region => rw [hl] at h; cases h
  | host =>
    rw [hl] at h
    cases h
    exact ⟨rfl, rfl⟩
  | bottom last =>
    rw [hl] at h
    cases h
    cases last <;> exact ⟨rfl, rfl⟩

/-! ### Runs -/

/-- **One instruction** surfaces the errors that it does not route to a region. -/
theorem tick_surfaced (h : v.tick mode first = .fault fault u) : Surfaced fault.cause u := by
  rcases tick_cases mode first v with ⟨-, -, ht, -⟩ | ⟨ht, -⟩
  · cases ht.symm.trans h
  rw [ht] at h
  by_cases hfetch : v.fetches .run true = true
  · obtain ⟨i, hi⟩ := tick_of_fetches hfetch
    rw [hi] at h
    cases hd : dispatch i v.fetching with
    | ok r w =>
      rw [hd] at h
      cases r <;> cases h
    | error c w =>
      rw [hd] at h
      simp only [routed] at h
      split at h
      · cases h
      · rename_i hhandle
        cases h
        exact handle_surfaced hhandle
  · obtain ⟨fault', hfault, hcause⟩ := tick_of_not_fetches (Bool.eq_false_iff.2 hfetch)
    rw [hfault] at h
    cases h
    refine ⟨fun x hx => ?_, fun _ => rfl⟩
    rcases hcause with ⟨_, hcause⟩ | ⟨_, hcause⟩ <;> cases hcause.symm.trans hx

theorem drive_surfaced (h : drive mode fuel first m = some (.error fault, u)) : Surfaced fault.cause u := by
  obtain ⟨b, v, -, ⟨reason, he, -⟩ | ⟨fault', he, ht⟩⟩ := drive_ends h
  · cases he
  · cases he
    exact tick_surfaced ht

/-- Running and stepping surface errors. -/
theorem execute_surfaced (h : m.execute mode fuel = some (.error fault, m')) : Surfaced fault.cause m' := by
  by_cases hlive : m.Live
  · rw [execute_eq hlive] at h
    obtain ⟨⟨r, u⟩, hd, ha⟩ := Option.map_eq_some_iff.1 h
    cases r with
    | ok reason =>
      cases reason with
      | hostReturn =>
        cases ha
        exact ⟨nofun, fun _ => rfl⟩
      | eof | breakpoint | boundary => cases ha
    | error fault =>
      cases ha
      exact drive_surfaced hd
  · unfold execute at h
    split at h
    · cases h
      exact ⟨nofun, fun hfinal => by rcases hfinal with ⟨_, he⟩ | ⟨_, he⟩ <;> cases he⟩
    · cases h
    · rename_i herror hdone
      exact absurd ⟨herror, hdone⟩ hlive

/-! ### Calls -/

theorem lookup_error {name : String} (h : m.lookup name = .error c) : c = .undefinedVariable name := by
  unfold lookup at h
  split at h
  · cases h
  · split at h
    · cases h
    · split at h <;> cases h
      rfl

/-- A function that the host calls surfaces the errors that it does not catch. Where it returns to the host
its value lies on the stack, so that exit reports none. -/
theorem finishCall_surfaced {g : ScriptFunction} {args : List Value} {r : Except Fault Stop}
    (hd : drive .run fuel true (m.entered g args) = some (r, u))
    (hf : finishCall m.state (r, { u with hostCalls := u.hostCalls - 1 }) = (.error fault, m')) :
    Surfaced fault.cause m' := by
  cases r with
  | ok reason =>
    cases reason with
    | hostReturn =>
      obtain ⟨b, v, hp, ⟨reason, he, hstop⟩ | ⟨fault', he, -⟩⟩ := drive_ends hd
      · cases he
        have hguards := tick_guarded (f := m.hostFrame g) rfl .run b (passes_guarded hp).1
        rw [hstop] at hguards
        obtain ⟨x, hx⟩ := hguards.2.2 rfl
        have htop : u.stack.top? = some (.value x) := by rw [Stack.top?, hx.stack]; rfl
        simp only [finishCall, htop] at hf
        cases hf
      · cases he
    | eof | breakpoint | boundary =>
      cases hf
      exact ⟨fun _ h => (by cases h), fun _ => rfl⟩
  | error fault' =>
    have hsurfaced := drive_surfaced hd
    simp only [finishCall] at hf
    split at hf
    · rename_i herror
      cases hf
      exact ⟨hsurfaced.wrapped, fun _ => herror⟩
    · rename_i hne
      cases hf
      exact ⟨hsurfaced.wrapped, fun hfinal => absurd (hsurfaced.final hfinal) hne⟩

/-- The host calls a host value by its name, and gets what that reports. -/
def Relays (m : Machine) (request : Request) (c : Cause) (m' : Machine) : Prop :=
  ∃ fuel name args handle, request = .call fuel name args ∧ m.state ≠ .error ∧
    m.lookup name = .ok (.native handle) ∧ handle.callable = true ∧
    callNative handle none args m = (.error c, m')

/-- The machine stays as it is but for its heap and its log. -/
theorem Relays.aside {request : Request} (h : Relays m request c m') :
    m.state ≠ .error ∧ m' = { m with heap := m'.heap, log := m'.log } := by
  obtain ⟨_, _, _, _, -, hstate, -, -, hcall⟩ := h
  have hm' : (callNative _ none _ m).2 = m' := congrArg Prod.snd hcall
  exact ⟨hstate, by rw [← hm']; rfl⟩

/-- A relayed error is surfaced only if it is neither thrown nor final. -/
theorem Relays.surfaced_iff {request : Request} (h : Relays m request c m') :
    Surfaced c m' ↔ (∀ x, c ≠ .thrown x) ∧ ¬ c.IsFinal := by
  obtain ⟨hstate, hm'⟩ := h.aside
  have hstate' : m'.state ≠ .error := by
    rw [hm']
    exact hstate
  exact ⟨fun h => ⟨h.wrapped, fun hfinal => hstate' (h.final hfinal)⟩,
    fun h => ⟨h.1, fun hfinal => absurd hfinal h.2⟩⟩

/-- A call surfaces its errors unless it relays them. -/
theorem call_surfaced {name : String} {args : List Value} (h : m.call fuel name args = some (.error fault, m')) :
    Surfaced fault.cause m' ∨ Relays m (.call fuel name args) fault.cause m' := by
  have hplain : ∀ {c : Cause} {m' : Machine}, (∀ x, c ≠ .thrown x) → ¬ c.IsFinal → Surfaced c m' :=
    fun hc hfinal => ⟨hc, fun h => absurd h hfinal⟩
  have hkind : ∀ kind, ¬ (Cause.notCallable kind).IsFinal := fun _ => not_isFinal_of_isCatchable rfl
  unfold call at h
  split at h
  · cases h
    exact .inl (hplain nofun (by rintro (⟨_, he⟩ | ⟨_, he⟩) <;> cases he))
  · rename_i hstate
    split at h
    · rename_i hl
      cases h
      rw [lookup_error hl]
      exact .inl (hplain nofun (not_isFinal_of_isCatchable rfl))
    · obtain ⟨⟨r, u⟩, hd, hf⟩ := Option.map_eq_some_iff.1 h
      exact .inl (finishCall_surfaced hd hf)
    · rename_i handle hl
      split at h
      · rename_i hcallable
        split at h
        · cases h
        · rename_i hcall
          cases h
          exact .inr ⟨fuel, name, args, handle, rfl, hstate, hl, hcallable, hcall⟩
      · cases h
        exact .inl (hplain nofun (hkind _))
    · cases h
      exact .inl (hplain nofun (hkind _))

/-! ### Thrown values -/

/-- An instruction throws a value that no region catches. The second machine is the one it throws at. -/
def Escapes (mode : Mode) (first : Bool) (v : Machine) (x : Value) (w : Machine) : Prop :=
  v.fetches mode first = true ∧ ∃ i fault u, v.program.instruction? v.sectionIndex v.pc = some i ∧
    dispatch i v.fetching = .error (.thrown x) w ∧ w.handle (.thrown x) i.span = (some fault, u)

theorem Escapes.tick {x : Value} (h : Escapes mode first v x w) : ∃ fault u,
    v.tick mode first = .fault fault u ∧ fault.cause = .uncaught (x.message w.heap) ∧ u.lastException = some x := by
  obtain ⟨hfetch, i, fault, u, hi, hd, hhandle⟩ := h
  refine ⟨fault, u, ?_, handle_thrown hhandle⟩
  rcases tick_cases mode first v with ⟨-, -, -, hnot, -⟩ | ⟨ht, -⟩
  · rw [hnot] at hfetch
    cases hfetch
  · rw [fetches, Bool.and_eq_true, Option.isNone_iff_eq_none] at hfetch
    rw [ht, tick_of_instruction hfetch.1 hi, hd]
    simp only [routed, hhandle]

/-- A run that comes to a fault ends with it. -/
theorem drive_of_fault {result : Except Fault Stop × Machine} (hp : Passes mode first v b w)
    (ht : w.tick mode b = .fault fault u) (h : drive mode fuel first v = some result) : result = (.error fault, u) := by
  obtain ⟨fuel', h'⟩ := drive_of_passes hp h
  cases fuel' with
  | zero => cases h'
  | succ fuel' =>
    unfold Machine.drive at h'
    rw [ht] at h'
    cases h'
    rfl

/-- A request that comes to a fault ends with its cause, and the exception stays remembered. -/
theorem serve_of_fault {request : Request} {cause : Option Cause} (hs : request.Starts m mode v)
    (hp : Passes mode true v b w) (ht : w.tick mode b = .fault fault u) (h : m.serve request = some (cause, m')) :
    cause = some fault.cause ∧ m'.lastException = u.lastException := by
  cases hs with
  | run hlive | step hlive =>
    obtain ⟨⟨r, m₁⟩, hx, he⟩ := Option.map_eq_some_iff.1 h
    cases he
    obtain ⟨result, hd, ha⟩ := Option.map_eq_some_iff.1 ((execute_eq hlive).symm.trans hx)
    rw [drive_of_fault hp ht hd] at ha
    cases ha
    exact ⟨rfl, rfl⟩
  | call hstate hl =>
    obtain ⟨⟨r, m₁⟩, hx, he⟩ := Option.map_eq_some_iff.1 h
    cases he
    rw [(call_function hstate hl _ _).2] at hx
    obtain ⟨result, hd, ha⟩ := Option.map_eq_some_iff.1 hx
    rw [drive_of_fault hp ht hd] at ha
    simp only [Machine.finishCall] at ha
    split at ha <;>
    · cases ha
      exact ⟨rfl, rfl⟩

/-! ### Requests -/

theorem register_error {r : Registry} {name : String} {handle : NativeHandle} (h : r.register name handle = .error c) :
    c = .native "native name must not be empty" := by
  unfold Registry.register at h
  split at h <;> cases h
  rfl

theorem serve_surfaced {request : Request} (h : m.serve request = some (some c, m')) :
    Surfaced c m' ∨ Relays m request c m' := by
  cases request with
  | run fuel | step fuel =>
    obtain ⟨⟨r, u⟩, hx, he⟩ := Option.map_eq_some_iff.1 h
    cases r <;> cases he
    exact .inl (execute_surfaced hx)
  | call fuel name args =>
    obtain ⟨⟨r, u⟩, hx, he⟩ := Option.map_eq_some_iff.1 h
    cases r <;> cases he
    exact call_surfaced hx
  | register name handle =>
    simp only [serve, register] at h
    cases hr : m.registry.register name handle with
    | ok registry =>
      rw [hr] at h
      cases h
    | error cause =>
      rw [hr] at h
      cases h
      rw [register_error hr]
      exact .inl ⟨fun _ h => (by cases h), fun hfinal => absurd hfinal (not_isFinal_of_isCatchable rfl)⟩
  | reset | define | add | prepare | takeLog => cases h

/-- **Errors surface uniformly, unless a host value is called by its name.** Whatever the host asks of a
machine, an error that reaches it is not a bare thrown value, and an exceeded limit or a broken promise
leaves the machine in failure; a value that an instruction throws and nothing catches is reported as an
uncaught exception and remembered. A host value that the host calls by its name is not looked after in this
way: its error is relayed as it is, the machine keeps its state and its last exception, and the error is in
shape only if the host value raised nothing thrown and nothing final. -/
theorem errors_surface (m : Machine) (request : Request) {cause : Option Cause}
    (h : m.serve request = some (cause, m')) :
    (∀ c, cause = some c → Surfaced c m' ∨
      Relays m request c m' ∧ m'.state = m.state ∧ m'.lastException = m.lastException ∧
        (Surfaced c m' ↔ (∀ x, c ≠ .thrown x) ∧ ¬ c.IsFinal)) ∧
    ∀ mode v b v' x w, request.Starts m mode v → Passes mode true v b v' → Escapes mode b v' x w →
      cause = some (.uncaught (x.message w.heap)) ∧ m'.lastException = some x := by
  refine ⟨?_, fun mode v b v' x w hs hp hx => ?_⟩
  · rintro c rfl
    refine (serve_surfaced h).imp_right fun hrelays => ?_
    obtain ⟨-, hm'⟩ := hrelays.aside
    exact ⟨hrelays, by rw [hm'], by rw [hm'], hrelays.surfaced_iff⟩
  · obtain ⟨fault, u, ht, hcause, hexception⟩ := hx.tick
    obtain ⟨he, hlast⟩ := serve_of_fault hs hp ht h
    exact ⟨by rw [he, hcause], hlast.trans hexception⟩

/-- A machine with a host function `raise` that throws its argument and a host function `exhaust` that claims
to be out of instructions; its function `f` throws a string. -/
def throwing : Machine :=
  let m := load
    { sections := #[⟨"<script>", #[{ op := .eof }]⟩, ⟨"f", #[{ op := .const 0 }, { op := .throw }, { op := .ret }]⟩]
      constants := #[.string "boom"]
      functions := #[⟨"f", 1, 0, []⟩] } {} {} {}
  let (raise, m) := m.addHost (Native.raise "raise")
  let (exhaust, m) := m.addHost (Native.exhaust "exhaust")
  ((m.register "raise" raise).2.register "exhaust" exhaust).2

/-- The function `f` throws, and the call of it reports an uncaught exception. -/
theorem errors_surface_throwing : ∃ m' b v w, throwing.serve (.call 10 "f" []) = some (some (.uncaught "boom"), m') ∧
    Surfaced (.uncaught "boom") m' ∧ Escapes .run b v (.string "boom") w ∧
    m'.lastException = some (.string "boom") := by
  have hmessage : (Value.string "boom").message throwing.heap = "boom" := by decide +kernel
  have hserve : ∃ m', throwing.serve (.call 10 "f" []) =
      some (some (.uncaught ((Value.string "boom").message throwing.heap)), m') := ⟨_, by with_unfolding_all rfl⟩
  obtain ⟨m', hserve⟩ := hserve
  rw [hmessage] at hserve
  have hstarts : (Request.call 10 "f" []).Starts throwing .run (throwing.entered ⟨"f", 1, 0, []⟩ []) :=
    .call (by decide) (show throwing.lookup "f" = .ok (.function (.declared 0) _) by with_unfolding_all rfl)
  have hpasses : ∃ v, Passes .run true (throwing.entered ⟨"f", 1, 0, []⟩ []) false v ∧
      Escapes .run false v (.string "boom") { v.fetching with stack := v.stack.drop } :=
    ⟨_, .next .start rfl, rfl, _, _, _, rfl, rfl, rfl⟩
  obtain ⟨v, hpasses, hescapes⟩ := hpasses
  obtain ⟨hsurfaces, hthrown⟩ := errors_surface throwing (.call 10 "f" []) hserve
  refine ⟨m', false, v, _, hserve, ?_, hescapes, (hthrown .run _ false v _ _ hstarts hpasses hescapes).2⟩
  rcases hsurfaces _ rfl with hsurfaced | ⟨-, -, -, hiff⟩
  · exact hsurfaced
  · exact hiff.2 ⟨nofun, by rintro (⟨_, he⟩ | ⟨_, he⟩) <;> cases he⟩

/-- Called by its name, `raise` hands its bare value to the host, and no exception is remembered; and after
`exhaust` has reported an exceeded limit the machine is as ready as before. -/
theorem relays_bare :
    ∃ m₁ m₂, throwing.serve (.call 10 "raise" [.string "boom"]) = some (some (.thrown (.string "boom")), m₁) ∧
    m₁.lastException = none ∧ ¬ Surfaced (.thrown (.string "boom")) m₁ ∧
    throwing.serve (.call 10 "exhaust" []) = some (some (.limit (.cycles 7)), m₂) ∧
    m₂.state = .ready ∧ ¬ Surfaced (.limit (.cycles 7)) m₂ := by
  refine ⟨_, _, by with_unfolding_all rfl, rfl, fun h => h.wrapped _ rfl, by with_unfolding_all rfl, rfl, fun h => ?_⟩
  have hstate := h.final (.inl ⟨_, rfl⟩)
  exact absurd hstate (by decide)

end Machine

end ScriptMachine
