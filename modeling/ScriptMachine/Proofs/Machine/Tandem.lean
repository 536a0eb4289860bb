import ScriptMachine.Proofs.Machine.CatchUp
import ScriptMachine.Proofs.Machine.Lifecycle

/-!
# Tandem — runs of coupled programs

Errors go to the same places on machines that stand abreast, so one instruction here and those that stand for it
there lead to machines that stand abreast again. A run ends on the one machine if it ends on the other, with
the same result (`Follows`): code for brackets needs a few more instructions and one more entry on the stack.
-/

namespace ScriptMachine

open Compile

variable {P Q : Program}

/-- A fault with another numbering of constants. -/
def Fault.repooled (f : Nat → Nat) (fault : Fault) : Fault := { fault with cause := fault.cause.repooled f }

namespace Machine

/-! ### Errors -/

/-- Where unwinding ends in the other program. -/
def Landing.across (X : Coupling P Q) : Landing → Landing
  | .region r below => .region (r.across X) (below.map (·.across X))
  | .host f below => .host (f.across X) (below.map (·.across X))
  | .bottom last => .bottom (last.map (·.across X))

theorem unwind_across (X : Coupling P Q) (last : Option Frame) (entries : List Entry) :
    unwind (last.map (·.across X)) (entries.map (·.across X)) =
      ((unwind last entries).1.across X, (unwind last entries).2.map (·.across X)) := by
  induction entries generalizing last with
  | nil => rfl
  | cons e rest ih =>
    cases e with
    | value | loop => exact ih last
    | region => rfl
    | frame f =>
      have hnext := ih (some f)
      simp only [List.map_cons, Entry.across, unwind, Frame.across] at hnext ⊢
      split
      · rfl
      · exact congrArg (fun x : Landing × List Frame => (x.1, f.across X :: x.2)) hnext

/-- Unwinding ends at a marker of the stack. -/
theorem unwind_marker (last : Option Frame) (entries : List Entry) :
    match (unwind last entries).1 with
    | .region r _ => .region r ∈ entries
    | .host f _ => .frame f ∈ entries
    | .bottom last' => last' = last ∨ ∃ f, last' = some f ∧ .frame f ∈ entries := by
  induction entries generalizing last with
  | nil => exact .inl rfl
  | cons e rest ih =>
    have hcons : ∀ last', (match (unwind last' rest).1 with
        | .region r _ => .region r ∈ e :: rest
        | .host f _ => .frame f ∈ e :: rest
        | .bottom last'' => last'' = last' ∨ ∃ f, last'' = some f ∧ .frame f ∈ e :: rest) := fun last' => by
      have h := ih last'
      revert h
      cases (unwind last' rest).1 with
      | region r below => exact List.mem_cons_of_mem _
      | host f below => exact List.mem_cons_of_mem _
      | bottom last'' => exact Or.imp_right fun ⟨f, hf, hmem⟩ => ⟨f, hf, List.mem_cons_of_mem _ hmem⟩
    cases e with
    | value | loop => exact hcons last
    | region r => exact List.mem_cons_self
    | frame f =>
      by_cases hf : f.fromHost = true
      · simp [unwind, hf]
      · have h := hcons (some f)
        simp only [unwind, if_neg hf]
        revert h
        cases (unwind (some f) rest).1 with
        | region r below => exact id
        | host g below => exact id
        | bottom last' =>
          rintro (rfl | h)
          · exact .inr ⟨f, rfl, List.mem_cons_self⟩
          · exact .inr h

namespace Abreast

variable {X : Coupling P Q} {N : Nooks} {m M : Machine} {c : Cause} {mode : Mode} {first : Bool} {fuel : Nat}

/-- Two ends of routing an error. -/
structure Routed (X : Coupling P Q) (N : Nooks) (r r' : Option Fault × Machine) : Prop where
  machine : Abreast X N r.2 r'.2
  fault : r'.1 = r.1.map (·.repooled X.pool)
  entrance : r.1 = none → X.Entrance r.2.sectionIndex r.2.pc

theorem traceAt (hm : Abreast X N m M) (span : Option Span) : M.traceAt span = m.traceAt span := by
  rw [Machine.traceAt, Machine.traceAt, hm.program, hm.program', hm.sectionIndex, X.sectionName]

/-- An error that stops the machine for good. -/
theorem fatal (hm : Abreast X N m M) (c : Cause) (span : Option Span) :
    Abreast X N (m.fatal c span).2 (M.fatal (c.repooled X.pool) span).2 ∧
      (M.fatal (c.repooled X.pool) span).1 = (m.fatal c span).1.repooled X.pool :=
  ⟨{ hm with state := rfl }, by simp [Machine.fatal, Fault.repooled, hm.traceAt]⟩

/-- An error that reaches the host. -/
theorem surface (hm : Abreast X N m M) (c : Cause) (thrown : Value) (trace : Trace) :
    Abreast X N (m.surface c thrown trace).2 (M.surface (c.repooled X.pool) (thrown.repooled X.pool) trace).2 ∧
      (M.surface (c.repooled X.pool) (thrown.repooled X.pool) trace).1 =
        (m.surface c thrown trace).1.repooled X.pool := by
  have hcause : surfacedCause M.heap (thrown.repooled X.pool) (c.repooled X.pool) =
      (surfacedCause m.heap thrown c).repooled X.pool := by
    cases c with
    | thrown v => exact congrArg Cause.uncaught (hm.beside.message thrown)
    | _ => rfl
  simp only [Machine.surface, hcause, hm.beside.causeMessage]
  exact ⟨{ hm with log := by rw [hm.log], exception := rfl }, rfl⟩

theorem landed (hm : Abreast X N m M) (c : Cause) (thrown : Value) (trace : Trace) {landing : Landing}
    {frames : List Frame} (hl : unwind none m.stack.entries = (landing, frames)) :
    Routed X N (Machine.landed m c thrown trace landing)
      (Machine.landed M (c.repooled X.pool) (thrown.repooled X.pool) trace (landing.across X)) := by
  have hmarker := unwind_marker none m.stack.entries
  rw [hl] at hmarker
  cases landing with
  | region r below =>
    have hsub := unwind_subset hl (.inl ⟨r, rfl⟩)
    obtain ⟨hlodged, hlodges, hinside⟩ := hm.housed _ hmarker
    have hbelow : Abreast X N { m with stack := .ofList below } { M with stack := .ofList (below.map (·.across X)) } :=
      hm.onEntries rfl fun e he => hm.housed e (hsub he)
    have hpushed := hbelow.pushed (e := .value thrown) trivial
    exact ⟨{ hpushed with sectionIndex := rfl, pc := rfl, env := rfl, lodged := hlodges ▸ hlodged }, rfl,
      fun _ => .inr hinside⟩
  | host f below =>
    have hsub := unwind_subset hl (.inr ⟨f, rfl⟩)
    obtain ⟨hlodged, -⟩ := hm.housed _ hmarker
    have hback : Abreast X N { m.atFrame f with stack := .ofList below }
        { M.atFrame (f.across X) with stack := .ofList (below.map (·.across X)) } :=
      { hm.onEntries (s := .ofList below) (S := .ofList (below.map (·.across X))) rfl fun e he => hm.housed e (hsub he)
        with sectionIndex := rfl, pc := rfl, env := rfl, lodged := hlodged }
    obtain ⟨hend, hfault⟩ := hback.surface c thrown trace
    exact ⟨hend, congrArg some hfault, fun h => absurd h (Option.some_ne_none _)⟩
  | bottom last =>
    have hempty : Abreast X N { m with stack := .empty } { M with stack := .empty } := hm.onEntries rfl fun _ he => absurd he List.not_mem_nil
    have hback : Abreast X N { (last.map m.atFrame).getD m with stack := .empty }
        { ((last.map (·.across X)).map M.atFrame).getD M with stack := .empty } := by
      cases last with
      | none => exact hempty
      | some f =>
        obtain ⟨hlodged, -⟩ : Housed X N m.heap M.heap (.frame f) := by
          rcases hmarker with h | ⟨g, hg, hmem⟩
          · cases h
          · cases hg
            exact hm.housed _ hmem
        exact { hempty with sectionIndex := rfl, pc := rfl, env := rfl, lodged := hlodged }
    obtain ⟨hend, hfault⟩ := hback.surface c thrown trace
    exact ⟨{ hend with state := rfl }, congrArg some hfault, fun h => absurd h (Option.some_ne_none _)⟩

/-- The exception that an error becomes. -/
theorem thrownValue (hm : Abreast X N m M) (c : Cause) :
    (Machine.thrownValue (c.repooled X.pool) M.heap).1 = (Machine.thrownValue c m.heap).1.repooled X.pool ∧
      Abreast X N { m with heap := (Machine.thrownValue c m.heap).2 }
        { M with heap := (Machine.thrownValue (c.repooled X.pool) M.heap).2 } := by
  have hmessage := hm.beside.causeMessage c
  cases c with
  | thrown v => exact ⟨rfl, hm⟩
  | _ =>
    obtain ⟨hnew, hstep⟩ := hm.beside.newError _
    simp only [Cause.repooled] at hmessage
    simp only [Machine.thrownValue, Cause.repooled, hmessage]
    exact ⟨hnew, hm.onHeap hstep⟩

/-- **An error** goes to the same place. -/
theorem handle (hm : Abreast X N m M) (c : Cause) (span : Span) :
    Routed X N (m.handle c span) (M.handle (c.repooled X.pool) span) := by
  by_cases hc : c.isCatchable = true
  · obtain ⟨hthrown, hraised⟩ := hm.thrownValue c
    have hunwind := unwind_across X none m.stack.entries
    rw [← hm.entries] at hunwind
    have htrace : { M.traceAt (some span) with frames := (unwind none M.stack.entries).2.map Frame.callee } =
        { m.traceAt (some span) with frames := (unwind none m.stack.entries).2.map Frame.callee } := by
      rw [show unwind none M.stack.entries = _ from hunwind, hm.traceAt]
      simp [Frame.across, Function.comp_def]
    rw [handle_catchable hc, handle_catchable (by rwa [Cause.isCatchable_repooled]), hthrown, htrace]
    rw [show unwind none M.stack.entries = _ from hunwind]
    exact hraised.landed c _ _ (Prod.eta (unwind none m.stack.entries)).symm
  · unfold Machine.handle
    rw [Cause.isCatchable_repooled, if_pos (by simpa using hc), if_pos (by simpa using hc)]
    obtain ⟨hend, hfault⟩ := hm.fatal c (some span)
    exact ⟨hend, congrArg some hfault, fun h => absurd h (Option.some_ne_none _)⟩

/-! ### One instruction -/

/-- A script that stops outside of a host call has no hidden scopes around, and it can go on unless it has
ended. -/
structure Halts (X : Coupling P Q) (m : Machine) (reason reason' : Stop) : Prop where
  eq : reason' = reason
  entrance : reason.pauses = true → X.Entrance m.sectionIndex m.pc
  lodges : reason ≠ .hostReturn → X.lodges m.sectionIndex m.pc = []

/-- What one instruction leads to, and what those that stand for it lead to. -/
inductive Treads (X : Coupling P Q) (N : Nooks) : Tick → Tick → Prop where
  | next {m M : Machine} : Abreast X N m M → X.Entrance m.sectionIndex m.pc → Treads X N (.next m) (.next M)
  | stop {reason reason' : Stop} {m M : Machine} : Abreast X N m M → Halts X m reason reason' →
      Treads X N (.stop reason m) (.stop reason' M)
  | fault {fault : Fault} {m M : Machine} : Abreast X N m M → Treads X N (.fault fault m) (.fault (fault.repooled X.pool) M)

theorem routed (hm : Abreast X N m M) (c : Cause) (span : Span) :
    Treads X N (m.routed c span) (M.routed (c.repooled X.pool) span) := by
  obtain ⟨hmachine, hfault, hentrance⟩ := hm.handle c span
  unfold Machine.routed
  revert hmachine hfault hentrance
  rcases m.handle c span with ⟨fault, m'⟩
  rcases M.handle (c.repooled X.pool) span with ⟨fault', M'⟩
  rintro hmachine rfl hentrance
  cases fault with
  | none => exact .next hmachine (hentrance rfl)
  | some fault => exact .fault hmachine

/-- An instruction that ends or pauses a script stands outside of hidden scopes. -/
theorem lodges_of_stop {m : Machine} {cell : Cell} (hcell : (X.sheet m.sectionIndex)[m.pc]? = some cell) {reason : Stop}
    {m' : Machine} (hd : dispatch cell.instruction m.fetching = .ok (some reason) m') (hreason : reason ≠ .hostReturn) :
    X.lodges m'.sectionIndex m'.pc = [] := by
  have hop := stopsFor_dispatch cell.instruction _ _ _ hd
  have hcouple := (X.strand m.sectionIndex).couple hcell
  cases reason with
  | hostReturn => exact absurd rfl hreason
  | boundary => cases hop
  | eof =>
    have heof : cell.instruction.op = .eof := (Option.some.inj hop).symm
    rw [dispatch_eof heof] at hd
    cases hd
    exact hcouple.settled (.inl heof)
  | breakpoint =>
    have hdebugger : cell.instruction.op = .debugger := (Option.some.inj hop).symm
    rw [dispatch_debugger hdebugger] at hd
    split at hd <;> cases hd
    exact hcouple.settled (.inr hdebugger)

/-- **One instruction** leads to machines that stand abreast, once the other machine has caught up. -/
theorem tick (hm : Abreast X N m M) (hentrance : X.Entrance m.sectionIndex m.pc) (mode : Mode) (first : Bool)
    (hlimit : m.exceeded? = none) (hlimit' : M.exceeded? = none) (hfree : M.config.maxCycles = none) :
    ∃ k b M₁, k ≤ 3 ∧ Paces mode k first M b M₁ ∧
      ((M₁.exceeded? ≠ none ∧ M₁.stack.depth ≤ M.stack.depth + 1) ∨
        ∃ N', Treads X N' (m.tick mode first) (M₁.tick mode b)) := by
  have hdotted : m.program.instruction? m.sectionIndex m.pc =
      (X.sheet m.sectionIndex)[m.pc]?.map Cell.instruction :=
    (congrArg (·.instruction? m.sectionIndex m.pc) hm.program).trans (X.dotted m.sectionIndex m.pc)
  cases hcell : (X.sheet m.sectionIndex)[m.pc]? with
  | none =>
    -- only the beginning of an empty section has no instruction
    obtain hpc | hinside := hentrance
    · have hempty : X.sheet m.sectionIndex = [] := by
        rw [hpc] at hcell
        exact List.length_eq_zero_iff.1 (Nat.le_zero.1 (List.getElem?_eq_none_iff.1 hcell))
      have hpc' : M.pc = m.pc := by rw [hm.pc, hpc, X.place_zero]
      have hnone : M.program.instruction? m.sectionIndex m.pc = none := by
        rw [hm.program', X.bracketed, hempty]
        rfl
      rw [hcell, Option.map_none] at hdotted
      refine ⟨0, first, M, Nat.zero_le _, .here, .inr ⟨N, ?_⟩⟩
      obtain ⟨hend, hfault⟩ := hm.fatal (.invariant (.outside m.pc m.sectionIndex)) none
      simp only [Cause.repooled] at hend hfault
      simp only [Machine.tick, hlimit, hlimit', hdotted, hnone, hm.sectionIndex, hpc', hfault]
      exact .fault hend
    · exact absurd (List.getElem?_eq_none_iff.1 hcell) (Nat.not_le_of_lt hinside)
  | some cell =>
    have hi : m.program.instruction? m.sectionIndex m.pc = some cell.instruction := by rw [hdotted, hcell]; rfl
    by_cases hgo : mode = .step ∧ cell.instruction.boundary ∧ !first
    · obtain ⟨j, rest, htwin, hboundary⟩ := ((X.strand m.sectionIndex).couple hcell).first
      have hj : M.program.instruction? M.sectionIndex M.pc = some j := by
        have hat := hm.instruction? hcell (j := 0) (by simp [htwin])
        rwa [htwin] at hat
      refine ⟨0, first, M, Nat.zero_le _, .here, .inr ⟨N, ?_⟩⟩
      have hinside : X.Inside m.sectionIndex m.pc := (List.getElem?_eq_some_iff.1 hcell).1
      have hlodges : X.lodges m.sectionIndex m.pc = [] := by
        rw [Coupling.lodges, Compile.lodges, hcell]
        exact ((X.strand m.sectionIndex).get hcell).2 hgo.2.1
      simp only [Machine.tick, hlimit, hlimit', hi, hj, hboundary, if_pos hgo]
      exact .stop hm ⟨rfl, fun _ => .inr hinside, fun _ => hlodges⟩
    · cases hm.catchesUp hcell hgo hfree hlimit' with
      | full hk hp hfull hdepth => exact ⟨_, _, _, hk, hp, .inl ⟨hfull, hdepth⟩⟩
      | @level k b M₁ N' i' hk hp hlimit₁ hi' hgo' hspan hd =>
        refine ⟨k, b, M₁, hk, hp, .inr ⟨N', ?_⟩⟩
        rw [tick_eq hlimit hi hgo, tick_eq hlimit₁ hi' hgo', hspan]
        revert hd
        generalize hr : dispatch cell.instruction m.fetching = r, dispatch i' M₁.fetching = r'
        intro hd
        cases hd with
        | @ok a _ m' M' hm' hR =>
          obtain ⟨rfl, hresumes⟩ := hR
          rename_i a
          cases a with
          | none => exact .next hm' (hresumes rfl)
          | some reason =>
            exact .stop hm' ⟨rfl, hresumes, lodges_of_stop hcell hr⟩
        | error hm' => exact hm'.routed _ _

end Abreast

/-! ### Runs -/

/-- The machine after some instructions, if it goes on for so long. -/
def afterTicks (mode : Mode) : (n : Nat) → (first : Bool) → Machine → Option Machine
  | 0, _, m => some m
  | n + 1, first, m =>
    match m.tick mode first with
    | .next m => afterTicks mode n false m
    | _ => none

section Runs

variable {mode : Mode} {first b : Bool} {k n n' : Nat} {m M m' u : Machine} {r : Except Fault Stop × Machine}

/-- More instructions do not change how a run ends. -/
theorem drive_mono (h : drive mode n first m = some r) (hle : n ≤ n') : drive mode n' first m = some r := by
  induction n generalizing n' first m with
  | zero => cases h
  | succ n ih =>
    obtain ⟨n', rfl⟩ := Nat.exists_eq_succ_of_ne_zero (Nat.ne_of_gt (Nat.lt_of_lt_of_le n.succ_pos hle))
    unfold drive at h ⊢
    cases ht : m.tick mode first with
    | next m₁ =>
      rw [ht] at h
      exact ih h (Nat.le_of_succ_le_succ hle)
    | stop | fault =>
      rw [ht] at h
      exact h

/-- A run goes on behind the instructions that it begins with. -/
theorem Paces.drive_add (hp : Paces mode k first m b m') : drive mode (k + n) first m = drive mode n b m' := by
  induction hp with
  | here => rw [Nat.zero_add]
  | next ht _ _ ih =>
    rw [Nat.add_right_comm, drive, ht]
    exact ih

theorem Paces.drive_of (hp : Paces mode k first m b m') (h : drive mode n first m = some r) :
    ∃ n', n = k + n' ∧ drive mode n' b m' = some r := by
  induction hp generalizing n with
  | here => exact ⟨n, (Nat.zero_add n).symm, h⟩
  | next ht _ _ ih =>
    cases n with
    | zero => cases h
    | succ n =>
      rw [drive, ht] at h
      obtain ⟨left, hleft, hrun⟩ := ih h
      exact ⟨left, by omega, hrun⟩

/-- A run that goes on beyond such instructions. Meanwhile nothing is logged. -/
theorem Paces.afterTicks_of (hp : Paces mode k first m b m') (h : afterTicks mode n first m = some u) :
    u.log = m.log ∨ ∃ n', n = k + (n' + 1) ∧ afterTicks mode (n' + 1) b m' = some u := by
  induction hp generalizing n with
  | here =>
    cases n with
    | zero =>
      cases h
      exact .inl rfl
    | succ n => exact .inr ⟨n, (Nat.zero_add _).symm, h⟩
  | next ht hlog _ ih =>
    cases n with
    | zero =>
      cases h
      exact .inl rfl
    | succ n =>
      rw [afterTicks, ht] at h
      obtain hu | ⟨left, hleft, hrun⟩ := ih h
      · exact .inl (hu.trans hlog)
      · exact .inr ⟨left, by omega, hrun⟩

theorem Paces.afterTicks_add (hp : Paces mode k first m b m') :
    afterTicks mode (k + n) first m = afterTicks mode n b m' := by
  induction hp with
  | here => rw [Nat.zero_add]
  | next ht _ _ ih =>
    rw [Nat.add_right_comm, afterTicks, ht]
    exact ih

theorem fixed_of_next (ht : m.tick mode first = .next m') : Fixed m m' := by
  simpa [ht, Tick.machine] using fixed_tick m mode first

theorem Paces.fixed (hp : Paces mode k first m b m') : Fixed m m' := by
  induction hp with
  | here => exact .refl _
  | next ht _ _ ih => exact (fixed_of_next ht).trans ih

/-- A result that says that a limit was hit. -/
def HitsLimit {α : Type} : Except Fault α → Prop
  | .ok _ => False
  | .error fault => fault.cause.isLimit = true

instance {α : Type} (r : Except Fault α) : Decidable (HitsLimit r) :=
  match r with
  | .ok _ => isFalse id
  | .error fault => inferInstanceAs (Decidable (fault.cause.isLimit = true))

theorem tick_of_exceeded {limit : ResourceLimit} (h : m.exceeded? = some limit) (mode : Mode) (first : Bool) :
    m.tick mode first = .fault (m.fatal (.limit limit) none).1 (m.fatal (.limit limit) none).2 := by
  simp only [Machine.tick, h]

/-- A run does not go on from a machine beyond its limits. -/
theorem exceeded?_of_drive (h : drive mode n first m = some r) (hr : ¬ HitsLimit r.1) : m.exceeded? = none := by
  cases n with
  | zero => cases h
  | succ n =>
    by_contra hexceeded
    obtain ⟨limit, hlimit⟩ := Option.ne_none_iff_exists'.1 hexceeded
    simp only [drive, tick_of_exceeded hlimit] at h
    cases h
    exact hr rfl

theorem exceeded?_of_afterTicks (h : afterTicks mode (n + 1) first m = some u) : m.exceeded? = none := by
  by_contra hexceeded
  obtain ⟨limit, hlimit⟩ := Option.ne_none_iff_exists'.1 hexceeded
  simp only [afterTicks, tick_of_exceeded hlimit] at h
  cases h

end Runs

/-- How a run or a request ends on the one machine and on the other, which are related as `S` says, with results
that are related as `R` says. -/
inductive Concurs {α β : Type} (X : Coupling P Q) (S : Nooks → Machine → Machine → Prop) (R : Machine → α → β → Prop) :
    Except Fault α × Machine → Except Fault β × Machine → Prop where
  | ok {N : Nooks} {a : α} {b : β} {m M : Machine} : S N m M → R m a b → Concurs X S R (.ok a, m) (.ok b, M)
  | error {N : Nooks} (fault : Fault) {m M : Machine} : S N m M →
      Concurs X S R (.error fault, m) (.error (fault.repooled X.pool), M)

/-- Which of the two programs is known to come to an end. -/
inductive Side where
  | dots
  | brackets

namespace Side

/-- As many instructions as are enough for code for brackets. -/
def fuel : Side → Nat → Nat
  | .dots, n => 4 * n
  | .brackets, n => n

/-- Limits of the two machines: none on instructions, and room for a key where code for brackets has to follow. -/
structure Room (σ : Side) (c c' : Config) : Prop where
  free : c.maxCycles = none
  free' : c'.maxCycles = none
  stack : match σ with
    | .dots => c.maxStack < c'.maxStack
    | .brackets => c'.maxStack ≤ c.maxStack

theorem Room.fixed {σ : Side} {m M m' M' : Machine} (h : σ.Room m.config M.config) (hm : Fixed m m') (hM : Fixed M M') :
    σ.Room m'.config M'.config := by
  rwa [hm.config, hM.config]

/-- The one request comes to an end within its limits, so the other one ends as well. -/
def Follows {α β : Type} (σ : Side) (R : Except Fault α × Machine → Except Fault β × Machine → Prop)
    (x : Option (Except Fault α × Machine)) (y : Option (Except Fault β × Machine)) : Prop :=
  match σ with
  | .dots => ∀ a, x = some a → ¬ HitsLimit a.1 → ∃ b, y = some b ∧ R a b
  | .brackets => ∀ b, y = some b → ¬ HitsLimit b.1 → ∃ a, x = some a ∧ R a b

/-- What is known of the one program is known of the other. -/
def Gives (σ : Side) (p q : Prop) : Prop :=
  match σ with
  | .dots => p → q
  | .brackets => q → p

end Side

namespace Abreast

variable {X : Coupling P Q} {N : Nooks} {m M u U : Machine} {fuel n : Nat} {σ : Side}

/-- An instruction of code for dots that stays within the limits, and those that stand for it. -/
theorem treads_dots (hm : Abreast X N m M) (hentrance : X.Entrance m.sectionIndex m.pc)
    (hroom : Side.dots.Room m.config M.config) (hlimit : m.exceeded? = none) (mode : Mode) (first : Bool) :
    ∃ k b M₁ N', k ≤ 3 ∧ Paces mode k first M b M₁ ∧ Treads X N' (m.tick mode first) (M₁.tick mode b) := by
  have hdepth := (exceeded?_eq_none hroom.free).1 hlimit
  have hstack : m.config.maxStack < M.config.maxStack := hroom.stack
  have hlimit' : M.exceeded? = none := (exceeded?_eq_none hroom.free').2 (by rw [hm.depth]; omega)
  obtain ⟨k, b, M₁, hk, hp, ⟨hfull, hdepth'⟩ | ⟨N', htreads⟩⟩ := hm.tick hentrance mode first hlimit hlimit' hroom.free'
  · refine absurd ((exceeded?_eq_none ?_).2 ?_) hfull
    · rw [hp.fixed.config, hroom.free']
    · rw [hp.fixed.config]
      rw [hm.depth] at hdepth'
      omega
  · exact ⟨k, b, M₁, N', hk, hp, htreads⟩

/-- Instructions of code for brackets that stay within the limits, and the one that they stand for. -/
theorem treads_brackets (hm : Abreast X N m M) (hentrance : X.Entrance m.sectionIndex m.pc)
    (hroom : Side.brackets.Room m.config M.config) (hlimit : M.exceeded? = none) (mode : Mode) (first : Bool) :
    ∃ k b M₁, Paces mode k first M b M₁ ∧
      (M₁.exceeded? = none → ∃ N', Treads X N' (m.tick mode first) (M₁.tick mode b)) := by
  have hdepth := (exceeded?_eq_none hroom.free').1 hlimit
  have hstack : M.config.maxStack ≤ m.config.maxStack := hroom.stack
  have hlimit' : m.exceeded? = none := (exceeded?_eq_none hroom.free).2 (by rw [← hm.depth]; omega)
  obtain ⟨k, b, M₁, -, hp, hend⟩ := hm.tick hentrance mode first hlimit' hlimit hroom.free'
  exact ⟨k, b, M₁, hp, fun hfree => hend.resolve_left fun hfull => hfull.1 hfree⟩

variable {mode : Mode} {first : Bool}

/-- **A run of code for brackets** ends if the run of code for dots does. The induction is on the instructions of
the latter. -/
theorem drive_dots (hm : Abreast X N m M) (hentrance : X.Entrance m.sectionIndex m.pc)
    (hroom : Side.dots.Room m.config M.config) {r : Except Fault Stop × Machine}
    (h : drive mode fuel first m = some r) (hr : ¬ HitsLimit r.1) :
    ∃ r', drive mode (4 * fuel) first M = some r' ∧ Concurs X (Abreast X) (Halts X) r r' := by
  induction fuel generalizing N m M first with
  | zero => cases h
  | succ fuel ih =>
    obtain ⟨k, b, M₁, N', hk, hp, htreads⟩ := hm.treads_dots hentrance hroom (exceeded?_of_drive h hr) mode first
    have hdrive : drive mode (4 * (fuel + 1)) first M = drive mode (4 * fuel + 3 - k + 1) b M₁ := by
      rw [← hp.drive_add]
      congr 1
      omega
    rw [hdrive, drive]
    rw [drive] at h
    generalize ht : m.tick mode first = t at h htreads
    generalize ht' : M₁.tick mode b = t' at htreads ⊢
    cases htreads with
    | next hm' hentrance' =>
      have hroom' := hroom.fixed (fixed_of_next ht) (hp.fixed.trans (fixed_of_next ht'))
      obtain ⟨r', hr', hconcurs⟩ := ih hm' hentrance' hroom' h
      exact ⟨r', drive_mono hr' (by omega), hconcurs⟩
    | stop hm' hstop =>
      cases h
      exact ⟨_, rfl, .ok hm' hstop⟩
    | fault hm' =>
      cases h
      exact ⟨_, rfl, .error _ hm'⟩

/-- **A run of code for dots** ends if the run of code for brackets does. The induction is on the instructions of
the latter. -/
theorem drive_brackets (hm : Abreast X N m M) (hentrance : X.Entrance m.sectionIndex m.pc)
    (hroom : Side.brackets.Room m.config M.config) {r' : Except Fault Stop × Machine}
    (h : drive mode fuel first M = some r') (hr : ¬ HitsLimit r'.1) :
    ∃ r, drive mode fuel first m = some r ∧ Concurs X (Abreast X) (Halts X) r r' := by
  induction fuel using Nat.strongRecOn generalizing N m M first with
  | ind fuel ih =>
    obtain ⟨k, b, M₁, hp, htreads⟩ := hm.treads_brackets hentrance hroom (exceeded?_of_drive h hr) mode first
    obtain ⟨left, rfl, h₁⟩ := hp.drive_of h
    obtain ⟨N', htreads⟩ := htreads (exceeded?_of_drive h₁ hr)
    cases left with
    | zero => cases h₁
    | succ left =>
      have hmono : ∀ {r}, drive mode (left + 1) first m = some r → drive mode (k + (left + 1)) first m = some r :=
        fun hd => drive_mono hd (Nat.le_add_left _ _)
      rw [drive] at h₁
      rw [drive] at hmono
      generalize ht : m.tick mode first = t at hmono htreads
      generalize ht' : M₁.tick mode b = t' at h₁ htreads
      cases htreads with
      | next hm' hentrance' =>
        have hroom' := hroom.fixed (fixed_of_next ht) (hp.fixed.trans (fixed_of_next ht'))
        obtain ⟨r, hr, hconcurs⟩ := ih left (by omega) hm' hentrance' hroom' h₁
        exact ⟨r, hmono hr, hconcurs⟩
      | stop hm' hstop =>
        cases h₁
        exact ⟨_, hmono rfl, .ok hm' hstop⟩
      | fault hm' =>
        cases h₁
        exact ⟨_, hmono rfl, .error _ hm'⟩

/-- **Runs** of coupled programs end together. -/
theorem drive (hm : Abreast X N m M) (hentrance : X.Entrance m.sectionIndex m.pc) (hroom : σ.Room m.config M.config)
    (mode : Mode) (fuel : Nat) (first : Bool) : σ.Follows (Concurs X (Abreast X) (Halts X)) (Machine.drive mode fuel first m)
      (Machine.drive mode (σ.fuel fuel) first M) := by
  cases σ with
  | dots => exact fun _ => hm.drive_dots hentrance hroom
  | brackets => exact fun _ => hm.drive_brackets hentrance hroom

/-- What has been logged by code for dots is logged by code for brackets. -/
theorem afterTicks_dots (hm : Abreast X N m M) (hentrance : X.Entrance m.sectionIndex m.pc)
    (hroom : Side.dots.Room m.config M.config) (h : afterTicks mode n first m = some u) :
    ∃ n' U, afterTicks mode n' first M = some U ∧ U.log = u.log := by
  induction n generalizing N m M first with
  | zero =>
    cases h
    exact ⟨0, M, rfl, hm.log⟩
  | succ n ih =>
    obtain ⟨k, b, M₁, N', -, hp, htreads⟩ := hm.treads_dots hentrance hroom (exceeded?_of_afterTicks h) mode first
    rw [afterTicks] at h
    generalize ht : m.tick mode first = t at h htreads
    generalize ht' : M₁.tick mode b = t' at htreads
    cases htreads with
    | @next _ M' hm' hentrance' =>
      have hroom' := hroom.fixed (fixed_of_next ht) (hp.fixed.trans (fixed_of_next ht'))
      obtain ⟨n', U, hU, hlog⟩ := ih hm' hentrance' hroom' h
      refine ⟨k + (n' + 1), U, ?_, hlog⟩
      rw [hp.afterTicks_add, afterTicks, ht']
      exact hU
    | stop | fault => cases h

/-- What has been logged by code for brackets is logged by code for dots. -/
theorem afterTicks_brackets (hm : Abreast X N m M) (hentrance : X.Entrance m.sectionIndex m.pc)
    (hroom : Side.brackets.Room m.config M.config) (h : afterTicks mode n first M = some U) :
    ∃ n' u, afterTicks mode n' first m = some u ∧ U.log = u.log := by
  induction n using Nat.strongRecOn generalizing N m M first with
  | ind n ih =>
    cases n with
    | zero =>
      cases h
      exact ⟨0, m, rfl, hm.log⟩
    | succ n =>
      obtain ⟨k, b, M₁, hp, htreads⟩ := hm.treads_brackets hentrance hroom (exceeded?_of_afterTicks h) mode first
      obtain hlog | ⟨left, hleft, h₁⟩ := hp.afterTicks_of h
      · exact ⟨0, m, rfl, hlog.trans hm.log⟩
      · obtain ⟨N', htreads⟩ := htreads (exceeded?_of_afterTicks h₁)
        rw [afterTicks] at h₁
        generalize ht : m.tick mode first = t at htreads
        generalize ht' : M₁.tick mode b = t' at h₁ htreads
        cases htreads with
        | next hm' hentrance' =>
          have hroom' := hroom.fixed (fixed_of_next ht) (hp.fixed.trans (fixed_of_next ht'))
          obtain ⟨n', u, hu, hlog⟩ := ih left (by omega) hm' hentrance' hroom' h₁
          refine ⟨n' + 1, u, ?_, hlog⟩
          rw [afterTicks, ht]
          exact hu
        | stop | fault => cases h₁

/-- **The lines of a run** that goes on are the same. -/
theorem afterTicks (hm : Abreast X N m M) (hentrance : X.Entrance m.sectionIndex m.pc) (hroom : σ.Room m.config M.config)
    (mode : Mode) (first : Bool) (lines : Array String) :
    σ.Gives (∃ n u, Machine.afterTicks mode n first m = some u ∧ u.log = lines)
      (∃ n U, Machine.afterTicks mode n first M = some U ∧ U.log = lines) := by
  cases σ with
  | dots =>
    rintro ⟨n, u, hu, rfl⟩
    exact hm.afterTicks_dots hentrance hroom hu
  | brackets =>
    rintro ⟨n, U, hU, rfl⟩
    obtain ⟨n', u, hu, hlog⟩ := hm.afterTicks_brackets hentrance hroom hU
    exact ⟨n', u, hu, hlog.symm⟩

end Abreast

end Machine

end ScriptMachine
