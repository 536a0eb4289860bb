import ScriptMachine.Proofs.Machine.Course
import ScriptMachine.Proofs.Machine.Guard

/-!
# Slicing — where an execution is interrupted does not matter

A machine executes one instruction after the other, whatever the mode: stepping only stops earlier, in
front of a statement, and the next call goes on from there. `Arrives` follows a machine past such stops, up to
a stop that counts as the end. It says the same for every way to cut an execution into calls, so all of
them lead to one machine, with one result, through the same instructions.
-/

namespace ScriptMachine.Machine

/-- A machine that has neither failed nor finished. -/
def Live (m : Machine) : Prop := m.state ≠ .error ∧ m.state ≠ .done

instance (m : Machine) : Decidable m.Live := inferInstanceAs (Decidable (_ ∧ _))

/-- The machine while it executes. -/
def awake (m : Machine) : Machine := { m with state := .running }

/-- Whether the machine executes the instruction at its place. It may also fail or stop in front of it. -/
def fetches (mode : Mode) (first : Bool) (m : Machine) : Bool :=
  m.exceeded?.isNone &&
    (m.program.instruction? m.sectionIndex m.pc).any fun i => !decide (mode = .step ∧ i.boundary ∧ !first)

/-- The machines whose instructions are executed. -/
def visited (mode : Mode) : (fuel : Nat) → (first : Bool) → Machine → List Machine
  | 0, _, _ => []
  | fuel + 1, first, m =>
    if m.fetches mode first then
      m :: match m.tick mode first with
        | .next u => visited mode fuel false u
        | _ => []
    else []

/-- Calls of the host that execute the script, one after the other: their modes, their results, and the
machines whose instructions they execute. Only the last call may leave a machine that has failed or
finished. -/
inductive Drives : Machine → List Mode → List (Except Fault RunState) → List Machine → Machine → Prop where
  | last {m mode fuel r m'} : m.Live → m.execute mode fuel = some (r, m') →
      Drives m [mode] [r] (visited mode fuel true m.awake) m'
  | more {m mode fuel r m₁ modes results seq m'} : m.Live → m.execute mode fuel = some (r, m₁) →
      Drives m₁ modes results seq m' →
      Drives m (mode :: modes) (r :: results) (visited mode fuel true m.awake ++ seq) m'

/-- What a call answers if it ends with an instruction. -/
def Tick.answer : Tick → Option (Except Fault RunState × Machine)
  | .next _ => none
  | .stop reason m => some (m.settle reason)
  | .fault f m => some (.error f, m)

/-- The machine if its instruction is executed. -/
def own (v : Machine) : List Machine := if v.fetches .run true then [v] else []

/-- Instructions that go on to the next, one after the other. -/
inductive Leads : Machine → List Machine → Machine → Prop where
  | refl {v} : Leads v [] v
  | next {v u seq v'} : v.tick .run true = .next u → Leads u seq v' → Leads v (v :: seq) v'

/-- What a call is made of: instructions that go on, and then one that answers or a statement in front of
which it stops. -/
inductive Slice (mode : Mode) (first : Bool) (v : Machine) : List Machine → Except Fault RunState → Machine → Prop where
  | boundary {seq v₁} : Leads v seq v₁ → (first = true → seq ≠ []) → mode = .step →
      Slice mode first v seq (.ok .paused) { v₁ with state := .paused }
  | answer {seq v₁ r m} : Leads v seq v₁ → (v₁.tick .run true).answer = some (r, m) →
      Slice mode first v (seq ++ v₁.own) r m

/-- A machine goes on, past stops that are not its end (`ends`), until it comes to one that is. -/
inductive Arrives (ends : Machine → Prop) : Machine → List Machine → Except Fault RunState → Machine → Prop where
  | finish {v r m} : (v.tick .run true).answer = some (r, m) → ends m → Arrives ends v v.own r m
  | next {v u seq r m} : v.tick .run true = .next u → Arrives ends u seq r m → Arrives ends v (v :: seq) r m
  | rest {v r₁ m₁ seq r m} : (v.tick .run true).answer = some (r₁, m₁) → ¬ ends m₁ →
      Arrives ends m₁.awake seq r m → Arrives ends v (v.own ++ seq) r m

variable {mode : Mode} {fuel : Nat} {first : Bool} {m m' m₁ m₂ v v₁ u w : Machine}
  {r r₁ r₂ : Except Fault RunState} {seq seq₁ seq₂ : List Machine} {ends : Machine → Prop}

/-! ### One instruction -/

/-- Either a machine stops in front of a statement, or the mode does not matter. -/
theorem tick_cases (mode : Mode) (first : Bool) (v : Machine) :
    (mode = .step ∧ first = false ∧ v.tick mode first = .stop .boundary v ∧ v.fetches mode first = false ∧
        v.fetches .run true = true) ∨
      (v.tick mode first = v.tick .run true ∧ v.fetches mode first = v.fetches .run true) := by
  unfold tick fetches
  cases v.exceeded? with
  | some limit => exact .inr ⟨rfl, rfl⟩
  | none =>
    cases v.program.instruction? v.sectionIndex v.pc with
    | none => exact .inr ⟨rfl, rfl⟩
    | some i =>
      by_cases hstop : mode = .step ∧ i.boundary ∧ !first
      · have hfirst : first = false := by simpa using hstop.2.2
        exact .inl ⟨hstop.1, hfirst, by simp only [if_pos hstop], by simp [hstop], rfl⟩
      · have hgo : decide (mode = .step ∧ i.boundary ∧ !first) = false := decide_eq_false hstop
        exact .inr ⟨by simp only [if_neg hstop, reduceCtorEq, false_and, if_false], by
          simp only [Option.any_some, hgo]; rfl⟩

/-- A machine that does not execute its instruction fails for good. -/
theorem tick_of_not_fetches (h : v.fetches .run true = false) :
    ∃ fault, v.tick .run true = .fault fault { v with state := .error } ∧
      ((∃ limit, fault.cause = .limit limit) ∨ ∃ breach, fault.cause = .invariant breach) := by
  unfold tick
  cases hlimit : v.exceeded? with
  | some limit => exact ⟨_, rfl, .inl ⟨limit, rfl⟩⟩
  | none =>
    cases hinst : v.program.instruction? v.sectionIndex v.pc with
    | none => exact ⟨_, rfl, .inr ⟨_, rfl⟩⟩
    | some i => simp [fetches, hlimit, hinst] at h

/-- A machine that executes its instruction does what the instruction says. -/
theorem tick_of_fetches (h : v.fetches .run true = true) : ∃ i,
    v.tick .run true = match dispatch i v.fetching with
      | .ok none m => .next m
      | .ok (some reason) m => .stop reason m
      | .error cause m => m.routed cause i.span := by
  rw [fetches, Bool.and_eq_true, Option.isNone_iff_eq_none] at h
  obtain ⟨hlimit, hany⟩ := h
  cases hi : v.program.instruction? v.sectionIndex v.pc with
  | none => rw [hi] at hany; cases hany
  | some i => exact ⟨i, tick_of_instruction hlimit hi⟩

/-- The instruction that a machine executes is the one at its place. -/
theorem instruction_of_fetches (h : v.fetches .run true = true) : ∃ i,
    v.program.instruction? v.sectionIndex v.pc = some i ∧
      v.tick .run true = match dispatch i v.fetching with
        | .ok none m => .next m
        | .ok (some reason) m => .stop reason m
        | .error cause m => m.routed cause i.span := by
  rw [fetches, Bool.and_eq_true, Option.isNone_iff_eq_none] at h
  obtain ⟨hlimit, hany⟩ := h
  cases hi : v.program.instruction? v.sectionIndex v.pc with
  | none => rw [hi] at hany; cases hany
  | some i => exact ⟨i, rfl, tick_of_instruction hlimit hi⟩

theorem fetches_of_next (h : v.tick .run true = .next u) : v.fetches .run true = true := by
  by_contra hnot
  obtain ⟨fault, ht, -⟩ := tick_of_not_fetches (Bool.eq_false_iff.2 hnot)
  cases h.symm.trans ht

/-- A machine that can go on has executed something. -/
theorem own_of_live (h : (v.tick .run true).answer = some (r, m)) (hm : m.Live) : v.own = [v] := by
  refine if_pos ?_
  by_contra hnot
  obtain ⟨fault, ht, -⟩ := tick_of_not_fetches (Bool.eq_false_iff.2 hnot)
  rw [ht] at h
  cases h
  exact hm.1 rfl

theorem steady_routed {cause : Cause} {span : Span} (h : m.routed cause span = .next u) : Steady m u := by
  unfold routed handle at h
  split at h
  · rename_i hhandle
    cases h
    split at hhandle
    · cases hhandle
    · simp only [onHeap_eq] at hhandle
      split at hhandle <;> cases hhandle
      exact ⟨rfl, rfl, rfl, rfl, rfl, rfl, rfl⟩
  · cases h

/-- An instruction that goes on to the next leaves most components of the machine as they are. -/
theorem steady_next (h : v.tick .run true = .next u) : Steady v u := by
  obtain ⟨i, ht⟩ := tick_of_fetches (fetches_of_next h)
  have hfetching : Steady v v.fetching := ⟨rfl, rfl, rfl, rfl, rfl, rfl, rfl⟩
  have hdispatch := steady_dispatch i v.fetching
  rw [ht] at h
  cases hd : dispatch i v.fetching with
  | ok r m =>
    rw [hd] at h hdispatch
    cases r with
    | none =>
      cases h
      exact hfetching.trans hdispatch
    | some reason => cases h
  | error cause m =>
    rw [hd] at h hdispatch
    exact (hfetching.trans hdispatch).trans (steady_routed h)

/-! ### Calls -/

theorem Leads.state (h : Leads v seq v₁) : v₁.state = v.state := by
  induction h with
  | refl => rfl
  | next ht _ ih => exact ih.trans (steady_next ht).state

theorem Slice.next {b : Bool} (ht : v.tick .run true = .next u) (h : Slice mode b u seq r m) :
    Slice mode first v (v :: seq) r m := by
  cases h with
  | boundary hl _ hmode => exact .boundary (.next ht hl) (fun _ => List.cons_ne_nil _ _) hmode
  | answer hl ha => exact .answer (.next ht hl) ha

/-- A machine that was paused goes on where it was. -/
theorem Leads.awake_paused (h : Leads v seq v₁) (hv : v.state = .running) :
    awake { v₁ with state := .paused } = v₁ := by
  have hv₁ := h.state.trans hv
  obtain ⟨⟩ := v₁
  cases hv₁
  rfl

/-- What the host gets from a course of instructions. -/
def answered : Except Fault Stop × Machine → Except Fault RunState × Machine
  | (.ok reason, m) => m.settle reason
  | (.error fault, m) => (.error fault, m)

/-- A course of instructions is a call. -/
theorem slice_of_drive {result : Except Fault Stop × Machine} (h : drive mode fuel first v = some result)
    (ha : answered result = (r, m)) : Slice mode first v (visited mode fuel first v) r m := by
  induction fuel generalizing first v with
  | zero => cases h
  | succ fuel ih =>
    unfold drive at h
    unfold visited
    rcases tick_cases mode first v with ⟨hmode, hfirst, ht, hfetch, -⟩ | ⟨ht, hfetch⟩
    · rw [ht] at h
      rw [hfetch, if_neg Bool.false_ne_true]
      cases h
      cases ha
      exact .boundary .refl (fun h => by rw [hfirst] at h; cases h) hmode
    · rw [ht] at h
      rw [ht, hfetch]
      cases hrun : v.tick .run true with
      | next u =>
        rw [hrun] at h
        rw [if_pos (fetches_of_next hrun)]
        exact .next hrun (ih h)
      | stop reason u =>
        rw [hrun] at h
        cases h
        have hanswer : (v.tick .run true).answer = some (r, m) := by rw [hrun, ← ha]; rfl
        exact .answer .refl hanswer
      | fault fault u =>
        rw [hrun] at h
        cases h
        have hanswer : (v.tick .run true).answer = some (r, m) := by rw [hrun, ← ha]; rfl
        exact .answer .refl hanswer

theorem execute_eq (hm : m.Live) : m.execute mode fuel = (drive mode fuel true m.awake).map answered := by
  unfold execute
  cases hs : m.state with
  | error => exact absurd hs hm.1
  | done => exact absurd hs hm.2
  | _ => rfl

theorem slice_of_execute (hm : m.Live) (h : m.execute mode fuel = some (r, m')) :
    Slice mode true m.awake (visited mode fuel true m.awake) r m' := by
  rw [execute_eq hm] at h
  obtain ⟨result, hd, ha⟩ := Option.map_eq_some_iff.1 h
  exact slice_of_drive hd ha

/-! ### Whole executions -/

theorem Leads.arrives (hl : Leads v seq₁ v₁) (he : Arrives ends v₁ seq₂ r m) : Arrives ends v (seq₁ ++ seq₂) r m := by
  induction hl with
  | refl => exact he
  | next ht _ ih => exact .next ht (ih he)

/-- What is left of an execution after some of its instructions. -/
theorem Arrives.after (he : Arrives ends v seq r m) (hl : Leads v seq₁ v₁) :
    ∃ seq₂, seq = seq₁ ++ seq₂ ∧ Arrives ends v₁ seq₂ r m := by
  induction hl generalizing seq with
  | refl => exact ⟨seq, rfl, he⟩
  | @next v u _ _ ht _ ih =>
    cases he with
    | finish ha => rw [ht] at ha; cases ha
    | rest ha => rw [ht] at ha; cases ha
    | next ht' he =>
      cases ht.symm.trans ht'
      obtain ⟨seq₂, hseq, hrest⟩ := ih he
      exact ⟨seq₂, by rw [hseq, List.cons_append], hrest⟩

/-- There is one execution. -/
theorem Arrives.unique (he : Arrives ends v seq₁ r₁ m₁) (he' : Arrives ends v seq₂ r₂ m₂) :
    seq₂ = seq₁ ∧ r₂ = r₁ ∧ m₂ = m₁ := by
  induction he generalizing seq₂ with
  | finish ha ho =>
    cases he' with
    | finish ha' => cases ha.symm.trans ha'; exact ⟨rfl, rfl, rfl⟩
    | next ht => rw [ht] at ha; cases ha
    | rest ha' ho' => cases ha.symm.trans ha'; exact absurd ho ho'
  | next ht _ ih =>
    cases he' with
    | finish ha => rw [ht] at ha; cases ha
    | next ht' he' =>
      cases ht.symm.trans ht'
      obtain ⟨rfl, rfl, rfl⟩ := ih he'
      exact ⟨rfl, rfl, rfl⟩
    | rest ha => rw [ht] at ha; cases ha
  | rest ha ho _ ih =>
    cases he' with
    | finish ha' ho' => cases ha.symm.trans ha'; exact absurd ho' ho
    | next ht => rw [ht] at ha; cases ha
    | rest ha' _ he' =>
      cases ha.symm.trans ha'
      obtain ⟨rfl, rfl, rfl⟩ := ih he'
      exact ⟨rfl, rfl, rfl⟩

/-- A slice of an execution, and what comes after it. -/
theorem Slice.arrives (hs : Slice mode first v seq₁ r₁ m₁) (hv : v.state = .running) (ho : ¬ ends m₁)
    (he : Arrives ends m₁.awake seq₂ r m) : Arrives ends v (seq₁ ++ seq₂) r m := by
  cases hs with
  | @boundary _ v₁ hl =>
    rw [hl.awake_paused hv] at he
    exact hl.arrives he
  | answer hl ha =>
    rw [List.append_assoc]
    exact hl.arrives (.rest ha ho he)

/-- The last slice of an execution. -/
theorem Slice.finish (hs : Slice mode first v seq r m) (ho : ends m)
    (hp : ∀ v₁ : Machine, ¬ ends { v₁ with state := .paused }) : Arrives ends v seq r m := by
  cases hs with
  | boundary => exact absurd ho (hp _)
  | answer hl ha => exact hl.arrives (.finish ha ho)

theorem Drives.live {modes : List Mode} {results : List (Except Fault RunState)}
    (hd : Drives m modes results seq m') : m.Live := by
  cases hd with
  | last hm => exact hm
  | more hm => exact hm

/-- Calls that end an execution are an execution. -/
theorem Drives.arrives {modes : List Mode} {results : List (Except Fault RunState)}
    (hd : Drives m modes results seq m') (hover : ¬ m'.Live) :
    ∃ r, results.getLast? = some r ∧ Arrives (fun m => ¬ m.Live) m.awake seq r m' := by
  induction hd with
  | last hm hx =>
    exact ⟨_, rfl, (slice_of_execute hm hx).finish hover fun _ hnot => hnot ⟨nofun, nofun⟩⟩
  | more hm hx hrest ih =>
    obtain ⟨r, hlast, he⟩ := ih hover
    refine ⟨r, ?_, (slice_of_execute hm hx).arrives rfl (fun hnot => hnot hrest.live) he⟩
    rw [List.getLast?_cons, hlast]
    rfl

/-- An instruction that answers ends a call. -/
theorem drive_of_answer (ha : (v.tick .run true).answer = some (r, m)) (mode : Mode) (first : Bool) :
    ∃ result, drive mode 1 first v = some result := by
  unfold drive
  rcases tick_cases mode first v with ⟨-, -, ht, -⟩ | ⟨ht, -⟩
  · exact ⟨_, by rw [ht]⟩
  · rw [ht]
    cases hrun : v.tick .run true with
    | next u => rw [hrun] at ha; cases ha
    | stop reason u => exact ⟨_, rfl⟩
    | fault fault u => exact ⟨_, rfl⟩

/-- Every call on the way to the end of an execution ends. -/
theorem Arrives.drives (he : Arrives ends v seq r m) (mode : Mode) (first : Bool) :
    ∃ fuel result, drive mode fuel first v = some result := by
  induction he generalizing first with
  | finish ha => exact ⟨1, drive_of_answer ha mode first⟩
  | rest ha => exact ⟨1, drive_of_answer ha mode first⟩
  | @next v u _ _ _ hnext _ ih =>
    rcases tick_cases mode first v with ⟨-, -, ht, -⟩ | ⟨ht, -⟩
    · refine ⟨1, (.ok .boundary, v), ?_⟩
      unfold drive
      rw [ht]
    · obtain ⟨fuel, result, hd⟩ := ih false
      refine ⟨fuel + 1, result, ?_⟩
      unfold drive
      rw [ht, hnext]
      exact hd

/-- **Any schedule of calls comes to the end of an execution.** Calls before the last one pause, or stop at
what is not the end. -/
theorem Arrives.scheduled (hlive : ∀ m, ¬ ends m → m.Live) (he : Arrives ends m.awake seq r m') (hm : m.Live)
    (schedule : Nat → Mode) : ∃ n before, Drives m ((List.range (n + 1)).map schedule) (before ++ [r]) seq m' ∧
      ∀ r₁ ∈ before, r₁ = .ok .paused ∨ ∃ m₁, ¬ ends m₁ := by
  -- every call executes something, so less is left after it
  induction hn : seq.length using Nat.strongRecOn generalizing m seq schedule with
  | ind n ih =>
    subst hn
    have hstep : ∀ {seq₁ seq₂ r₁ m₁ fuel}, m.execute (schedule 0) fuel = some (r₁, m₁) →
        visited (schedule 0) fuel true m.awake = seq₁ → seq = seq₁ ++ seq₂ → seq₁ ≠ [] → m₁.Live →
        Arrives ends m₁.awake seq₂ r m' → (r₁ = .ok .paused ∨ ∃ m₁, ¬ ends m₁) →
        ∃ n before, Drives m ((List.range (n + 1)).map schedule) (before ++ [r]) seq m' ∧
          ∀ r₁ ∈ before, r₁ = .ok .paused ∨ ∃ m₁, ¬ ends m₁ := by
      intro seq₁ seq₂ r₁ m₁ fuel hx hvisited hseq hne hm₁ he₁ hr₁
      have hless : seq₂.length < seq.length := by
        have hpos := List.length_pos_iff.2 hne
        rw [hseq, List.length_append]
        omega
      obtain ⟨n, before, hd, hbefore⟩ := ih _ hless he₁ hm₁ (fun i => schedule (i + 1)) rfl
      refine ⟨n + 1, r₁ :: before, ?_, List.forall_mem_cons.2 ⟨hr₁, hbefore⟩⟩
      have hmodes : (List.range (n + 1 + 1)).map schedule =
          schedule 0 :: (List.range (n + 1)).map fun i => schedule (i + 1) := by
        rw [List.range_succ_eq_map, List.map_cons, List.map_map]
        rfl
      rw [hmodes, hseq, ← hvisited]
      exact .more hm hx hd
    obtain ⟨fuel, result, hdrive⟩ := he.drives (schedule 0) true
    rcases hanswered : answered result with ⟨r₁, m₁⟩
    have hx : m.execute (schedule 0) fuel = some (r₁, m₁) := by
      rw [execute_eq hm, hdrive, ← hanswered]
      rfl
    have hslice := slice_of_execute hm hx
    generalize hvisited : visited (schedule 0) fuel true m.awake = seq₁ at hslice
    cases hslice with
    | @boundary _ v₁ hl hne =>
      obtain ⟨seq₂, hseq, he₁⟩ := he.after hl
      exact hstep hx hvisited hseq (hne rfl) ⟨nofun, nofun⟩ (hl.awake_paused rfl ▸ he₁) (.inl rfl)
    | answer hl ha =>
      obtain ⟨seq₂, hseq, he₁⟩ := he.after hl
      cases he₁ with
      | finish ha' =>
        cases ha.symm.trans ha'
        refine ⟨0, [], ?_, fun _ hmem => absurd hmem List.not_mem_nil⟩
        rw [hseq, ← hvisited]
        exact .last hm hx
      | next ht => rw [ht] at ha; cases ha
      | rest ha' ho he₁ =>
        cases ha.symm.trans ha'
        have hown := own_of_live ha (hlive _ ho)
        refine hstep hx hvisited (by rw [hseq, List.append_assoc]) ?_ (hlive _ ho) he₁ (.inr ⟨_, ho⟩)
        rw [hown]
        exact List.append_ne_nil_of_right_ne_nil _ (List.cons_ne_nil _ _)

/-- A run is one execution up to its first answer. -/
theorem arrives_of_run (hm : m.Live) (h : m.run fuel = some (r, m')) :
    Arrives (fun _ => True) m.awake (visited .run fuel true m.awake) r m' := by
  have hslice := slice_of_execute hm h
  generalize visited .run fuel true m.awake = seq at hslice
  cases hslice with
  | boundary _ _ hmode => cases hmode
  | answer hl ha => exact hl.arrives (.finish ha trivial)

theorem Drives.length {modes : List Mode} {results : List (Except Fault RunState)}
    (hd : Drives m modes results seq m') : results.length = modes.length := by
  induction hd with
  | last => rfl
  | more _ _ _ ih => rw [List.length_cons, List.length_cons, ih]

/-- A run is some steps, of which all but the last pause. -/
theorem steps_of_run (hm : m.Live) (h : m.run fuel = some (r, m')) :
    ∃ n, Drives m (List.replicate (n + 1) .step) (List.replicate n (.ok .paused) ++ [r])
      (visited .run fuel true m.awake) m' := by
  obtain ⟨n, before, hd, hbefore⟩ := (arrives_of_run hm h).scheduled (fun _ hn => absurd trivial hn) hm fun _ => .step
  have hmodes : (List.range (n + 1)).map (fun _ => Mode.step) = List.replicate (n + 1) .step := by
    rw [List.map_const', List.length_range]
  have hlength := hd.length
  rw [hmodes, List.length_append, List.length_replicate, List.length_singleton, Nat.add_right_cancel_iff] at hlength
  have hpaused : before = List.replicate n (.ok .paused) := by
    refine List.eq_replicate_iff.2 ⟨hlength, fun r₁ hr₁ => ?_⟩
    exact (hbefore r₁ hr₁).resolve_right fun ⟨_, hn⟩ => hn trivial
  rw [hmodes, hpaused] at hd
  exact ⟨n, hd⟩

/-- A step executes an instruction, or fails as a run does. -/
theorem step_progress (hm : m.Live) (h : m.step fuel = some (r, m')) :
    visited .step fuel true m.awake ≠ [] ∨ ∃ fault, r = .error fault ∧
      ((∃ limit, fault.cause = .limit limit) ∨ ∃ breach, fault.cause = .invariant breach) ∧
      ∀ fuel', m.run (fuel' + 1) = some (r, m') := by
  rcases tick_cases .step true m.awake with ⟨-, hfirst, -⟩ | ⟨ht, hfetch⟩
  · cases hfirst
  cases fuel with
  | zero =>
    rw [step, execute_eq hm] at h
    cases h
  | succ fuel =>
    by_cases hrun : m.awake.fetches .run true = true
    · refine .inl ?_
      rw [visited, hfetch, if_pos hrun]
      exact List.cons_ne_nil _ _
    · obtain ⟨fault, hfault, hcause⟩ := tick_of_not_fetches (Bool.eq_false_iff.2 hrun)
      rw [step, execute_eq hm, drive, ht, hfault] at h
      cases h
      refine .inr ⟨fault, rfl, hcause, fun fuel' => ?_⟩
      rw [run, execute_eq hm, drive, hfault]
      rfl

/-- **Slicing is unobservable.** From a machine that has neither failed nor finished: a run does what some
steps do that all pause but the last, and they execute the same instructions; every step executes an
instruction or fails at once, as a run does; and if calls in some mixture of modes make the machine fail or
finish, so does every schedule of calls, with the same machine, the same last result and the same
instructions executed. -/
theorem slicing_unobservable (hm : m.Live) :
    (∀ fuel r m', m.run fuel = some (r, m') →
      ∃ n, Drives m (List.replicate (n + 1) .step) (List.replicate n (.ok .paused) ++ [r])
        (visited .run fuel true m.awake) m') ∧
    (∀ fuel r m', m.step fuel = some (r, m') →
      visited .step fuel true m.awake ≠ [] ∨ ∃ fault, r = .error fault ∧
        ((∃ limit, fault.cause = .limit limit) ∨ ∃ breach, fault.cause = .invariant breach) ∧
        ∀ fuel', m.run (fuel' + 1) = some (r, m')) ∧
    ∀ modes results seq m', Drives m modes results seq m' → ¬ m'.Live →
      (∀ modes' results' seq' m'', Drives m modes' results' seq' m'' → ¬ m''.Live →
        m'' = m' ∧ seq' = seq ∧ results'.getLast? = results.getLast?) ∧
      ∀ schedule : Nat → Mode, ∃ n results',
        Drives m ((List.range (n + 1)).map schedule) results' seq m' ∧
        results'.getLast? = results.getLast? := by
  refine ⟨fun _ _ _ h => steps_of_run hm h, fun _ _ _ h => step_progress hm h, fun modes results seq m' hd hend => ?_⟩
  obtain ⟨r, hr, he⟩ := hd.arrives hend
  refine ⟨fun modes' results' seq' m'' hd' hend' => ?_, fun schedule => ?_⟩
  · obtain ⟨r', hr', he'⟩ := hd'.arrives hend'
    obtain ⟨hseq, rfl, hm'⟩ := he.unique he'
    exact ⟨hm', hseq, hr'.trans hr.symm⟩
  · obtain ⟨n, before, hd', -⟩ := he.scheduled (fun _ hn => Classical.not_not.1 hn) hm schedule
    exact ⟨n, before ++ [r], hd', by rw [hr, List.getLast?_concat]⟩

/-- A script of two statements, the second of which is a breakpoint. -/
def breaking : Machine :=
  load { sections := #[⟨"<script>", #[{ op := .enterScope, boundary := true }, { op := .leaveScope },
    { op := .debugger, boundary := true }, { op := .eof, boundary := true }]⟩] } {} {} {}

/-- Two runs finish the script, and so do some steps. -/
theorem slicing_unobservable_breaking : breaking.Live ∧
    (∃ r m' n, breaking.run 10 = some (r, m') ∧
      Drives breaking (List.replicate (n + 1) .step) (List.replicate n (.ok .paused) ++ [r])
        (visited .run 10 true breaking.awake) m') ∧
    ∃ m' seq n results, m'.state = .done ∧ Drives breaking [.run, .run] [.ok .paused, .ok .done] seq m' ∧
      Drives breaking ((List.range (n + 1)).map fun _ => .step) results seq m' ∧
      results.getLast? = some (.ok .done) := by
  have hlive : breaking.Live := ⟨nofun, nofun⟩
  obtain ⟨hrun, -, hmixture⟩ := slicing_unobservable hlive
  have hfirst : (breaking.run 10).map (fun x => (x.1.toOption, x.2.state)) = some (some .paused, .paused) := by
    decide +kernel
  have hsecond : ((breaking.run 10).bind fun x => x.2.run 10).map (fun x => (x.1.toOption, x.2.state)) =
      some (some .done, .done) := by decide +kernel
  obtain ⟨⟨r₁, m₁⟩, hpaused, hr₁⟩ := Option.map_eq_some_iff.1 hfirst
  rw [hpaused] at hsecond
  obtain ⟨⟨r₂, m₂⟩, hdone, hr₂⟩ := Option.map_eq_some_iff.1 hsecond
  obtain ⟨hr₁, hm₁⟩ := Prod.mk.inj hr₁
  obtain ⟨hr₂, hm₂⟩ := Prod.mk.inj hr₂
  cases r₁ with
  | error => cases hr₁
  | ok s₁ =>
    cases hr₁
    cases r₂ with
    | error => cases hr₂
    | ok s₂ =>
      cases hr₂
      have hlive₁ : m₁.Live := by rw [Live, show m₁.state = .paused from hm₁]; exact ⟨nofun, nofun⟩
      have hend : ¬ m₂.Live := fun h => h.2 hm₂
      have hdrives := Drives.more hlive hpaused (.last hlive₁ hdone)
      obtain ⟨n, hsteps⟩ := hrun 10 _ m₁ hpaused
      obtain ⟨n', results, hscheduled, hlast⟩ := (hmixture _ _ _ _ hdrives hend).2 fun _ => .step
      exact ⟨hlive, ⟨_, m₁, n, hpaused, hsteps⟩, m₂, _, n', results, hm₂, hdrives, hscheduled, hlast⟩

end ScriptMachine.Machine
