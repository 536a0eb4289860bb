import ScriptMachine.Proofs.Machine.Course
import ScriptMachine.Proofs.Machine.Guard

/-!
# HostCall — a call by the host leaves no trace but its effects

While a function runs on behalf of the host, the frame of that call stays on the stack with
everything below it (`Guarded`), whatever the function does: no instruction takes a frame except a
return, and unwinding goes no further than the frame of a host call. So a call that does not leave
the machine in the state `error` leaves it where it stood, and only the heap, the instruction count,
the log and the last exception may differ.
-/

namespace ScriptMachine.Machine

variable {m m' : Machine} {f : Frame} {below s : List Entry}

/-- A stack with a frame and what is below it, and no frame of a host call above. -/
def Guarded (f : Frame) (below s : List Entry) : Prop :=
  ∃ above, s = above ++ .frame f :: below ∧ ∀ g, Entry.frame g ∈ above → g.fromHost = false

/-- The entries in `below` are the lowest of a stack. -/
def Rests (below s : List Entry) : Prop := below <:+ s

theorem Guarded.cases {e : Entry} (h : Guarded f below (e :: s)) :
    (e = .frame f ∧ s = below) ∨ (Guarded f below s ∧ ∀ g, e = .frame g → g.fromHost = false) := by
  obtain ⟨above, hs, ha⟩ := h
  cases above with
  | nil =>
    obtain ⟨he, hb⟩ := List.cons_eq_cons.1 hs
    exact .inl ⟨he, hb⟩
  | cons a above =>
    obtain ⟨he, hb⟩ := List.cons_eq_cons.1 hs
    exact .inr ⟨⟨above, hb, fun g hg => ha g (List.mem_cons_of_mem _ hg)⟩,
      fun g hg => ha g (by rw [← hg, he]; exact List.mem_cons_self)⟩

theorem tolerant_guarded (f : Frame) (below : List Entry) :
    Tolerant (Guarded f below) (Rests below) where
  push := by
    rintro e s he ⟨above, hs, ha⟩
    refine ⟨e :: above, by rw [hs, List.cons_append], fun g hg => ?_⟩
    rcases List.mem_cons.1 hg with h | h
    · exact he g h.symm
    · exact ha g h
  pop := by
    intro e s he h
    rcases h.cases with ⟨hf, -⟩ | ⟨hs, -⟩
    · exact absurd (by rw [hf]; rfl) he
    · exact hs
  drop := by
    intro s h
    cases s with
    | nil => obtain ⟨above, hs, -⟩ := h; simp at hs
    | cons e s =>
      rcases h.cases with ⟨-, hb⟩ | ⟨⟨above, hs, -⟩, -⟩
      · exact hb ▸ List.suffix_refl _
      · exact ⟨above ++ [.frame f], by rw [List.tail_cons, hs]; simp⟩

theorem Guarded.rests (h : Guarded f below s) : Rests below s := (tolerant_guarded f below).weaken h

/-- Unwinding from above the frame of a host call lands in a try region above it or at it. -/
theorem Guarded.unwind (hf : f.fromHost = true) (last : Option Frame) (h : Guarded f below s) :
    (∃ r t frames, unwind last s = (.region r t, frames) ∧ Guarded f below t) ∨
      ∃ frames, unwind last s = (.host f below, frames) := by
  induction s generalizing last with
  | nil => obtain ⟨above, hs, -⟩ := h; simp at hs
  | cons e s ih =>
    rcases h.cases with ⟨rfl, rfl⟩ | ⟨hs, he⟩
    · exact .inr ⟨[f], by simp [Machine.unwind, hf]⟩
    · cases e with
      | region r => exact .inl ⟨r, s, [], rfl, hs⟩
      | value v => exact ih last hs
      | loop env => exact ih last hs
      | frame g =>
        have hg : g.fromHost = false := he g rfl
        rcases ih (some g) hs with ⟨r, t, frames, hu, ht⟩ | ⟨frames, hu⟩
        · exact .inl ⟨r, t, g :: frames, by simp [Machine.unwind, hg, hu], ht⟩
        · exact .inr ⟨g :: frames, by simp [Machine.unwind, hg, hu]⟩

/-! ### One instruction -/

/-- The machine stands where a frame says, and what was below the frame is its stack. -/
structure Restored (f : Frame) (below : List Entry) (m : Machine) : Prop where
  stack : m.stack.entries = below
  sectionIndex : m.sectionIndex = f.returnSection
  pc : m.pc = f.returnPc
  env : m.env = f.env

/-- A caught error keeps the frame; an error that reaches the host ends the call. -/
theorem handle_guarded (hf : f.fromHost = true) {cause : Cause} {span : Span}
    (hm : if cause.isCatchable then Guarded f below m.stack.entries else Rests below m.stack.entries) :
    match m.handle cause span with
    | (none, m') => Guarded f below m'.stack.entries ∧ Steady m m'
    | (some _, m') => Rests below m'.stack.entries ∧
        (m'.state = .error ∨ Restored f below m' ∧ Steady m m') := by
  unfold handle
  by_cases hc : cause.isCatchable = true
  · rw [if_pos hc] at hm
    simp only [hc, Bool.not_true, Bool.false_eq_true, if_false, onHeap_eq]
    rcases hm.unwind hf none with ⟨r, t, frames, hu, ht⟩ | ⟨frames, hu⟩
    · rw [hu]
      exact ⟨(tolerant_guarded f below).push (fun _ h => nomatch h) ht, rfl, rfl, rfl, rfl, rfl, rfl, rfl⟩
    · rw [hu]
      exact ⟨List.suffix_refl _, .inr ⟨⟨rfl, rfl, rfl, rfl⟩, rfl, rfl, rfl, rfl, rfl, rfl, rfl⟩⟩
  · rw [if_neg hc] at hm
    simp only [hc, Bool.not_false, if_true]
    exact ⟨hm, .inl rfl⟩

/-- Returning goes to the frame of the host call or to one above it. -/
theorem ret_guarded (hf : f.fromHost = true) {i : Instruction} (hi : i.op = .ret)
    (hm : Guarded f below m.stack.entries) :
    match dispatch i m with
    | .ok none m' => Guarded f below m'.stack.entries ∧ Steady m m'
    | .ok (some r) m' => Steady m m' ∧ r = .hostReturn ∧ ∃ v, Restored f (.value v :: below) m'
    | .error c m' => c.isCatchable = false ∧ Rests below m'.stack.entries ∧ Steady m m' := by
  have hret : dispatch i m = returnToFrame m := by simp only [dispatch, hi]
  have hJ := tolerant_guarded f below
  rw [hret, eq_onStack (m := m) rfl]
  cases hs : m.stack.entries with
  | nil => obtain ⟨above, h, -⟩ := hm; rw [hs] at h; simp at h
  | cons e s =>
    rw [hs] at hm
    -- a return finds its value on top, or fails before it takes a second entry
    cases e with
    | frame g =>
      have hd := hJ.drop hm
      exact ⟨rfl, hd, rfl, rfl, rfl, rfl, rfl, rfl, rfl⟩
    | region r => exact ⟨rfl, hJ.drop hm, rfl, rfl, rfl, rfl, rfl, rfl, rfl⟩
    | loop env => exact ⟨rfl, hJ.drop hm, rfl, rfl, rfl, rfl, rfl, rfl, rfl⟩
    | value v =>
      have hm' : Guarded f below s := hJ.pop (by simp [Entry.kind]) hm
      cases s with
      | nil => obtain ⟨above, h, -⟩ := hm'; simp at h
      | cons e s =>
        cases e with
        | frame g =>
          rcases hm'.cases with ⟨hg, rfl⟩ | ⟨hs', hg⟩
          · cases hg
            have hd : returnToFrame (m.onStack (.value v :: .frame f :: s)) =
              .ok (if f.fromHost then some .hostReturn else none) ((m.atFrame f).onStack (.value v :: s)) := rfl
            rw [hd, hf]
            exact ⟨⟨rfl, rfl, rfl, rfl, rfl, rfl, rfl⟩, rfl, v, rfl, rfl, rfl, rfl⟩
          · have hd : returnToFrame (m.onStack (.value v :: .frame g :: s)) =
              .ok (if g.fromHost then some .hostReturn else none) ((m.atFrame g).onStack (.value v :: s)) := rfl
            rw [hd, hg g rfl]
            exact ⟨hJ.push (fun _ h => by cases h) hs', rfl, rfl, rfl, rfl, rfl, rfl, rfl⟩
        | value w => exact ⟨rfl, hJ.drop hm', rfl, rfl, rfl, rfl, rfl, rfl, rfl⟩
        | region r => exact ⟨rfl, hJ.drop hm', rfl, rfl, rfl, rfl, rfl, rfl, rfl⟩
        | loop env => exact ⟨rfl, hJ.drop hm', rfl, rfl, rfl, rfl, rfl, rfl, rfl⟩

/-- What one instruction may lead to while a frame guards the stack. -/
def Tick.Guards (f : Frame) (below : List Entry) (m : Machine) : Tick → Prop
  | .next m' => Guarded f below m'.stack.entries ∧ Steady m m'
  | .stop r m' => Steady m m' ∧ Rests below m'.stack.entries ∧
      (r = .hostReturn → ∃ v, Restored f (.value v :: below) m')
  | .fault _ m' => Rests below m'.stack.entries ∧
      (m'.state = .error ∨ Restored f below m' ∧ Steady m m')

theorem Tick.Guards.of_steady {m₁ : Machine} (h : Steady m m₁) {t : Tick} (ht : t.Guards f below m₁) :
    t.Guards f below m := by
  cases t with
  | next m' => exact ⟨ht.1, h.trans ht.2⟩
  | stop r m' => exact ⟨h.trans ht.1, ht.2⟩
  | fault fault m' => exact ⟨ht.1, ht.2.imp id fun ht => ⟨ht.1, h.trans ht.2⟩⟩

theorem raise_guarded (hf : f.fromHost = true) {cause : Cause} {span : Span} (hs : Steady m m')
    (hm : if cause.isCatchable then Guarded f below m'.stack.entries else Rests below m'.stack.entries) :
    Tick.Guards f below m (match m'.handle cause span with
      | (none, m'') => .next m''
      | (some fault, m'') => .fault fault m'') := by
  have h := @handle_guarded _ _ _ hf cause span hm
  cases hh : m'.handle cause span with
  | mk r m'' =>
    rw [hh] at h
    cases r with
    | none => exact ⟨h.1, hs.trans h.2⟩
    | some fault => exact ⟨h.1, h.2.imp id fun h => ⟨h.1, hs.trans h.2⟩⟩

theorem tick_guarded (hf : f.fromHost = true) (mode : Mode) (first : Bool)
    (hm : Guarded f below m.stack.entries) : (m.tick mode first).Guards f below m := by
  unfold tick
  cases m.exceeded? with
  | some limit => exact ⟨hm.rests, .inl rfl⟩
  | none =>
    cases m.program.instruction? m.sectionIndex m.pc with
    | none => exact ⟨hm.rests, .inl rfl⟩
    | some i =>
      simp only
      by_cases hb : mode = .step ∧ i.boundary = true ∧ (!first) = true
      · rw [if_pos hb]
        exact ⟨.refl m, hm.rests, fun h => nomatch h⟩
      · rw [if_neg hb]
        have hsteady : Steady m { m with cycles := m.cycles + 1, pc := m.pc + 1 } :=
          ⟨rfl, rfl, rfl, rfl, rfl, rfl, rfl⟩
        refine Tick.Guards.of_steady hsteady ?_
        set m₁ : Machine := { m with cycles := m.cycles + 1, pc := m.pc + 1 }
        by_cases hi : i.op = .ret
        · have h := ret_guarded (m := m₁) hf hi hm
          cases hd : dispatch i m₁ with
          | ok r m' =>
            rw [hd] at h
            cases r with
            | none => exact h
            | some r =>
              obtain ⟨hs, -, v, hv⟩ := h
              exact ⟨hs, hv.stack ▸ List.suffix_cons _ _, fun _ => ⟨v, hv⟩⟩
          | error c m' =>
            rw [hd] at h
            obtain ⟨hc, hr, hs⟩ := h
            exact raise_guarded hf hs (by rw [hc]; exact hr)
        · have h := keeps_dispatch (tolerant_guarded f below) hi m₁ hm
          cases hd : dispatch i m₁ with
          | ok r m' =>
            rw [hd] at h
            cases r with
            | none => exact h
            | some r =>
              exact ⟨h.2, h.1.rests, fun hr => absurd (hr ▸ hd) (silent_dispatch hi m₁ m')⟩
          | error c m' =>
            rw [hd] at h
            exact raise_guarded hf h.2 h.1

/-! ### The whole call -/

/-- The frame of a call by the host. -/
def hostFrame (m : Machine) (g : ScriptFunction) : Frame :=
  { returnSection := m.sectionIndex, returnPc := m.pc, env := m.env, callee := g.name, fromHost := true }

/-- The machine at the first instruction of a function that the host calls. -/
def entered (m : Machine) (g : ScriptFunction) (args : List Value) : Machine :=
  enterFunction g none args true { m with state := .running, hostCalls := m.hostCalls + 1 }

theorem guarded_entered (m : Machine) (g : ScriptFunction) (args : List Value) :
    Guarded (m.hostFrame g) m.stack.entries (m.entered g args).stack.entries :=
  ⟨[], rfl, fun _ h => nomatch h⟩

/-- The frame guards the stack all through the call. -/
theorem passes_guarded {g : ScriptFunction} {args : List Value} {mode : Mode} {first b : Bool}
    (hp : Passes mode first (m.entered g args) b m') :
    Guarded (m.hostFrame g) m.stack.entries m'.stack.entries ∧ Steady (m.entered g args) m' := by
  refine hp.invariant (I := fun m' => Guarded (m.hostFrame g) m.stack.entries m'.stack.entries ∧
    Steady (m.entered g args) m') ⟨guarded_entered m g args, .refl _⟩ ?_
  rintro b m₁ m₂ ⟨hg, hs⟩ ht
  have h := tick_guarded (f := m.hostFrame g) rfl mode b hg
  rw [ht] at h
  exact ⟨h.1, hs.trans h.2⟩

/-- Where a call that reaches its end leaves the machine. -/
def effects (m m' : Machine) : Machine :=
  { m with heap := m'.heap, cycles := m'.cycles, log := m'.log, lastException := m'.lastException }

theorem eq_effects {m₁ : Machine} {g : ScriptFunction} {args : List Value}
    (hs : Steady (m.entered g args) m₁) (hr : Restored (m.hostFrame g) m.stack.entries m')
    (hk : { m₁ with heap := m'.heap, cycles := m'.cycles, log := m'.log, stack := m'.stack,
                    lastException := m'.lastException, sectionIndex := m'.sectionIndex, pc := m'.pc,
                    env := m'.env, hostCalls := m₁.hostCalls - 1, state := m.state } = m') :
    m' = effects m m' := by
  have hstack : m'.stack = m.stack := Stack.ext hr.stack
  obtain ⟨h1, h2, h3, -, h5, h6, h7⟩ := hs
  obtain ⟨-, k1, k2, k3⟩ := hr
  rw [← hk]
  simp only [effects, hstack, k1, k2, k3, h1, h2, h3, h5, h6, h7]
  rfl

/-- The end of a call: what was on the stack is still there, and unless the machine stopped for good
it is where it was. -/
theorem finishCall_effects {g : ScriptFunction} {args : List Value} {fuel : Nat}
    {r : Except Fault Stop} {result : Except Fault Value} {m₁ : Machine}
    (hd : drive .run fuel true (m.entered g args) = some (r, m₁))
    (hf : finishCall m.state (r, { m₁ with hostCalls := m₁.hostCalls - 1 }) = (result, m')) :
    m.stack.entries <:+ m'.stack.entries ∧ (m'.state ≠ .error → m' = effects m m') := by
  obtain ⟨b, m₂, hp, he⟩ := drive_ends hd
  obtain ⟨hg, hs⟩ := passes_guarded hp
  have ht := tick_guarded (f := m.hostFrame g) rfl .run b hg
  obtain ⟨reason, rfl, hstop⟩ | ⟨fault, rfl, hfault⟩ := he
  · rw [hstop] at ht
    obtain ⟨hsteady, hrests, hret⟩ := ht
    cases reason with
    | hostReturn =>
      obtain ⟨v, hv⟩ := hret rfl
      have htop : m₁.stack.top? = some (.value v) := by rw [Stack.top?, hv.stack]; rfl
      have hdrop : m₁.stack.drop.entries = m.stack.entries := by rw [Stack.entries_drop, hv.stack]; rfl
      simp only [finishCall, htop, Prod.mk.injEq] at hf
      obtain ⟨-, rfl⟩ := hf
      exact ⟨hdrop ▸ List.suffix_refl _, fun _ =>
        eq_effects (hs.trans hsteady) ⟨hdrop, hv.sectionIndex, hv.pc, hv.env⟩ rfl⟩
    | eof | breakpoint | boundary =>
      simp only [finishCall, fatal, Prod.mk.injEq] at hf
      obtain ⟨-, rfl⟩ := hf
      exact ⟨hrests, fun h => absurd rfl h⟩
  · rw [hfault] at ht
    obtain ⟨hrests, hend⟩ := ht
    simp only [finishCall, Prod.mk.injEq] at hf
    obtain ⟨-, hf⟩ := hf
    by_cases herr : m₁.state = .error
    · rw [if_pos herr] at hf
      subst hf
      exact ⟨hrests, fun h => absurd herr h⟩
    · rw [if_neg herr] at hf
      subst hf
      obtain ⟨hr, hsteady⟩ := hend.resolve_left herr
      exact ⟨hrests, fun _ =>
        eq_effects (hs.trans hsteady) ⟨hr.stack, hr.sectionIndex, hr.pc, hr.env⟩ rfl⟩

/-- The ways in which a call can go: it is refused, it runs a function, or it runs a host value. -/
inductive Calls (m : Machine) (fuel : Nat) (name : String) (args : List Value) :
    Except Fault Value → Machine → Prop where
  | refused {cause} : cause = .halted ∨ m.lookup name = .error cause ∨ (∃ kind, cause = .notCallable kind) →
      Calls m fuel name args (.error { cause }) m
  | function {id g r m₁ result m'} : m.state ≠ .error → m.lookup name = .ok (.function id g) →
      drive .run fuel true (m.entered g args) = some (r, m₁) →
      finishCall m.state (r, { m₁ with hostCalls := m₁.hostCalls - 1 }) = (result, m') →
      Calls m fuel name args result m'
  | native {handle result} :
      result = (match (callNative handle none args m).1 with
        | .ok v => .ok v
        | .error cause => .error { cause }) →
      Calls m fuel name args result (callNative handle none args m).2

theorem calls_of_call {fuel : Nat} {name : String} {args : List Value} {result : Except Fault Value}
    (h : m.call fuel name args = some (result, m')) : Calls m fuel name args result m' := by
  unfold call at h
  by_cases herr : m.state = .error
  · rw [if_pos herr] at h
    cases h
    exact .refused (.inl rfl)
  · rw [if_neg herr] at h
    cases hl : m.lookup name with
    | error cause =>
      rw [hl] at h
      cases h
      exact .refused (.inr (.inl hl))
    | ok callee =>
      rw [hl] at h
      cases callee with
      | function id g =>
        obtain ⟨⟨r, m₁⟩, hd, hf⟩ := Option.map_eq_some_iff.1 h
        exact .function herr hl hd hf
      | native handle =>
        simp only at h
        by_cases hc : handle.callable = true
        · rw [if_pos hc] at h
          cases hn : callNative handle none args m with
          | mk r m₁ =>
            have hm : m₁ = (callNative handle none args m).2 := by rw [hn]
            have hr : r = (callNative handle none args m).1 := by rw [hn]
            rw [hn] at h
            cases r <;>
            · cases h
              subst hm
              exact .native (by rw [← hr])
        · rw [if_neg hc] at h
          cases h
          exact .refused (.inr (.inr ⟨_, rfl⟩))
      | _ =>
        cases h
        exact .refused (.inr (.inr ⟨_, rfl⟩))

/-- **Host calls are transparent.** A call that does not stop the machine for good leaves the stack,
the place, the scope, the state and the count of host calls as they were; only the heap, the count of
instructions, the log and the last exception may change. All through the call, and at its end in any
state, the entries that were on the stack lie unchanged at its bottom, and the frame of the call lies
on top of them while the function runs. -/
theorem call_transparent (m : Machine) (name : String) (args : List Value) :
    (∀ fuel result m', m.call fuel name args = some (result, m') →
      m.stack.entries <:+ m'.stack.entries ∧ (m'.state ≠ .error → m' = effects m m')) ∧
    ∀ id g, m.lookup name = .ok (.function id g) →
      ∀ b m', Passes .run true (m.entered g args) b m' →
        Entry.frame (m.hostFrame g) :: m.stack.entries <:+ m'.stack.entries := by
  refine ⟨fun fuel result m' h => ?_, fun id g _ b m' hp => ?_⟩
  · cases calls_of_call h with
    | refused => exact ⟨List.suffix_refl _, fun _ => rfl⟩
    | function _ _ hd hf => exact finishCall_effects hd hf
    | native => exact ⟨List.suffix_refl _, fun _ => rfl⟩
  · obtain ⟨⟨above, hs, -⟩, -⟩ := passes_guarded hp
    exact ⟨above, hs.symm⟩

/-- A machine that paused inside a loop of its script. Its function `f` catches an error of its own
and returns it. -/
def pausedInLoop : Machine :=
  let program : Program :=
    { sections := #[⟨"<script>", #[{ op := .loopStart }, { op := .eof }]⟩,
        ⟨"f", #[{ op := .tryStart 0 none false }, { op := .fetch "x" }, { op := .label 0 }, { op := .ret }]⟩]
      functions := #[⟨"f", 1, 0, []⟩]
      labels := [(0, ⟨1, 2⟩)] }
  { (load program {} {} {}).onStack [.loop ⟨0⟩] with pc := 1, state := .paused }

/-- The call of `f` executes four instructions and leaves the machine paused in its loop. -/
theorem call_transparent_pausedInLoop :
    ∃ result m' id g, pausedInLoop.call 10 "f" [] = some (result, m') ∧ m'.state = .paused ∧
      m'.cycles = 4 ∧ m' = effects pausedInLoop m' ∧
      pausedInLoop.lookup "f" = .ok (.function id g) ∧
      Entry.frame (pausedInLoop.hostFrame g) :: pausedInLoop.stack.entries <:+
        (pausedInLoop.entered g []).stack.entries := by
  have hcall : (pausedInLoop.call 10 "f" []).map (fun r => (r.2.state, r.2.cycles)) =
      some (.paused, 4) := by decide +kernel
  have hkind : (pausedInLoop.lookup "f").toOption.map Value.kind = some .function := by decide +kernel
  obtain ⟨⟨result, m'⟩, hc, hr⟩ := Option.map_eq_some_iff.1 hcall
  obtain ⟨hstate, hcycles⟩ := Prod.mk.inj hr
  obtain ⟨id, g, hl⟩ : ∃ id g, pausedInLoop.lookup "f" = .ok (.function id g) := by
    cases hl : pausedInLoop.lookup "f" with
    | error cause => rw [hl] at hkind; cases hkind
    | ok v =>
      rw [hl] at hkind
      cases v with
      | function id g => exact ⟨id, g, rfl⟩
      | _ => cases hkind
  obtain ⟨hend, hduring⟩ := call_transparent pausedInLoop "f" []
  have hne : m'.state ≠ .error := by rw [show m'.state = .paused from hstate]; decide
  exact ⟨result, m', id, g, hc, hstate, hcycles, (hend 10 result m' hc).2 hne, hl,
    hduring id g hl true _ .start⟩

end ScriptMachine.Machine
