import ScriptMachine.Proofs.Compile.Sections
import ScriptMachine.Proofs.Machine.Limits
import ScriptMachine.Proofs.Machine.Relocation

/-!
# Reset — a machine that was reset is as good as new

A reset leaves the old heap where it is and starts above it, so a machine that was reset is a new machine
over the old one. Whatever a host asks of the two from then on, it gets the same answers, as long as it
passes nothing that it got before the reset.
-/

namespace ScriptMachine

open Compile

namespace Machine

variable {past m m' : Machine} {mode : Mode} {first : Bool} {fuel n : Nat}

/-! ### Errors -/

/-- Where unwinding ends above another heap. -/
def Landing.above : Landing → Heap → Landing
  | .region r below, b => .region (r.above b) (below.map (·.above b))
  | .host f below, b => .host (f.above b) (below.map (·.above b))
  | .bottom last, b => .bottom (last.map (·.above b))

theorem unwind_above (last : Option Frame) (entries : List Entry) (b : Heap) :
    unwind (last.map (·.above b)) (entries.map (·.above b)) =
      ((unwind last entries).1.above b, (unwind last entries).2.map (·.above b)) := by
  induction entries generalizing last with
  | nil => rfl
  | cons e rest ih =>
    cases e with
    | value | loop => exact ih last
    | region => rfl
    | frame f =>
      have hnext := ih (some f)
      simp only [List.map_cons, Entry.above, unwind, Frame.above] at hnext ⊢
      split
      · rfl
      · exact congrArg (fun x : Landing × List Frame => (x.1, f.above b :: x.2)) hnext

/-- What lies below the end of unwinding was there before. -/
theorem unwind_subset {last : Option Frame} {entries below : List Entry} {frames : List Frame} {landing : Landing}
    (h : unwind last entries = (landing, frames))
    (hl : (∃ r, landing = .region r below) ∨ ∃ f, landing = .host f below) : below ⊆ entries := by
  induction entries generalizing last frames with
  | nil =>
    cases h
    rcases hl with ⟨_, hl⟩ | ⟨_, hl⟩ <;> cases hl
  | cons e rest ih =>
    cases e with
    | value | loop => exact List.subset_cons_of_subset _ (ih h)
    | region r =>
      cases h
      rcases hl with ⟨_, hl⟩ | ⟨_, hl⟩ <;> cases hl
      exact List.subset_cons_self _ _
    | frame f =>
      rw [unwind] at h
      split at h
      · cases h
        rcases hl with ⟨_, hl⟩ | ⟨_, hl⟩ <;> cases hl
        exact List.subset_cons_self _ _
      · rcases hrest : unwind (some f) rest with ⟨landing', frames'⟩
        rw [hrest] at h
        cases h
        exact List.subset_cons_of_subset _ (ih hrest)

/-- The exception that an error becomes. -/
theorem thrownValue_above (c : Cause) (h b : Heap) :
    thrownValue (c.above b) (h.above b) = ((thrownValue c h).1.above b, (thrownValue c h).2.above b) := by
  have hmessage := c.message_above h b
  cases c with
  | thrown v => rfl
  | _ => exact (congrArg (h.above b).newError hmessage).trans (Heap.newError_above h b _)

theorem thrownValue_closed {c : Cause} {h : Heap} (hh : h.Closed) (hc : c.Within h.objects.size) :
    (thrownValue c h).2.Closed ∧ (thrownValue c h).2.objects = h.objects ∧
      (thrownValue c h).1.Within h.objects.size := by
  cases c with
  | thrown v => exact ⟨hh, rfl, hc v rfl⟩
  | _ => exact ⟨⟨hh.elements, hh.vars, hh.owner⟩, rfl, Value.within_of nofun⟩

/-- An error that reaches the host. -/
theorem surface_atop (m past : Machine) (c : Cause) (thrown : Value) (trace : Trace) :
    (m.atop past).surface (c.above past.heap) (thrown.above past.heap) trace =
      ((m.surface c thrown trace).1.above past.heap, (m.surface c thrown trace).2.atop past) := by
  have hcause : surfacedCause (m.atop past).heap (thrown.above past.heap) (c.above past.heap) =
      (surfacedCause m.heap thrown c).above past.heap := by
    cases c with
    | thrown v => exact congrArg Cause.uncaught (thrown.message_above m.heap past.heap)
    | _ => rfl
  have hline : ((surfacedCause m.heap thrown c).above past.heap).message (m.atop past).heap =
      (surfacedCause m.heap thrown c).message m.heap := Cause.message_above _ _ _
  simp only [surface, hcause, hline]
  simp only [atop, Array.append_push]
  rfl

theorem surfacedCause_within (h : Heap) (thrown : Value) (c : Cause) (k : Nat) :
    (surfacedCause h thrown c).Within k := by
  intro v hv
  cases c <;> cases hv

theorem Sealed.surface (hm : m.Sealed) (c : Cause) {thrown : Value} (ht : thrown.Within m.heap.objects.size)
    (trace : Trace) : (m.surface c thrown trace).2.Sealed :=
  ⟨hm.heap, hm.stack, fun v hv => by cases hv; exact ht, hm.constants, hm.hosts⟩

/-- The machine where unwinding ends, and the fault that reaches the host. -/
def landed (m : Machine) (c : Cause) (thrown : Value) (trace : Trace) : Landing → Option Fault × Machine
  | .region r below =>
    (none, { m with
      stack := (Stack.ofList below).push (.value thrown)
      sectionIndex := r.sectionIndex, pc := r.handlerPc, env := r.env })
  | .host f below =>
    let ended := { m.atFrame f with stack := .ofList below }.surface c thrown trace
    (some ended.1, ended.2)
  | .bottom last =>
    let ended := { (last.map m.atFrame).getD m with stack := .empty }.surface c thrown trace
    (some ended.1, { ended.2 with state := .error })

theorem handle_catchable {c : Cause} (hc : c.isCatchable = true) (span : Span) :
    m.handle c span = landed { m with heap := (thrownValue c m.heap).2 } c (thrownValue c m.heap).1
      { m.traceAt (some span) with frames := (unwind none m.stack.entries).2.map (·.callee) }
      (unwind none m.stack.entries).1 := by
  unfold handle
  simp only [hc, Bool.not_true, Bool.false_eq_true, if_false, onHeap_eq]
  rcases unwind none m.stack.entries with ⟨landing, frames⟩
  cases landing <;> rfl

/-- Two ends of routing an error. -/
structure RoutedAlike (past m : Machine) (r r' : Option Fault × Machine) : Prop where
  machine : Carries past m r.2 r'.2
  fault : r'.1 = r.1.map (·.above past.heap)
  within : ∀ fault, r.1 = some fault → fault.cause.Within r.2.heap.objects.size

theorem landed_atop (hm : m.Sealed) {c : Cause} {thrown : Value} (ht : thrown.Within m.heap.objects.size)
    (trace : Trace) {landing : Landing} {frames : List Frame} (hl : unwind none m.stack.entries = (landing, frames)) :
    RoutedAlike past m (landed m c thrown trace landing)
      (landed (m.atop past) (c.above past.heap) (thrown.above past.heap) trace (landing.above past.heap)) := by
  cases landing with
  | region r below =>
    have hsub := unwind_subset hl (.inl ⟨r, rfl⟩)
    refine ⟨⟨⟨hm.heap, fun v hv => ?_, hm.exception, hm.constants, hm.hosts⟩, Nat.le_refl _, rfl⟩, rfl,
      fun fault hf => by cases hf⟩
    rcases List.mem_cons.1 hv with h | h
    · cases h
      exact ht
    · exact hm.stack v (hsub h)
  | host f below =>
    have hsub := unwind_subset hl (.inr ⟨f, rfl⟩)
    have hkeep : ({ m.atFrame f with stack := .ofList below } : Machine).Sealed :=
      ⟨hm.heap, fun v hv => hm.stack v (hsub hv), hm.exception, hm.constants, hm.hosts⟩
    have hsurface := surface_atop { m.atFrame f with stack := .ofList below } past c thrown trace
    exact ⟨⟨hkeep.surface c ht trace, Nat.le_refl _, congrArg Prod.snd hsurface⟩,
      congrArg (fun x : Fault × Machine => some x.1) hsurface,
      fun fault hf => by cases hf; exact surfacedCause_within _ _ _ _⟩
  | bottom last =>
    have hkeep : ({ (last.map m.atFrame).getD m with stack := .empty } : Machine).Sealed := by
      cases last <;> exact ⟨hm.heap, fun v hv => (by cases hv), hm.exception, hm.constants, hm.hosts⟩
    have hsize : ((last.map m.atFrame).getD m).heap = m.heap := by cases last <;> rfl
    have hsurface := surface_atop { (last.map m.atFrame).getD m with stack := .empty } past c thrown trace
    have hsealed := hkeep.surface c (by rw [hsize]; exact ht) trace
    have hover :
        { ((last.map (·.above past.heap)).map (m.atop past).atFrame).getD (m.atop past) with stack := .empty } =
        ({ (last.map m.atFrame).getD m with stack := .empty } : Machine).atop past := by
      cases last <;> rfl
    simp only [landed, Landing.above]
    rw [hover, hsurface]
    exact ⟨⟨⟨hsealed.heap, hsealed.stack, hsealed.exception, hsealed.constants, hsealed.hosts⟩,
      Nat.le_of_eq (by rw [← hsize]; rfl), rfl⟩, rfl, fun fault hf => by cases hf; exact surfacedCause_within _ _ _ _⟩

/-- An error is routed the same way. -/
theorem handle_atop (hm : m.Sealed) {c : Cause} (hc : c.Within m.heap.objects.size) (span : Span) :
    RoutedAlike past m (m.handle c span) ((m.atop past).handle (c.above past.heap) span) := by
  by_cases hcatch : c.isCatchable = true
  · obtain ⟨hclosed, hobjects, hwithin⟩ := thrownValue_closed hm.heap hc
    have hthrown : thrownValue (c.above past.heap) (m.atop past).heap = _ := thrownValue_above c m.heap past.heap
    have hunwind : unwind none (m.atop past).stack.entries = _ := unwind_above none m.stack.entries past.heap
    have hframes : ((unwind none m.stack.entries).2.map (·.above past.heap)).map (·.callee) =
        (unwind none m.stack.entries).2.map (·.callee) := by simp [Frame.above, Function.comp_def]
    obtain ⟨hsealed, hsize, -⟩ : Carries past m { m with heap := (thrownValue c m.heap).2 } _ :=
      hm.carries ⟨hclosed, Nat.le_of_eq (by rw [hobjects]), rfl⟩
    rw [handle_catchable hcatch, handle_catchable (by rwa [Cause.isCatchable_above]), hthrown, hunwind, hframes]
    obtain ⟨hmachine, hfault, hfaults⟩ := landed_atop (c := c) hsealed
      (show (thrownValue c m.heap).1.Within _ by rw [hobjects]; exact hwithin)
      { m.traceAt (some span) with frames := (unwind none m.stack.entries).2.map (·.callee) }
      (Prod.eta (unwind none m.stack.entries)).symm
    exact ⟨⟨hmachine.isSealed, Nat.le_trans hsize hmachine.size, hmachine.eq⟩, hfault, hfaults⟩
  · unfold handle
    rw [Cause.isCatchable_above, if_pos (by simpa using hcatch), if_pos (by simpa using hcatch)]
    exact ⟨⟨⟨hm.heap, hm.stack, hm.exception, hm.constants, hm.hosts⟩, Nat.le_refl _, rfl⟩, rfl,
      fun fault hf => by cases hf; exact hc⟩

/-! ### Runs -/

@[simp] theorem exceeded?_atop (m past : Machine) : (m.atop past).exceeded? = m.exceeded? := by
  unfold exceeded?
  rw [depth_atop]
  rfl

/-- What one instruction leads to, on a machine and on the same machine over another. -/
inductive Tick.Mirrors (past : Machine) (n : Nat) : Tick → Tick → Prop where
  | next {m : Machine} : n ≤ m.heap.objects.size → m.Sealed → Mirrors past n (.next m) (.next (m.atop past))
  | stop {reason : Stop} {m : Machine} : n ≤ m.heap.objects.size → m.Sealed →
      Mirrors past n (.stop reason m) (.stop reason (m.atop past))
  | fault {fault : Fault} {m : Machine} : n ≤ m.heap.objects.size → m.Sealed →
      fault.cause.Within m.heap.objects.size →
      Mirrors past n (.fault fault m) (.fault (fault.above past.heap) (m.atop past))

theorem Tick.Mirrors.mono {t t' : Tick} {k : Nat} (h : Tick.Mirrors past k t t') (hn : n ≤ k) :
    Tick.Mirrors past n t t' := by
  cases h with
  | next hle hm => exact .next (Nat.le_trans hn hle) hm
  | stop hle hm => exact .stop (Nat.le_trans hn hle) hm
  | fault hle hm hc => exact .fault (Nat.le_trans hn hle) hm hc

theorem Sealed.of_state (hm : m.Sealed) (state : RunState) : { m with state }.Sealed :=
  ⟨hm.heap, hm.stack, hm.exception, hm.constants, hm.hosts⟩

theorem routed_atop (hm : m.Sealed) {c : Cause} (hc : c.Within m.heap.objects.size) (span : Span) :
    Tick.Mirrors past m.heap.objects.size (m.routed c span) ((m.atop past).routed (c.above past.heap) span) := by
  have hrouted : RoutedAlike past m _ _ := handle_atop hm hc span
  unfold routed
  revert hrouted
  rcases m.handle c span with ⟨fault, m'⟩
  rcases (m.atop past).handle (c.above past.heap) span with ⟨fault', M'⟩
  rintro ⟨⟨hsealed, hsize, rfl⟩, rfl, hwithin⟩
  cases fault with
  | none => exact .next hsize hsealed
  | some fault => exact .fault hsize hsealed (hwithin fault rfl)

/-- **One instruction** leads to the same. -/
theorem tick_atop (hm : m.Sealed) (mode : Mode) (first : Bool) :
    Tick.Mirrors past m.heap.objects.size (m.tick mode first) ((m.atop past).tick mode first) := by
  unfold tick
  rw [exceeded?_atop]
  cases m.exceeded? with
  | some limit => exact .fault (Nat.le_refl _) (hm.of_state _) (Cause.within_of fun _ h => by cases h)
  | none =>
    rw [show (m.atop past).program.instruction? (m.atop past).sectionIndex (m.atop past).pc =
      m.program.instruction? m.sectionIndex m.pc from rfl]
    cases m.program.instruction? m.sectionIndex m.pc with
    | none => exact .fault (Nat.le_refl _) (hm.of_state _) (Cause.within_of fun _ h => by cases h)
    | some i =>
      simp only
      split
      · exact .stop (Nat.le_refl _) hm
      · have hfetch : m.fetching.Sealed := ⟨hm.heap, hm.stack, hm.exception, hm.constants, hm.hosts⟩
        have hdispatch : Ended past _ Equal (dispatch i m.fetching) (dispatch i (m.atop past).fetching) :=
          tracks_dispatch i m.fetching hfetch (Nat.le_refl _)
        simp only [fetching] at hdispatch
        revert hdispatch
        generalize dispatch i _ = r, dispatch i _ = r'
        intro hdispatch
        cases hdispatch with
        | @ok reason _ m' hle hm' hreason =>
          obtain rfl : _ = reason := hreason
          rename_i reason
          cases reason with
          | none => exact .next hle hm'
          | some reason => exact .stop hle hm'
        | error hle hm' hc => exact (routed_atop hm' hc i.span).mono hle

/-- How a request ends on a machine, and on the same machine over another. -/
inductive Finishes {α : Type} (past : Machine) (n : Nat) (R : Nat → α → α → Prop) :
    Option (Except Fault α × Machine) → Option (Except Fault α × Machine) → Prop where
  | never : Finishes past n R none none
  | ok {a a' : α} {m : Machine} : n ≤ m.heap.objects.size → m.Sealed → R m.heap.objects.size a a' →
      Finishes past n R (some (.ok a, m)) (some (.ok a', m.atop past))
  | error {fault : Fault} {m : Machine} : n ≤ m.heap.objects.size → m.Sealed →
      fault.cause.Within m.heap.objects.size →
      Finishes past n R (some (.error fault, m)) (some (.error (fault.above past.heap), m.atop past))

/-- **A run** ends the same way: the induction is on the instructions left. -/
theorem drive_atop (hm : m.Sealed) (hn : n ≤ m.heap.objects.size) :
    Finishes past n Equal (drive mode fuel first m) (drive mode fuel first (m.atop past)) := by
  induction fuel generalizing first m with
  | zero => exact .never
  | succ fuel ih =>
    have htick : Tick.Mirrors past _ _ _ := tick_atop hm mode first
    unfold drive
    revert htick
    generalize m.tick mode first = t, (m.atop past).tick mode first = t'
    intro htick
    cases htick with
    | next hle hm' => exact ih hm' (Nat.le_trans hn hle)
    | stop hle hm' => exact .ok (Nat.le_trans hn hle) hm' rfl
    | fault hle hm' hc => exact .error (Nat.le_trans hn hle) hm' hc

theorem execute_atop (hm : m.Sealed) :
    Finishes past m.heap.objects.size Equal (m.execute mode fuel) ((m.atop past).execute mode fuel) := by
  have hdrive : Finishes past m.heap.objects.size Equal (drive mode fuel true { m with state := .running })
      (drive mode fuel true ({ m with state := .running }.atop past)) :=
    drive_atop (hm.of_state _) (Nat.le_refl _)
  unfold execute
  rw [show (m.atop past).state = m.state from rfl]
  cases m.state with
  | error => exact .error (Nat.le_refl _) hm (Cause.within_of fun _ h => by cases h)
  | done => exact .ok (Nat.le_refl _) hm rfl
  | ready | running | paused =>
    simp only
    rw [show { m.atop past with state := .running } = ({ m with state := .running } : Machine).atop past from rfl]
    revert hdrive
    generalize drive mode fuel true { m with state := .running } = r
    generalize drive mode fuel true ({ m with state := .running }.atop past) = r'
    intro hdrive
    cases hdrive with
    | never => exact .never
    | error hle hm' hc => exact .error hle hm' hc
    | @ok reason _ m' hle hm' hreason =>
      obtain rfl : _ = reason := hreason
      rename_i reason
      cases reason with
      | hostReturn => exact .error hle (hm'.of_state _) (Cause.within_of fun _ h => by cases h)
      | eof => exact .ok hle (hm'.of_state _) rfl
      | breakpoint => exact .ok hle (hm'.of_state _) rfl
      | boundary => exact .ok hle (hm'.of_state _) rfl

/-- What a call gives once its function has returned. -/
theorem finishCall_returned (saved : RunState) (m : Machine) :
    finishCall saved (.ok .hostReturn, m) =
      (match m.stack.top? with
        | some (.value v) => .ok v
        | other => .error { cause := .invariant (.unexpectedEntry "pop" .value (other.map Entry.kind)) },
       { m with stack := m.stack.drop, state := saved }) := by
  simp only [finishCall]
  rcases m.stack.top? with _ | (_ | _ | _ | _) <;> rfl

/-- What a call gives once its function has stopped. -/
theorem finishCall_atop {saved : RunState} {r r' : Option (Except Fault Stop × Machine)}
    (h : Finishes past n Equal r r') :
    Finishes past n (Value.Mirrors past.heap)
      (r.map fun (result, m) => finishCall saved (result, { m with hostCalls := m.hostCalls - 1 }))
      (r'.map fun (result, m) => finishCall saved (result, { m with hostCalls := m.hostCalls - 1 })) := by
  cases h with
  | never => exact .never
  | @error fault m hle hm hc =>
    simp only [Option.map_some, finishCall]
    show Finishes _ _ _ (some (_, if m.state = .error then _ else _)) (some (_, if m.state = .error then _ else _))
    split
    · exact .error hle ⟨hm.heap, hm.stack, hm.exception, hm.constants, hm.hosts⟩ hc
    · exact .error hle ⟨hm.heap, hm.stack, hm.exception, hm.constants, hm.hosts⟩ hc
  | @ok reason _ m hle hm hreason =>
    obtain rfl : _ = reason := hreason
    rename_i reason
    cases reason with
    | hostReturn =>
      have hkeep : ({ m with hostCalls := m.hostCalls - 1, stack := m.stack.drop, state := saved } : Machine).Sealed :=
        ⟨hm.heap, fun v hv => hm.stack v (List.mem_of_mem_tail hv), hm.exception, hm.constants, hm.hosts⟩
      simp only [Option.map_some, finishCall_returned, top_atop, drop_atop]
      rcases he : m.stack.top? with _ | (v | f | r | env)
      · exact .error hle hkeep (Cause.within_of fun _ h => by cases h)
      · exact .ok hle hkeep ⟨hm.stack v (List.mem_of_head? he), rfl⟩
      · exact .error hle hkeep (Cause.within_of fun _ h => by cases h)
      · exact .error hle hkeep (Cause.within_of fun _ h => by cases h)
      · exact .error hle hkeep (Cause.within_of fun _ h => by cases h)
    | eof | breakpoint | boundary =>
      exact .error hle ⟨hm.heap, hm.stack, hm.exception, hm.constants, hm.hosts⟩ (Cause.within_of fun _ h => by cases h)

/-- **A call by the host** gives the same. -/
theorem call_atop (hm : m.Sealed) {args args' : List Value} (name : String)
    (ha : MirrorsAll past.heap m.heap.objects.size args args') :
    Finishes past m.heap.objects.size (Value.Mirrors past.heap) (m.call fuel name args)
      ((m.atop past).call fuel name args') := by
  unfold call
  show Finishes _ _ _ (if m.state = .error then _ else _) (if m.state = .error then _ else _)
  split
  · exact .error (Nat.le_refl _) hm (Cause.within_of nofun)
  · have hlookup : Alike past.heap _ _ _ _ := lookup_alike hm name
    revert hlookup
    generalize m.lookup name = r, (m.atop past).lookup name = r'
    intro hlookup
    cases hlookup with
    | error hc => exact .error (Nat.le_refl _) hm hc
    | @ok callee callee' hcallee =>
      obtain ⟨-, rfl⟩ := hcallee
      cases callee with
      | function id f =>
        have hstart : ({ m with state := .running, hostCalls := m.hostCalls + 1 } : Machine).Sealed :=
          ⟨hm.heap, hm.stack, hm.exception, hm.constants, hm.hosts⟩
        obtain ⟨hentered, hsize, heq⟩ := enterFunction_carries hstart f mirrorsSome_none ha true
        have hdrive : Finishes past _ Equal (drive .run fuel true _) (drive .run fuel true _) :=
          drive_atop hentered hsize
        rw [← heq] at hdrive
        exact finishCall_atop hdrive
      | native handle =>
        simp only [Value.above_native]
        split
        · have hcall : Carries past m _ _ ∧ Alike past.heap _ _ _ _ := callNative_alike hm handle mirrorsSome_none ha
          revert hcall
          rcases callNative handle none args m with ⟨result, m'⟩
          rcases callNative handle none args' (m.atop past) with ⟨result', M'⟩
          rintro ⟨⟨hsealed, hsize, rfl⟩, halike⟩
          cases halike with
          | ok hv => exact .ok hsize hsealed hv
          | error hc => exact .error hsize hsealed hc
        · exact .error (Nat.le_refl _) hm (Cause.within_of nofun)
      | _ => exact .error (Nat.le_refl _) hm (Cause.within_of nofun)

/-! ### What runs and calls leave alone -/

/-- The program, the limits and the host values stay. -/
structure Fixed (m m' : Machine) : Prop where
  program : m'.program = m.program
  config : m'.config = m.config
  registry : m'.registry = m.registry
  hosts : m'.hosts = m.hosts

theorem Fixed.refl (m : Machine) : Fixed m m := ⟨rfl, rfl, rfl, rfl⟩

theorem Fixed.trans {m₁ m₂ m₃ : Machine} (h : Fixed m₁ m₂) (h' : Fixed m₂ m₃) : Fixed m₁ m₃ :=
  ⟨h'.program.trans h.program, h'.config.trans h.config, h'.registry.trans h.registry, h'.hosts.trans h.hosts⟩

theorem Steady.fixed (h : Steady m m') : Fixed m m' := ⟨h.program, h.config, h.registry, h.hosts⟩

/-- The machine that an instruction leads to. -/
def Tick.machine : Tick → Machine
  | .next m | .stop _ m | .fault _ m => m

theorem fixed_routed (m : Machine) (c : Cause) (span : Span) : Fixed m (m.routed c span).machine := by
  have hhandle : Fixed m (m.handle c span).2 := by
    unfold handle
    split
    · exact ⟨rfl, rfl, rfl, rfl⟩
    · simp only [onHeap_eq]
      split
      · exact ⟨rfl, rfl, rfl, rfl⟩
      · exact ⟨rfl, rfl, rfl, rfl⟩
      · rename_i last _
        cases last <;> exact ⟨rfl, rfl, rfl, rfl⟩
  revert hhandle
  unfold routed
  rcases m.handle c span with ⟨_ | fault, m'⟩ <;> exact id

theorem fixed_tick (m : Machine) (mode : Mode) (first : Bool) : Fixed m (m.tick mode first).machine := by
  rcases tick_cases mode first m with ⟨-, -, ht, -⟩ | ⟨ht, -⟩
  · rw [ht]
    exact .refl m
  · rw [ht]
    by_cases hrun : m.fetches .run true = true
    · obtain ⟨i, hi⟩ := tick_of_fetches hrun
      have hsteady := steady_dispatch i m.fetching
      have hfetch : Fixed m m.fetching := ⟨rfl, rfl, rfl, rfl⟩
      rw [hi]
      cases hd : dispatch i m.fetching with
      | ok r u =>
        rw [hd] at hsteady
        cases r <;> exact hfetch.trans hsteady.fixed
      | error c u =>
        rw [hd] at hsteady
        exact (hfetch.trans hsteady.fixed).trans (fixed_routed u c i.span)
    · obtain ⟨fault, hfault, -⟩ := tick_of_not_fetches (Bool.eq_false_iff.2 hrun)
      rw [hfault]
      exact ⟨rfl, rfl, rfl, rfl⟩

theorem fixed_drive {r : Except Fault Stop} (h : drive mode fuel first m = some (r, m')) : Fixed m m' := by
  obtain ⟨b, m₁, hp, he⟩ := drive_ends h
  have hpass : Fixed m m₁ := hp.invariant (.refl m) fun b m₁ m₂ hm₁ ht => by
    have htick := fixed_tick m₁ mode b
    rw [ht] at htick
    exact hm₁.trans htick
  have htick := fixed_tick m₁ mode b
  obtain ⟨reason, -, ht⟩ | ⟨fault, -, ht⟩ := he
  · rw [ht] at htick
    exact hpass.trans htick
  · rw [ht] at htick
    exact hpass.trans htick

theorem fixed_execute {r : Except Fault RunState} (h : m.execute mode fuel = some (r, m')) : Fixed m m' := by
  by_cases hlive : m.Live
  · obtain ⟨result, m₁, hdrive, hresult⟩ := execute_drive hlive.1 hlive.2 h
    have hawake : Fixed m m.awake := ⟨rfl, rfl, rfl, rfl⟩
    have hfixed : Fixed m m₁ := hawake.trans (fixed_drive hdrive)
    cases result with
    | error fault => exact hresult.2 ▸ hfixed
    | ok reason =>
      have hsettle : Fixed m₁ (m₁.settle reason).2 := by cases reason <;> exact ⟨rfl, rfl, rfl, rfl⟩
      rw [hresult] at hsettle
      exact hfixed.trans hsettle
  · rw [not_live_execute hlive h]
    exact .refl m

theorem fixed_call {name : String} {args : List Value} {r : Except Fault Value}
    (h : m.call fuel name args = some (r, m')) : Fixed m m' := by
  cases calls_of_call h with
  | refused => exact .refl m
  | native => exact ⟨rfl, rfl, rfl, rfl⟩
  | @function id g r m₁ _ _ _ _ hd hf =>
    have hentered : Fixed m (m.entered g args) := ⟨rfl, rfl, rfl, rfl⟩
    have hfinish : Fixed m₁ (finishCall m.state (r, { m₁ with hostCalls := m₁.hostCalls - 1 })).2 := by
      unfold finishCall
      split
      · rename_i he
        cases he
        split <;> exact ⟨rfl, rfl, rfl, rfl⟩
      · rename_i he
        cases he
        exact ⟨rfl, rfl, rfl, rfl⟩
      · rename_i he
        cases he
        split <;> exact ⟨rfl, rfl, rfl, rfl⟩
    rw [hf] at hfinish
    exact (hentered.trans (fixed_drive hd)).trans hfinish

theorem Lasts.program {p : Program} {config : Config} (h : Lasts p config n m) : m.program = p := by
  induction h with
  | load => rfl
  | @serve n m request cause m' _ hserve ih =>
    refine Eq.trans ?_ ih
    cases request with
    | run fuel | step fuel =>
      obtain ⟨⟨r, u⟩, hx, hu⟩ := Option.map_eq_some_iff.1 hserve
      cases hu
      exact (fixed_execute hx).program
    | call fuel name args =>
      obtain ⟨⟨r, u⟩, hx, hu⟩ := Option.map_eq_some_iff.1 hserve
      cases hu
      exact (fixed_call hx).program
    | reset | define | add | prepare | takeLog =>
      cases hserve
      rfl
    | register name handle =>
      simp only [Machine.serve, Machine.register] at hserve
      cases hr : m.registry.register name handle with
      | ok registry =>
        rw [hr] at hserve
        cases hserve
        rfl
      | error c =>
        rw [hr] at hserve
        cases hserve
        rfl

end Machine

/-! ### Sessions -/

/-- A value that a host passes in a session: one of its own, what an earlier operation of the session
gave, the value of a global, or the last exception. -/
inductive Operand where
  | own (v : Value)
  | answer (index : Nat)
  | global (name : String)
  | exception

/-- What a host does in a session. -/
inductive Operation where
  | run (fuel : Nat)
  | step (fuel : Nat)
  | call (fuel : Nat) (name : String) (args : List Operand)
  | define (name : String) (v : Operand)
  | reset
  | add (native : Native)
  | register (name : String) (handle : NativeHandle)
  /-- The host works on values by itself, as a host function would: it makes an array or reads one. -/
  | work (native : Native) (args : List Operand)

/-- What an operation gives unless it fails. -/
inductive Answer (α : Type) where
  | state (s : RunState)
  | value (v : α)
  | nothing

/-- An answer with something done to its value. -/
def Answer.map {α β : Type} (f : α → β) : Answer α → Answer β
  | .state s => .state s
  | .value v => .value (f v)
  | .nothing => .nothing

/-- The value that a host has in hand after an operation, to pass it on: what was returned or thrown. -/
def obtained : Except Fault (Answer Value) → Value
  | .ok (.value v) => v
  | .error { cause := .thrown v, .. } => v
  | _ => .undefined

/-- An operand that refers to nothing from before the session. -/
def Operand.isFresh : Operand → Bool
  | .own v => v.isPortable
  | _ => true

/-- An operation that passes nothing from before the session, and adds no host value that remembers
anything. -/
def Operation.Fresh : Operation → Prop
  | .call _ _ args => ∀ a ∈ args, a.isFresh = true
  | .define _ v => v.isFresh = true
  | .add native => native.Stateless
  | .work native args => native.Stateless ∧ ∀ a ∈ args, a.isFresh = true
  | .run _ | .step _ | .reset | .register _ _ => True

namespace Machine

/-- The value of an operand, given what the operations before it gave. -/
def operand (m : Machine) (answers : List Value) : Operand → Value
  | .own v => v
  | .answer index => (answers[index]?).getD .undefined
  | .global name => (m.getGlobal? name).getD .undefined
  | .exception => m.lastException.getD .undefined

/-- Performs an operation. One that has not ended when the fuel is used up gives nothing. -/
def perform (m : Machine) (answers : List Value) : Operation → Option (Except Fault (Answer Value) × Machine)
  | .run fuel => (m.run fuel).map fun (r, m) => (r.map .state, m)
  | .step fuel => (m.step fuel).map fun (r, m) => (r.map .state, m)
  | .call fuel name args => (m.call fuel name (args.map (m.operand answers))).map fun (r, m) => (r.map .value, m)
  | .define name v => some (.ok .nothing, m.defineGlobal name (m.operand answers v))
  | .reset => some (.ok .nothing, m.reset)
  | .add native => some (.ok (.value (.native (m.addHost native).1)), (m.addHost native).2)
  | .register name handle =>
    match m.register name handle with
    | (.ok (), m) => some (.ok .nothing, m)
    | (.error cause, m) => some (.error { cause }, m)
  | .work native args =>
    let made := native.call none (args.map (m.operand answers)) m.heap
    match made.result with
    | .ok v => some (.ok (.value v), { m with heap := made.heap })
    | .error cause => some (.error { cause }, { m with heap := made.heap })

end Machine

/-- What a host sees of a value: its kind, the texts it has, and the value itself if that refers to
nothing that was made while running. -/
structure Shown where
  kind : Kind
  text : String
  inspected : String
  plain : Option Value

/-- What a host sees of a fault: the thrown value or the cause, the message and the trace. -/
structure Complaint where
  cause : Shown ⊕ Cause
  message : String
  trace : Option Trace

/-- What a host sees after an operation: its result, how far the machine got, the lines that were logged
meanwhile, the last exception and the globals. -/
structure Report where
  result : Except Complaint (Answer Shown)
  state : RunState
  depth : Nat
  cycles : Nat
  lines : List String
  exception : Option Shown
  globals : String → Option Shown

/-- What a host sees of a value. -/
def Value.shown (h : Heap) (v : Value) : Shown where
  kind := v.kind
  text := v.text h
  inspected := v.inspect h
  plain := if v.isPortable then some v else none

/-- What a host sees of a fault. -/
def Fault.shown (h : Heap) (f : Fault) : Complaint where
  cause := match f.cause with
    | .thrown v => .inl (v.shown h)
    | c => .inr c
  message := f.cause.message h
  trace := f.trace

/-- What a host sees of a result. -/
def shownResult (h : Heap) : Except Fault (Answer Value) → Except Complaint (Answer Shown)
  | .ok a => .ok (a.map (·.shown h))
  | .error f => .error (f.shown h)

namespace Machine

/-- What a host sees after an operation that began at one machine and ended at another. -/
def report (before : Machine) (result : Except Fault (Answer Value)) (m : Machine) : Report where
  result := shownResult m.heap result
  state := m.state
  depth := m.stack.depth
  cycles := m.cycles
  lines := m.log.toList.drop before.log.size
  exception := m.lastException.map (·.shown m.heap)
  globals name := (m.getGlobal? name).map (·.shown m.heap)

/-- What a host sees of a session, operation by operation, up to one that does not end. -/
def session (m : Machine) (answers : List Value) : List Operation → List Report
  | [] => []
  | op :: rest =>
    match m.perform answers op with
    | none => []
    | some (result, m') => m.report result m' :: m'.session (answers ++ [obtained result]) rest

variable {past m m' : Machine} {n : Nat} {answers answers' : List Value}

/-! ### Sessions over another machine -/

/-- Answers, as results. -/
def MirrorsAnswer (b : Heap) (n : Nat) (a a' : Answer Value) : Prop :=
  (∀ v, a = .value v → v.Within n) ∧ a' = a.map (·.above b)

theorem getGlobal?_atop (m past : Machine) (name : String) :
    (m.atop past).getGlobal? name = (m.getGlobal? name).map (·.above past.heap) :=
  Heap.getLocal?_above m.heap past.heap m.globals name

theorem operand_atop (hm : m.Sealed) (ha : MirrorsAll past.heap m.heap.objects.size answers answers')
    {a : Operand} (hfresh : a.isFresh = true) :
    Value.Mirrors past.heap m.heap.objects.size (m.operand answers a) ((m.atop past).operand answers' a) := by
  cases a with
  | own v => exact Value.mirrors_of_portable hfresh
  | answer index =>
    simp only [operand, ha.2, List.getElem?_map]
    cases hv : answers[index]? with
    | none => exact Value.mirrors_of_portable rfl
    | some v => exact ⟨ha.1 v (List.mem_of_getElem? hv), rfl⟩
  | global name =>
    simp only [operand, getGlobal?_atop]
    cases hv : m.getGlobal? name with
    | none => exact Value.mirrors_of_portable rfl
    | some v => exact ⟨hm.heap.getLocal? hv, rfl⟩
  | exception =>
    show Value.Mirrors _ _ (m.lastException.getD .undefined) ((m.lastException.map (·.above past.heap)).getD .undefined)
    cases hv : m.lastException with
    | none => exact Value.mirrors_of_portable rfl
    | some v => exact ⟨hm.exception v hv, rfl⟩

theorem operands_atop (hm : m.Sealed) (ha : MirrorsAll past.heap m.heap.objects.size answers answers')
    {args : List Operand} (hfresh : ∀ a ∈ args, a.isFresh = true) :
    MirrorsAll past.heap m.heap.objects.size (args.map (m.operand answers))
      (args.map ((m.atop past).operand answers')) := by
  refine ⟨fun v hv => ?_, ?_⟩
  · obtain ⟨a, hmem, rfl⟩ := List.mem_map.1 hv
    exact (operand_atop hm ha (hfresh a hmem)).1
  · rw [List.map_map]
    exact List.map_congr_left fun a hmem => (operand_atop hm ha (hfresh a hmem)).2

theorem Finishes.map {α β : Type} {R : Nat → α → α → Prop} {S : Nat → β → β → Prop} {f : α → β}
    {r r' : Option (Except Fault α × Machine)} (h : Finishes past n R r r')
    (hf : ∀ k a a', R k a a' → S k (f a) (f a')) :
    Finishes past n S (r.map fun (r, m) => (r.map f, m)) (r'.map fun (r, m) => (r.map f, m)) := by
  cases h with
  | never => exact .never
  | ok hle hm hR => exact .ok hle hm (hf _ _ _ hR)
  | error hle hm hc => exact .error hle hm hc

theorem Sealed.reset (hm : m.Sealed) : m.reset.Sealed :=
  ⟨hm.heap.newScope rfl fun _ ho => (by cases ho), fun _ hv => absurd hv List.not_mem_nil, nofun, hm.constants,
    hm.hosts⟩

theorem reset_atop (m past : Machine) : (m.atop past).reset = m.reset.atop past := by
  have hroot : (m.atop past).heap.newRoot = _ := Heap.newRoot_above m.heap past.heap
  simp only [reset, hroot]
  rfl

theorem perform_define_atop (hm : m.Sealed) (ha : MirrorsAll past.heap m.heap.objects.size answers answers')
    (name : String) {v : Operand} (hfresh : v.isFresh = true) :
    Finishes past m.heap.objects.size (MirrorsAnswer past.heap) (m.perform answers (.define name v))
      ((m.atop past).perform answers' (.define name v)) := by
  obtain ⟨hv, heq⟩ := operand_atop hm ha hfresh
  have hcarries : Carries past m { m with heap := m.heap.define m.globals name (m.operand answers v) } _ :=
    hm.carries ⟨hm.heap.define hv _ _, Nat.le_refl _, Heap.define_above _ _ _ _ _⟩
  obtain ⟨hsealed, hsize, hover⟩ := hcarries
  have hend : Finishes past m.heap.objects.size (MirrorsAnswer past.heap)
      (some (.ok .nothing, { m with heap := m.heap.define m.globals name (m.operand answers v) }))
      (some (.ok .nothing, { m with heap := m.heap.define m.globals name (m.operand answers v) }.atop past)) :=
    .ok hsize hsealed ⟨nofun, rfl⟩
  rw [← hover, ← heq] at hend
  exact hend

theorem perform_register_atop (hm : m.Sealed) (name : String) (handle : NativeHandle) :
    Finishes past m.heap.objects.size (MirrorsAnswer past.heap) (m.perform answers (.register name handle))
      ((m.atop past).perform answers' (.register name handle)) := by
  simp only [perform, register, Registry.register]
  by_cases hname : name.isEmpty = true
  · simp only [if_pos hname]
    exact .error (Nat.le_refl _) hm (Cause.within_of fun _ h => by cases h)
  · simp only [if_neg hname]
    exact .ok (Nat.le_refl _) ⟨hm.heap, hm.stack, hm.exception, hm.constants, hm.hosts⟩ ⟨fun _ h => (by cases h), rfl⟩

/-- What the host makes by itself is the same. -/
theorem perform_work_atop (hm : m.Sealed) (ha : MirrorsAll past.heap m.heap.objects.size answers answers')
    {native : Native} (hn : native.Stateless) {args : List Operand} (hfresh : ∀ a ∈ args, a.isFresh = true) :
    Finishes past m.heap.objects.size (MirrorsAnswer past.heap) (m.perform answers (.work native args))
      ((m.atop past).perform answers' (.work native args)) := by
  obtain ⟨hwithin, heq⟩ := operands_atop hm ha hfresh
  have hcall : CallResult.Mirrors past.heap m.heap (native.call none (args.map (m.operand answers)) m.heap)
      (native.call none (args.map ((m.atop past).operand answers')) (m.atop past).heap) :=
    heq ▸ hn.call past.heap m.heap none (args.map (m.operand answers)) hm.heap nofun hwithin
  unfold perform
  simp only
  revert hcall
  generalize native.call none (args.map (m.operand answers)) m.heap = made
  generalize native.call none (args.map ((m.atop past).operand answers')) (m.atop past).heap = made'
  obtain ⟨result, h', log⟩ := made
  obtain ⟨result', H', log'⟩ := made'
  rintro ⟨hheap, hresult, -⟩
  obtain ⟨hsealed, hsize, hover⟩ := hm.carries hheap
  simp only at hover hresult ⊢
  rw [hover]
  cases hresult with
  | ok hv =>
    refine .ok hsize hsealed ⟨fun w hw => ?_, congrArg Answer.value hv.2⟩
    cases hw
    exact hv.1
  | error hc => exact .error hsize hsealed hc

/-- **An operation** gives the same. -/
theorem perform_atop (hm : m.Sealed) (ha : MirrorsAll past.heap m.heap.objects.size answers answers') {op : Operation}
    (hop : op.Fresh) : Finishes past m.heap.objects.size (MirrorsAnswer past.heap) (m.perform answers op)
      ((m.atop past).perform answers' op) := by
  cases op with
  | run fuel | step fuel => exact (execute_atop hm).map fun _ a _ h => ⟨nofun, congrArg Answer.state h⟩
  | call fuel name args =>
    refine (call_atop hm name (operands_atop hm ha hop)).map fun _ v _ h => ⟨fun w hw => ?_, congrArg Answer.value h.2⟩
    cases hw
    exact h.1
  | define name v => exact perform_define_atop hm ha name hop
  | reset =>
    simp only [perform, reset_atop]
    exact .ok (Nat.le_refl _) hm.reset ⟨nofun, rfl⟩
  | add native =>
    refine .ok (Nat.le_refl _) ⟨hm.heap, hm.stack, hm.exception, hm.constants, fun x hx => ?_⟩ ⟨fun v hv => ?_, rfl⟩
    · rcases Array.mem_push.1 hx with hx | rfl
      · exact hm.hosts x hx
      · exact hop
    · cases hv
      exact Value.within_of nofun
  | register name handle => exact perform_register_atop hm name handle
  | work native args => exact perform_work_atop hm ha hop.1 hop.2

theorem shown_above (v : Value) (h b : Heap) : (v.above b).shown (h.above b) = v.shown h := by
  simp only [Value.shown, Value.kind_above, Value.text_above, Value.inspect_above, Value.isPortable_above]
  split
  · rename_i hv
    rw [Value.above_of_portable hv]
  · rfl

theorem complaint_above (f : Fault) (h b : Heap) : (f.above b).shown (h.above b) = f.shown h := by
  obtain ⟨c, trace⟩ := f
  have hmessage := c.message_above h b
  simp only [Fault.shown, Fault.above, hmessage]
  cases c with
  | thrown v => simp only [Cause.above, shown_above]
  | _ => rfl

theorem shownResult_answer (h b : Heap) (a : Answer Value) :
    shownResult (h.above b) (.ok (a.map (·.above b))) = shownResult h (.ok a) := by
  cases a with
  | value v => exact congrArg (fun x => Except.ok (Answer.value x)) (shown_above v h b)
  | _ => rfl

/-- The host sees the same of two machines, if it sees the same of two results. -/
theorem report_atop {before : Machine} {r r' : Except Fault (Answer Value)}
    (hr : shownResult (m.atop past).heap r' = shownResult m.heap r) :
    (before.atop past).report r' (m.atop past) = before.report r m := by
  have hshown : ∀ v : Option Value, (v.map (·.above past.heap)).map (·.shown (m.atop past).heap) =
      v.map (·.shown m.heap) := fun v => by
    cases v with
    | none => rfl
    | some v => exact congrArg some (shown_above v m.heap past.heap)
  have hlines : (past.log ++ m.log).toList.drop (past.log ++ before.log).size = m.log.toList.drop before.log.size := by
    rw [Array.toList_append, Array.size_append, ← past.log.length_toList, List.drop_append,
      Nat.add_sub_cancel_left, List.drop_eq_nil_of_le (Nat.le_add_right _ _), List.nil_append]
  simp only [report, hr, depth_atop, getGlobal?_atop, hshown, Report.mk.injEq, true_and]
  exact ⟨rfl, rfl, hlines, hshown m.lastException, trivial⟩

/-- What a host has in hand after an operation. -/
theorem obtained_atop {a a' : Answer Value} (h : MirrorsAnswer past.heap n a a') :
    Value.Mirrors past.heap n (obtained (.ok a)) (obtained (.ok a')) := by
  obtain ⟨hwithin, rfl⟩ := h
  cases a with
  | value v => exact ⟨hwithin v rfl, rfl⟩
  | _ => exact Value.mirrors_of_portable rfl

theorem obtained_fault {f : Fault} (h : f.cause.Within n) :
    Value.Mirrors past.heap n (obtained (.error f)) (obtained (.error (f.above past.heap))) := by
  obtain ⟨c, trace⟩ := f
  cases c with
  | thrown v => exact ⟨h v rfl, rfl⟩
  | _ => exact Value.mirrors_of_portable rfl

/-- One more answer. -/
theorem MirrorsAll.snoc {b : Heap} {k : Nat} {v w : Value} (ha : MirrorsAll b n answers answers') (hn : n ≤ k)
    (hv : Value.Mirrors b k v w) : MirrorsAll b k (answers ++ [v]) (answers' ++ [w]) := by
  refine ⟨fun u hu => ?_, by rw [ha.2, hv.2]; simp⟩
  rcases List.mem_append.1 hu with hu | hu
  · exact (ha.1 u hu).mono hn
  · rw [List.mem_singleton.1 hu]
    exact hv.1

/-- **A session** shows the same, operation by operation. -/
theorem session_atop (hm : m.Sealed) (ha : MirrorsAll past.heap m.heap.objects.size answers answers')
    {ops : List Operation} (hops : ∀ op ∈ ops, op.Fresh) :
    (m.atop past).session answers' ops = m.session answers ops := by
  induction ops generalizing m answers answers' with
  | nil => rfl
  | cons op rest ih =>
    have hperform : Finishes past _ _ _ _ := perform_atop hm ha (hops op List.mem_cons_self)
    have hrest : ∀ op ∈ rest, op.Fresh := fun op hop => hops op (List.mem_cons_of_mem _ hop)
    unfold session
    revert hperform
    generalize m.perform answers op = r, (m.atop past).perform answers' op = r'
    intro hperform
    cases hperform with
    | never => rfl
    | @ok a a' m' hle hm' hanswer =>
      have hseen : shownResult (m'.atop past).heap (.ok a') = shownResult m'.heap (.ok a) :=
        hanswer.2 ▸ shownResult_answer m'.heap past.heap a
      simp only [report_atop hseen, ih hm' (ha.snoc hle (obtained_atop hanswer)) hrest]
    | @error f m' hle hm' hc =>
      have hseen : shownResult (m'.atop past).heap (.error (f.above past.heap)) = shownResult m'.heap (.error f) :=
        congrArg Except.error (complaint_above f m'.heap past.heap)
      simp only [report_atop hseen, ih hm' (ha.snoc hle (obtained_fault hc)) hrest]

/-! ### After a reset -/

/-- A machine at the start of a program with given host values. -/
def launched (program : Program) (config : Config) (registry : Registry) (hosts : Hosts) (heap : Heap) : Machine :=
  { load program config heap hosts with registry }

theorem sealed_launched {p : Program} (hp : ∀ v ∈ p.constants, v.isPortable = true) (config : Config)
    (registry : Registry) {hosts : Hosts} (hs : hosts.Stateless) : (launched p config registry hosts {}).Sealed :=
  ⟨Heap.closed_empty.newScope rfl fun _ ho => (by cases ho), fun _ hv => absurd hv List.not_mem_nil, nofun, hp, hs⟩

theorem newRoot_eq_above (b : Heap) : b.newRoot = (({} : Heap).newRoot.1.above b, ({} : Heap).newRoot.2.above b) := by
  have hempty : ({} : Heap).above b = b := by simp [Heap.above]
  rw [← Heap.newRoot_above, hempty]

/-- A new machine whose heap is not empty is a new machine over another. -/
theorem launched_eq_atop {p : Program} {config : Config} {registry : Registry} {hosts : Hosts} (past : Machine)
    (hlog : past.log = #[]) :
    launched p config registry hosts past.heap = (launched p config registry hosts {}).atop past := by
  simp only [launched, load, atop, newRoot_eq_above past.heap, hlog]
  rfl

/-- A machine that was reset is a new machine over the old one. -/
theorem reset_eq_atop (m : Machine) : m.reset = (launched m.program m.config m.registry m.hosts {}).atop m := by
  simp only [reset, launched, load, atop, newRoot_eq_above m.heap, Array.append_empty]
  rfl

/-- The constants of a compiled script refer to nothing. -/
theorem portable_constants {script : Script} {p : Program} (hc : script.compile = .ok p) :
    ∀ v ∈ p.constants, v.isPortable = true := by
  intro v hv
  rw [Script.constants_eq hc] at hv
  obtain ⟨i, hi, rfl⟩ := Array.mem_mapIdx.1 hv
  generalize script.draft.2.constants[i] = literal
  cases literal <;> rfl

/-- **Reset gives a new machine.** Whatever a host has asked of a machine for a compiled script, and however
that ended, a reset leaves a machine on which every session of the host shows what it shows on a machine
that has just been made for the same program, with the same limits and the same host values: the same
results and faults, states, depths, counts of instructions, lines, exceptions and globals. The host values
are stateless, and the session passes nothing from before. -/
theorem reset_renews {script : Script} {p : Program} (hc : script.compile = .ok p) {config : Config} {m : Machine}
    (hm : Lasts p config n m) (hs : m.hosts.Stateless) (heap : Heap) {ops : List Operation}
    (hops : ∀ op ∈ ops, op.Fresh) :
    m.reset.session [] ops = (launched p config m.registry m.hosts heap).session [] ops := by
  have hsealed : (launched p config m.registry m.hosts {}).Sealed :=
    sealed_launched (portable_constants hc) config m.registry hs
  have hnone : ∀ b : Heap, MirrorsAll b (launched p config m.registry m.hosts {}).heap.objects.size [] [] := fun b =>
    ⟨fun _ hv => absurd hv List.not_mem_nil, rfl⟩
  have hreset := session_atop hsealed (hnone m.heap) hops
  have hfresh := launched_eq_atop { m with heap, log := #[] } rfl ▸ session_atop hsealed (hnone heap) hops
  rw [reset_eq_atop, hm.program, hm.settled.1.config, hreset, hfresh]

/-- Keeps an array that a host function made, and throws it. -/
def echoing : Script :=
  { body := [
      .node .unknown (.var "x" (some (.node .unknown (.call (.node .unknown (.ident "echo"))
        [.node .unknown (.string "a")])))),
      .node .unknown (.throw (.node .unknown (.ident "x")))] }

/-- A new machine with a host function that makes arrays. -/
def equipped (p : Program) : Machine :=
  let (handle, m) := (load p {} {} {}).addHost (Native.echo "echo" (.variadic 0))
  (m.register "echo" handle).2

/-- Runs the script, which fails and gives what was thrown; starts over, keeps that value in another global
and has the host function make an array of it. -/
def revisiting : List Operation :=
  [.run 40, .reset, .define "y" (.answer 0), .call 40 "echo" [.global "y", .answer 0]]

/-- The run before the reset fails, and leaves an array and an exception behind; the session does not see
them. -/
theorem reset_renews_echoing : ∃ (p : Program) (m : Machine), echoing.compile = .ok p ∧ m.state = .error ∧
    m.lastException.isSome = true ∧ m.heap.arrays.size = 1 ∧ (m.reset.session [] revisiting).length = 4 ∧
    m.reset.session [] revisiting = (launched p {} m.registry m.hosts {}).session [] revisiting := by
  have hran : (echoing.compile.toOption.bind fun p => ((equipped p).serve (.run 40)).map fun x =>
      ((x.2.state, x.2.lastException.isSome), x.2.heap.arrays.size, (x.2.reset.session [] revisiting).length)) =
        some ((.error, true), 1, 4) := by decide +kernel
  obtain ⟨p, hp, hran⟩ := Option.bind_eq_some_iff.1 hran
  have hc : echoing.compile = .ok p := by
    cases he : echoing.compile <;> rw [he] at hp <;> cases hp
    rfl
  obtain ⟨⟨cause, m⟩, hserve, hm⟩ := Option.map_eq_some_iff.1 hran
  simp only [Prod.mk.injEq] at hm
  obtain ⟨⟨hstate, hexception⟩, harrays, hlength⟩ := hm
  have hadded : (load p {} {} {}).serve (.add (Native.echo "echo" (.variadic 0))) = some (none, _) := rfl
  have hregistered : Machine.serve _ (.register "echo" _) = some (none, equipped p) := rfl
  have hhosts : m.hosts.Stateless := by
    obtain ⟨⟨r, u⟩, hrun, hu⟩ := Option.map_eq_some_iff.1 hserve
    cases hu
    rw [(fixed_execute hrun).hosts]
    intro native hnative
    rw [Array.mem_singleton.1 hnative]
    exact Native.stateless_echo "echo" (.variadic 0)
  have hfresh : ∀ op ∈ revisiting, op.Fresh := by simp [revisiting, Operation.Fresh, Operand.isFresh]
  exact ⟨p, m, hc, hstate, hexception, harrays, hlength,
    reset_renews hc (((Lasts.load.serve hadded).serve hregistered).serve hserve) hhosts {} hfresh⟩

end Machine

end ScriptMachine
