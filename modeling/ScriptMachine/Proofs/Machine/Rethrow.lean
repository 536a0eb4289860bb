import ScriptMachine.Proofs.Machine.FinalScopes
import ScriptMachine.Proofs.Machine.Regions
import ScriptMachine.Proofs.Machine.Stage

/-!
# Rethrow — what becomes of an error behind a final part

An error that no region stops reaches the host as it is, with the place of the instruction that raised it. A try
statement without a catch clause stops every error: it takes it as a value, runs its final part and throws the value
again. From then on the error is an exception of the script like any other, raised at the statement. So what the host
gets of an error that came through at least one such statement is an uncaught exception at the outermost of them: the
message is left, the kind and the place are lost (`Script.rethrow_disguises`).
-/

namespace ScriptMachine

open Compile

/-! ### What a host gets -/

/-- The fault in an answer. -/
def answerFault? {α : Type} : Option (Except Fault α × Machine) → Option Fault
  | some (.error fault, _) => some fault
  | _ => none

/-- The fault that a request reports. -/
def Request.fault? (m : Machine) : Request → Option Fault
  | .run fuel => answerFault? (m.run fuel)
  | .step fuel => answerFault? (m.step fuel)
  | .call fuel name args => answerFault? (m.call fuel name args)
  | _ => none

/-- A fault is reported at a place of a section. -/
def Fault.At (fault : Fault) (p : Program) (x : Nat) (span : Span) : Prop :=
  ∃ trace, fault.trace = some trace ∧ trace.source = p.sectionName? x ∧
    trace.position = if span.isUnknown then none else some (span.line, span.column)

namespace Machine

variable {mode : Mode} {fuel : Nat} {first b : Bool} {m u v w : Machine} {fault : Fault}

/-- A run goes on from every machine whose instruction it executes. -/
theorem drive_of_mem_visited (hw : w ∈ visited mode fuel first v) :
    ∃ b fuel', w.fetches mode b = true ∧ drive mode fuel first v = drive mode (fuel' + 1) b w := by
  induction fuel generalizing first v with
  | zero => cases hw
  | succ fuel ih =>
    unfold visited at hw
    split at hw
    · rename_i hfetch
      rcases List.mem_cons.1 hw with rfl | hw
      · exact ⟨first, fuel, hfetch, rfl⟩
      · cases hnext : v.tick mode first with
        | next v₁ =>
          rw [hnext] at hw
          obtain ⟨b, fuel', hfetch', hdrive⟩ := ih hw
          exact ⟨b, fuel', hfetch', by rw [← hdrive, drive, hnext]⟩
        | stop | fault =>
          rw [hnext] at hw
          cases hw
    · cases hw

/-- How a run was started does not matter to a machine whose instruction is executed. -/
theorem tick_of_fetches_mode (h : w.fetches mode b = true) :
    w.tick mode b = w.tick .run true ∧ w.fetches .run true = true := by
  rcases tick_cases mode b w with ⟨-, -, -, hnot, -⟩ | ⟨htick, hfetch⟩
  · rw [hnot] at h
    cases h
  · exact ⟨htick, hfetch ▸ h⟩

theorem fetches_of_mem_visited (hw : w ∈ visited mode fuel first v) : w.fetches .run true = true := by
  obtain ⟨b, fuel', hfetch, -⟩ := drive_of_mem_visited hw
  exact (tick_of_fetches_mode hfetch).2

/-- An instruction that ends a run with a fault. -/
theorem drive_of_visited_fault (hw : w ∈ visited mode fuel first v) (ht : w.tick .run true = .fault fault u) :
    drive mode fuel first v = some (.error fault, u) := by
  obtain ⟨b, fuel', hfetch, hdrive⟩ := drive_of_mem_visited hw
  rw [hdrive, drive, (tick_of_fetches_mode hfetch).1, ht]

/-- A request that executes an instruction with a fault reports it. -/
theorem fault_of_mem_course {request : Request} (hw : w ∈ request.course m) (ht : w.tick .run true = .fault fault u) :
    request.fault? m = some fault := by
  cases request with
  | run fuel | step fuel =>
    simp only [Request.course] at hw
    split at hw
    · rename_i hlive
      simp only [Request.fault?, run, step]
      rw [execute_eq hlive, drive_of_visited_fault hw ht]
      rfl
    · cases hw
  | call fuel name args =>
    by_cases hfunction : m.state ≠ .error ∧ ∃ id g, m.lookup name = .ok (.function id g)
    · obtain ⟨hstate, id, g, hl⟩ := hfunction
      obtain ⟨hcourse, hcall⟩ := call_function hstate hl fuel args
      rw [hcourse] at hw
      rw [Request.fault?, hcall, drive_of_visited_fault hw ht]
      rfl
    · rw [(call_aside (fun hstate id g hl => hfunction ⟨hstate, id, g, hl⟩) fuel args).1] at hw
      cases hw
  | _ => cases hw

/-- Where the machines of a request come from. -/
theorem mem_course {request : Request} (hw : w ∈ request.course m) :
    ∃ mode v b, request.Starts m mode v ∧ Passes mode true v b w := by
  cases request with
  | run fuel =>
    simp only [Request.course] at hw
    split at hw
    · rename_i hlive
      obtain ⟨b, hp⟩ := passes_of_mem_visited hw
      exact ⟨_, _, b, .run hlive, hp⟩
    · cases hw
  | step fuel =>
    simp only [Request.course] at hw
    split at hw
    · rename_i hlive
      obtain ⟨b, hp⟩ := passes_of_mem_visited hw
      exact ⟨_, _, b, .step hlive, hp⟩
    · cases hw
  | call fuel name args =>
    by_cases hfunction : m.state ≠ .error ∧ ∃ id g, m.lookup name = .ok (.function id g)
    · obtain ⟨hstate, id, g, hl⟩ := hfunction
      rw [(call_function hstate hl fuel args).1] at hw
      obtain ⟨b, hp⟩ := passes_of_mem_visited hw
      exact ⟨_, _, b, .call hstate hl, hp⟩
    · rw [(call_aside (fun hstate id g hl => hfunction ⟨hstate, id, g, hl⟩) fuel args).1] at hw
      cases hw
  | _ => cases hw

theorem Rooted.course {p : Program} {request : Request} (hm : Rooted p m) (hw : w ∈ request.course m) : Rooted p w := by
  obtain ⟨mode, v, b, hs, hp⟩ := mem_course hw
  exact passes_rooted (hm.starts hs) hp

end Machine

/-! ### Machines at a place -/

namespace Machine

/-- A machine of a program at a place of a section, with given entries on its stack. -/
structure Stands (p : Program) (x pc : Nat) (s : List Entry) (v : Machine) : Prop where
  program : v.program = p
  sectionIndex : v.sectionIndex = x
  pc : v.pc = pc
  entries : v.stack.entries = s

variable {p : Program} {x pc l : Nat} {s below above : List Entry} {y : Value} {r : Region} {c : Cause} {span : Span}
  {op : Opcode} {u v w : Machine}

theorem Stands.instruction (h : Stands p x pc s v) (hsite : p.site? x pc = some (op, span)) :
    ∃ i, v.program.instruction? v.sectionIndex v.pc = some i ∧ i.op = op ∧ i.span = span := by
  obtain ⟨i, hi, he⟩ := Option.map_eq_some_iff.1 hsite
  exact ⟨i, by rw [h.program, h.sectionIndex, h.pc, hi], congrArg Prod.fst he, congrArg Prod.snd he⟩

theorem Stands.fetching (h : Stands p x pc s v) : v.fetching = v.fetching.onStack s := eq_onStack h.entries

/-- An error that a region stops. -/
theorem handle_region (hc : c.isCatchable = true) (htop : Topmost u.stack.entries above (.region r) below)
    (span : Span) : ∃ w, u.handle c span = (none, w) ∧
      Stands u.program r.sectionIndex r.handlerPc (.value (thrownValue c u.heap).1 :: below) w := by
  rw [handle_catchable hc, unwind_region htop]
  exact ⟨_, rfl, rfl, rfl, rfl, rfl⟩

theorem Stands.label (h : Stands p x pc s v) (hsite : p.site? x pc = some (.label l, span))
    (hlimit : v.exceeded? = none) : ∃ w, v.tick .run true = .next w ∧ Stands p x (pc + 1) s w := by
  obtain ⟨i, hi, hop, -⟩ := h.instruction hsite
  rw [tick_of_instruction hlimit hi, dispatch_skip (.inr ⟨l, hop⟩)]
  exact ⟨_, rfl, h.program, h.sectionIndex, congrArg (· + 1) h.pc, h.entries⟩

/-- The exception stays on top of the region that is opened below it. -/
theorem Stands.keep {pc' : Nat} (h : Stands p x pc (.value y :: s) v)
    (hsite : p.site? x pc = some (.tryStart l none true, span)) (hl : p.jumpTarget? l = some pc')
    (hlimit : v.exceeded? = none) :
    ∃ w env, v.tick .run true = .next w ∧ Stands p x (pc + 1) (.value y :: .region ⟨x, pc', none, env⟩ :: s) w := by
  obtain ⟨i, hi, hop, -⟩ := h.instruction hsite
  have hlabel : v.fetching.program.jumpTarget? l = some pc' := by rw [← hl, ← h.program]; rfl
  rw [tick_of_instruction hlimit hi, h.fetching, dispatch_tryKeep hop hlabel]
  refine ⟨_, v.env, rfl, h.program, h.sectionIndex, congrArg (· + 1) h.pc, ?_⟩
  rw [entries_onStack, ← h.sectionIndex]
  rfl

/-- An exception that is thrown right above a region. -/
theorem Stands.throw (h : Stands p x pc (.value y :: .region r :: s) v)
    (hsite : p.site? x pc = some (.throw, span)) (hlimit : v.exceeded? = none) :
    ∃ w, v.tick .run true = .next w ∧ Stands p r.sectionIndex r.handlerPc (.value y :: s) w := by
  obtain ⟨i, hi, hop, -⟩ := h.instruction hsite
  rw [tick_of_instruction hlimit hi, h.fetching, dispatch_throw hop]
  have htop : Topmost (v.fetching.onStack (.region r :: s)).stack.entries [] (.region r) s := by
    rw [entries_onStack]
    exact ⟨rfl, fun _ ha => absurd ha List.not_mem_nil, rfl⟩
  obtain ⟨w, hhandle, hw⟩ := handle_region (c := .thrown y) rfl htop i.span
  exact ⟨w, by simp only [routed, hhandle], hw.program.trans h.program, hw.sectionIndex, hw.pc, hw.entries⟩

end Machine

/-! ### Failures -/

/-- An instruction that fails: the machine that executes it, what went wrong, the place of the instruction, and the
machine that it leaves. -/
structure Failure where
  machine : Machine
  cause : Cause
  span : Span
  left : Machine

namespace Failure

open Machine

/-- The instruction is executed, and fails so. -/
def Occurs (e : Failure) : Prop :=
  e.machine.fetches .run true = true ∧
    ∃ i, e.machine.program.instruction? e.machine.sectionIndex e.machine.pc = some i ∧ i.span = e.span ∧
      dispatch i e.machine.fetching = .error e.cause e.left

/-- What a handler gets. -/
def value (e : Failure) : Value := (thrownValue e.cause e.left.heap).1

/-- The machine after the error has been routed. -/
def routed (e : Failure) : Machine := (e.left.handle e.cause e.span).2

/-- No region stops the error: it reaches the host. -/
def Escapes (e : Failure) : Prop := ∀ above r below, ¬ Topmost e.left.stack.entries above (.region r) below

variable {e : Failure} {p : Program} {x : Nat}

theorem Occurs.tick (he : e.Occurs) : e.machine.tick .run true = e.left.routed e.cause e.span := by
  obtain ⟨hfetch, i, hi, hspan, hd⟩ := he
  obtain ⟨i', hi', ht⟩ := instruction_of_fetches hfetch
  obtain rfl : i' = i := Option.some.inj (hi'.symm.trans hi)
  rw [ht, hd, ← hspan]

/-- An instruction fails in its section. -/
theorem Occurs.left (he : e.Occurs) (hroot : Rooted p e.machine) :
    Rooted p e.left ∧ e.left.sectionIndex = e.machine.sectionIndex := by
  obtain ⟨-, i, hi, -, hd⟩ := he
  have hdispatch := heeds_dispatch (hroot.program ▸ hi) e.machine.fetching hroot.fetching rfl
  rw [hd] at hdispatch
  exact hdispatch

/-- What reaches the host of an error that no region stops: a thrown value is an uncaught exception, any other error
stays what it is. The place is that of the instruction. -/
theorem Escapes.fault (hescapes : e.Escapes) (he : e.Occurs) (hc : e.cause.isCatchable = true) :
    ∃ fault u, e.machine.tick .run true = .fault fault u ∧ fault.At e.left.program e.left.sectionIndex e.span ∧
      (∀ y, e.cause = .thrown y → fault.cause = .uncaught (y.message e.left.heap)) ∧
      ((∀ y, e.cause ≠ .thrown y) → fault.cause = e.cause) := by
  have hhandle : ∃ passed fault u, e.left.handle e.cause e.span = (some fault, u) ∧
      Surfaces e.left e.cause e.span e.value passed fault u := by
    obtain ⟨above, entry, below, htop⟩ | hpass := exists_topmost e.left.stack.entries
    · cases entry with
      | region r => exact absurd htop (hescapes above r below)
      | frame f =>
        rw [handle_catchable hc, unwind_host htop]
        refine ⟨above ++ [.frame f], _, _, rfl, ?_⟩
        exact surfaces_surface rfl rfl rfl ⟨rfl, rfl, rfl⟩
      | value | loop => cases htop.stops
    · rw [handle_catchable hc, unwind_bottom hpass]
      cases (e.left.stack.entries.filterMap Entry.frame?).getLast? with
      | none | some f =>
        refine ⟨e.left.stack.entries, _, _, rfl, ?_⟩
        exact surfaces_surface rfl rfl rfl ⟨rfl, rfl, rfl⟩
  obtain ⟨passed, fault, u, hhandle, hsurfaces⟩ := hhandle
  refine ⟨fault, u, ?_, ⟨_, hsurfaces.trace, rfl, rfl⟩, hsurfaces.thrown, hsurfaces.raised⟩
  rw [he.tick, Machine.routed, hhandle]

end Failure

/-! ### Statements that an error passes -/

/-- A region belongs to a try statement that catches nothing: the statement has no catch clause, or its catch clause is
at work. -/
def Script.LetsPass (script : Script) (p : Program) (t : TrySite) (r : Region) : Prop :=
  ∃ body clause final, .stmt (.try body clause final) ∈ script.nodes ∧ p.HasTry t clause final ∧
    t.sectionIndex = r.sectionIndex ∧ (r.handlerPc = t.handler ∧ clause = none ∨ r.handlerPc = t.rethrow)

theorem Script.LetsPass.last {script : Script} {p : Program} {t : TrySite} {r : Region} (h : script.LetsPass p t r) :
    p.site? t.sectionIndex t.last = some (.throw, t.span) := by
  obtain ⟨body, clause, final, -, ht, -⟩ := h
  exact ht.last

/-- A region leads to the catch clause of a try statement. -/
def Script.Catches (script : Script) (p : Program) (t : TrySite) (r : Region) : Prop :=
  ∃ body clause final, .stmt (.try body (some clause) final) ∈ script.nodes ∧ p.HasTry t (some clause) final ∧
    t.sectionIndex = r.sectionIndex ∧ r.handlerPc = t.handler

/-- In a compiled script every region is one or the other. -/
theorem Script.catches_or_letsPass {script : Script} {p : Program} (hc : script.compile = .ok p) {r : Region}
    (hr : p.Opens r) : ∃ t, script.Catches p t r ∨ script.LetsPass p t r := by
  obtain ⟨t, body, clause, final, hnode, ht, hx, hhandler | hrethrow⟩ := Script.exists_try_of_region hc hr
  · cases clause with
    | none => exact ⟨t, .inr ⟨body, none, final, hnode, ht, hx, .inl ⟨hhandler, rfl⟩⟩⟩
    | some clause => exact ⟨t, .inl ⟨body, clause, final, hnode, ht, hx, hhandler⟩⟩
  · exact ⟨t, .inr ⟨body, clause, final, hnode, ht, hx, .inr hrethrow⟩⟩

namespace Machine

/-- The machine stands at the final part of a statement, above an exception that waits to be thrown again. -/
def AtFinal (p : Program) (t : TrySite) (x : Value) (below : List Entry) : Machine → Prop :=
  Stands p t.sectionIndex t.rethrow (.value x :: below)

/-- What may happen to a machine: it executes an instruction, or stops in front of one, and then a host uses it and lets
it go on. -/
inductive Continues : Machine → Machine → Prop where
  | next {u w} : u.tick .run true = .next w → Continues u w
  | stop {mode first reason u w} : u.tick mode first = .stop reason w → Continues u (w.settle reason).2
  | serve {request cause u w} : u.serve request = some (cause, w) → Continues u w
  | starts {request mode u w} : Request.Starts u request mode w → Continues u w

/-- A machine goes on without taking anything from a stack. -/
def Above (s : List Entry) : Machine → Machine → Prop :=
  Relation.ReflTransGen fun u w => Continues u w ∧ s <:+ w.stack.entries

/-- The final part of a statement runs for an exception, and completes: a machine comes to it above what lies below the
exception, and from there, without ever taking the exception away, to its end. -/
structure CompletesFinal (p : Program) (t : TrySite) (x : Value) (below : List Entry) (u v : Machine) : Prop where
  comes : ∃ w, Above below u w ∧ AtFinal p t x below w ∧ Above (.value x :: below) w v
  sectionIndex : v.sectionIndex = t.sectionIndex
  pc : v.pc = t.last
  depth : v.stack.depth = below.length + 1

end Machine

open Machine

/-- An error spreads through try statements that catch nothing, the outermost first, while their final parts complete:
each of them throws it again. -/
inductive Script.Spreads (script : Script) (p : Program) (e : Failure) : List TrySite → Failure → Prop where
  | start : Spreads script p e [] e
  | through {ts e₁ t above r below e₂} : Spreads script p e ts e₁ →
      Topmost e₁.left.stack.entries above (.region r) below → script.LetsPass p t r →
      CompletesFinal p t e₁.value below e₁.routed e₂.machine → e₂.Occurs → Spreads script p e (t :: ts) e₂

/-- What a host is told of an error that has spread through try statements: all of it, or the message only, at the place
of the outermost statement. -/
def Failure.Reported (e : Failure) (p : Program) : List TrySite → Fault → Prop
  | [], fault => fault.cause = e.cause ∧ fault.At p e.machine.sectionIndex e.span
  | t :: _, fault => fault.cause = .uncaught (e.cause.message e.left.heap) ∧ fault.At p t.sectionIndex t.span

/-! ### To the final part -/

/-- **A region of a statement that catches nothing sends an exception to the final part**: without a catch clause the
exception is thrown on in the handler, and the region of the handler gets it. -/
theorem Failure.comes_final {script : Script} {p : Program} {e : Failure} {t : TrySite} {above below : List Entry}
    {r : Region} (hc : script.compile = .ok p) (hprogram : e.left.program = p) (hcatch : e.cause.isCatchable = true)
    (htop : Topmost e.left.stack.entries above (.region r) below) (hpass : script.LetsPass p t r)
    (hlimit : ∀ w, Steps e.routed w → w.exceeded? = none) : ∃ w, Steps e.routed w ∧ AtFinal p t e.value below w := by
  obtain ⟨u, hhandle, hu⟩ := handle_region hcatch htop e.span
  obtain rfl : e.routed = u := congrArg Prod.snd hhandle
  obtain ⟨body, clause, final, -, ht, hx, ⟨hhandler, hnone⟩ | hrethrow⟩ := hpass
  · -- the handler: its label, the region that is opened below the exception, and the throw
    rw [hprogram, ← hx, hhandler] at hu
    obtain ⟨v₁, ht₁, hv₁⟩ := hu.label ht.handler (hlimit _ .refl)
    have hs₁ : Steps e.routed v₁ := .single ht₁
    obtain ⟨v₂, env, ht₂, hv₂⟩ := hv₁.keep ht.keeps (ht.rethrow_target hc) (hlimit _ hs₁)
    have hs₂ : Steps e.routed v₂ := hs₁.tail ht₂
    obtain ⟨v₃, ht₃, hv₃⟩ := hv₂.throw (ht.bare hnone) (hlimit _ hs₂)
    exact ⟨v₃, hs₂.tail ht₃, hv₃⟩
  · rw [hprogram, ← hx, hrethrow] at hu
    exact ⟨e.routed, .refl, hu⟩

/-! ### Through the final part -/

namespace Machine

variable {p : Program} {t : TrySite} {x : Value} {below s : List Entry} {u v w : Machine}

theorem Continues.rooted (hu : Rooted p u) (h : Continues u w) : Rooted p w := by
  cases h with
  | next ht =>
    have hnext := tick_rooted hu .run true
    rw [ht] at hnext
    exact hnext
  | @stop mode first reason _ w ht =>
    have hstop := tick_rooted hu mode first
    rw [ht] at hstop
    cases reason <;> exact ⟨hstop.program, hstop.regions⟩
  | serve hserve => exact hu.serve hserve
  | starts hs => exact hu.starts hs

theorem Above.rooted (hv : Rooted p v) (h : Above s v w) : Rooted p w := by
  induction h with
  | refl => exact hv
  | tail _ hcontinues ih => exact hcontinues.1.rooted ih

theorem Above.suffix (hv : s <:+ v.stack.entries) (h : Above s v w) : s <:+ w.stack.entries := by
  cases h with
  | refl => exact hv
  | tail _ hcontinues => exact hcontinues.2

/-- A final part that completes has left the stack as it was. -/
theorem CompletesFinal.stands (h : CompletesFinal p t x below u v) (hv : v.program = p) :
    Stands p t.sectionIndex t.last (.value x :: below) v := by
  obtain ⟨w, -, hw, habove⟩ := h.comes
  have hsuffix := Above.suffix (hw.entries ▸ List.suffix_refl _) habove
  have hlength : (Entry.value x :: below).length = v.stack.entries.length := by
    rw [← v.stack.depth_eq, h.depth, List.length_cons]
  exact ⟨hv, h.sectionIndex, h.pc, (hsuffix.eq_of_length hlength).symm⟩

theorem CompletesFinal.rooted (h : CompletesFinal p t x below u v) (hu : Rooted p u) : Rooted p v := by
  obtain ⟨w, hcomes, -, habove⟩ := h.comes
  exact habove.rooted (hcomes.rooted hu)

end Machine

namespace Failure

variable {script : Script} {p : Program} {e e' : Failure} {t : TrySite} {ts : List TrySite} {x pc : Nat} {y : Value}
  {s : List Entry} {span : Span}

/-- The instruction that throws a value fails with it. -/
theorem Occurs.throws (he : e.Occurs) (h : Stands p x pc (.value y :: s) e.machine)
    (hsite : p.site? x pc = some (.throw, span)) : e.cause = .thrown y ∧ e.span = span := by
  obtain ⟨-, i, hi, hspan, hd⟩ := he
  obtain ⟨i', hi', hop, hspan'⟩ := h.instruction hsite
  obtain rfl : i' = i := Option.some.inj (hi'.symm.trans hi)
  rw [h.fetching, dispatch_throw hop] at hd
  obtain ⟨hcause, -⟩ := EStateM.Result.error.inj hd
  exact ⟨hcause.symm, hspan.symm.trans hspan'⟩

/-- What is left of an error, whatever it has spread through. -/
structure Remains (p : Program) (e : Failure) (ts : List TrySite) (e' : Failure) : Prop where
  occurs : e'.Occurs
  rooted : Rooted p e'.machine
  isCatchable : e'.cause.isCatchable = true
  value : ∃ id, e'.value = .error id (e.cause.message e.left.heap)
  unspread : ts = [] → e' = e
  spread : ∀ t rest, ts = t :: rest → e'.cause = .thrown e'.value ∧ e'.span = t.span ∧
    e'.machine.sectionIndex = t.sectionIndex

theorem value_of_own (hown : ∀ x, e.cause ≠ .thrown x) :
    e.value = .error (.made e.left.heap.stamps) (e.cause.message e.left.heap) :=
  ((delivers_thrownValue e.cause e.left.heap).raised hown).1

theorem value_of_thrown (h : e.cause = .thrown y) : e.value = y :=
  ((delivers_thrownValue e.cause e.left.heap).thrown y h).1

/-- Through one more statement. -/
theorem Remains.through {e₁ e₂ : Failure} {r : Region} {below : List Entry} (h : Remains p e ts e₁)
    (hpass : script.LetsPass p t r) (hfinal : CompletesFinal p t e₁.value below e₁.routed e₂.machine)
    (he₂ : e₂.Occurs) : Remains p e (t :: ts) e₂ := by
  obtain ⟨hleft, -⟩ := h.occurs.left h.rooted
  have hrooted : Rooted p e₂.machine := hfinal.rooted (hleft.handle e₁.cause e₁.span)
  obtain ⟨hcause, hspan⟩ := he₂.throws (hfinal.stands hrooted.program) hpass.last
  have hvalue : e₂.value = e₁.value := value_of_thrown hcause
  refine ⟨he₂, hrooted, by rw [hcause]; rfl, hvalue ▸ h.value, nofun, fun t' rest hts => ?_⟩
  cases hts
  exact ⟨hvalue ▸ hcause, hspan, hfinal.sectionIndex⟩

end Failure

/-- An error that spreads becomes an exception of the script with its message. -/
theorem Script.Spreads.remains {script : Script} {p : Program} {e e' : Failure} {ts : List TrySite}
    (hs : script.Spreads p e ts e') (he : e.Occurs) (hroot : Rooted p e.machine) (hcatch : e.cause.isCatchable = true)
    (hown : ∀ x, e.cause ≠ .thrown x) : e.Remains p ts e' := by
  induction hs with
  | start => exact ⟨he, hroot, hcatch, ⟨_, Failure.value_of_own hown⟩, fun _ => rfl, nofun⟩
  | through _ _ hpass hfinal hoccurs ih => exact ih.through hpass hfinal hoccurs

namespace Failure

variable {script : Script} {p : Program} {e e' : Failure} {ts : List TrySite}

/-- An error that has spread is not told apart from any other exception of the script, and one that has not is told as it
is. -/
theorem Remains.reported (h : e.Remains p ts e') (hown : ∀ x, e.cause ≠ .thrown x) (hescapes : e'.Escapes) :
    ∃ fault u, e'.machine.tick .run true = .fault fault u ∧ e.Reported p ts fault := by
  obtain ⟨fault, u, htick, hat, hthrown, hraised⟩ := hescapes.fault h.occurs h.isCatchable
  obtain ⟨hleft, hsection⟩ := h.occurs.left h.rooted
  rw [hleft.program, hsection] at hat
  refine ⟨fault, u, htick, ?_⟩
  cases ts with
  | nil =>
    obtain rfl := h.unspread rfl
    exact ⟨hraised hown, hat⟩
  | cons t rest =>
    obtain ⟨hcause, hspan, hx⟩ := h.spread t rest rfl
    obtain ⟨id, hvalue⟩ := h.value
    rw [hspan, hx] at hat
    refine ⟨?_, hat⟩
    rw [hthrown _ hcause, hvalue]
    rfl

/-- The kind of an error is kept if and only if the error has not spread: an uncaught exception is no error that a
script may catch. -/
theorem Reported.cause_eq_iff {fault : Fault} (h : e.Reported p ts fault) (hcatch : e.cause.isCatchable = true) :
    fault.cause = e.cause ↔ ts = [] := by
  cases ts with
  | nil => exact ⟨fun _ => rfl, fun _ => h.1⟩
  | cons t rest =>
    refine ⟨fun hsame => ?_, nofun⟩
    rw [← hsame, h.1] at hcatch
    cases hcatch

/-- What becomes of an error at a region: a catch clause gets it, or it comes to a final part, unless a limit is exceeded
on the way. In both cases the machine goes on. -/
theorem Remains.stopped (h : e.Remains p ts e') (hc : script.compile = .ok p) {above below : List Entry} {r : Region}
    (htop : Topmost e'.left.stack.entries above (.region r) below) :
    e'.machine.tick .run true = .next e'.routed ∧ ∃ t, script.Catches p t r ∨ script.LetsPass p t r ∧
      ((∃ w, Steps e'.routed w ∧ AtFinal p t e'.value below w) ∨
        ∃ w limit, Steps e'.routed w ∧ w.exceeded? = some limit) := by
  obtain ⟨hleft, -⟩ := h.occurs.left h.rooted
  obtain ⟨u, hhandle, -⟩ := handle_region h.isCatchable htop e'.span
  have hopens : p.Opens r := hleft.regions r (by rw [htop.split]; simp)
  refine ⟨by rw [h.occurs.tick]; simp only [Machine.routed, Failure.routed, hhandle], ?_⟩
  obtain ⟨t, hcatches | hpass⟩ := Script.catches_or_letsPass hc hopens
  · exact ⟨t, .inl hcatches⟩
  · refine ⟨t, .inr ⟨hpass, ?_⟩⟩
    by_cases hlimit : ∀ w, Steps e'.routed w → w.exceeded? = none
    · exact .inl (comes_final hc hleft.program h.isCatchable htop hpass hlimit)
    · -- some machine on the way exceeds a limit
      simp only [not_forall] at hlimit
      obtain ⟨w, hsteps, hw⟩ := hlimit
      obtain ⟨limit, hlimit⟩ := Option.ne_none_iff_exists'.1 hw
      exact .inr ⟨w, limit, hsteps, hlimit⟩

end Failure

/-! ### A run through two statements -/

namespace Machine

variable {fuel n : Nat} {first : Bool} {v w w' : Machine}

/-- Machines that a run goes through one after the other. -/
theorem tick_of_visited (hw : (visited .run fuel first v)[n]? = some w)
    (hw' : (visited .run fuel first v)[n + 1]? = some w') : w.tick .run true = .next w' := by
  induction fuel generalizing first v n with
  | zero => cases hw
  | succ fuel ih =>
    unfold visited at hw hw'
    split at hw
    · rename_i hfetch
      rw [if_pos hfetch, List.getElem?_cons_succ] at hw'
      cases hnext : v.tick .run first with
      | next v₁ =>
        rw [hnext] at hw hw'
        cases n with
        | zero =>
          cases hw
          obtain ⟨vs, hvs⟩ := List.head?_eq_some_iff.1 (List.head?_eq_getElem?.trans hw')
          rw [head_visited hvs, ← hnext]
          exact (tick_of_fetches_mode hfetch).1.symm
        | succ n => exact ih hw hw'
      | stop | fault =>
        rw [hnext] at hw'
        cases hw'
    · cases hw

end Machine

/-- What can be told of an entry: it is a region, or an error. -/
inductive Mark where
  | region (r : Region)
  | error (id : Identity) (message : String)
  deriving DecidableEq

/-- The entry that is marked so. -/
def Mark.entry : Mark → Entry
  | .region r => .region r
  | .error id message => .value (.error id message)

def Entry.mark? : Entry → Option Mark
  | .region r => some (.region r)
  | .value (.error id message) => some (.error id message)
  | _ => none

theorem Entry.eq_of_mark {entry : Entry} {mark : Mark} (h : entry.mark? = some mark) : entry = mark.entry := by
  unfold Entry.mark? at h
  split at h <;> cases h <;> rfl

theorem entries_of_marks {s : List Entry} {marks : List Mark}
    (h : s.map Entry.mark? = marks.map some) : s = marks.map Mark.entry := by
  induction marks generalizing s with
  | nil => exact List.map_eq_nil_iff.1 h
  | cons mark marks ih =>
    obtain ⟨entry, rest, rfl, hentry, hrest⟩ := List.map_eq_cons_iff.1 h
    rw [Entry.eq_of_mark hentry, ih hrest]
    rfl

/-- The machines of a run that a host lets a script make. -/
def Program.course (p : Program) : List Machine := (Request.run 100).course (Machine.fresh p [])

/-- What is seen of a run after some instructions: the place of the machine, and what lies on the stack. -/
def Script.sight (script : Script) (n : Nat) : Option (Nat × Nat × List (Option Mark)) :=
  match script.compile with
  | .ok p => p.course[n]?.map fun w => (w.sectionIndex, w.pc, w.stack.entries.map Entry.mark?)
  | .error _ => none

/-- Whether a name means nothing after some instructions. -/
def Script.misses (script : Script) (name : String) (n : Nat) : Bool :=
  match script.compile with
  | .ok p => p.course[n]?.any fun w => (w.lookup name).toOption.isNone
  | .error _ => false

/-- Whether the run keeps some entries at the bottom of the stack from one instruction to another. -/
def Script.keeps (script : Script) (marks : List Mark) (i j : Nat) : Bool :=
  match script.compile with
  | .ok p => (List.range' i (j + 1 - i)).all fun n => p.course[n]?.any fun w =>
    decide (marks.map some <:+ w.stack.entries.map Entry.mark?)
  | .error _ => false

/-- What an instruction of the code of a script does, and its place. -/
def Script.site? (script : Script) (x pc : Nat) : Option (Opcode × Span) :=
  match script.compile with
  | .ok p => p.site? x pc
  | .error _ => none

theorem Script.site_of_compile {script : Script} {p : Program} (hc : script.compile = .ok p) (x pc : Nat) :
    p.site? x pc = script.site? x pc := by
  simp only [Script.site?, hc]

section Run

variable {script : Script} {p : Program} {name : String} {n x pc i j : Nat} {marks : List Mark} {v w : Machine}

theorem Program.mem_course (hw : p.course[n]? = some w) :
    w ∈ (Request.run 100).course (Machine.fresh p []) ∧ w.program = p ∧ w.fetches .run true = true := by
  have hmem := List.mem_of_getElem? hw
  have hrooted : Rooted p w := Rooted.course (⟨rfl, nofun⟩ : Rooted p (Machine.fresh p [])) hmem
  exact ⟨hmem, hrooted.program, fetches_of_mem_visited hmem⟩

/-- Part of a run that takes nothing from a stack. -/
theorem Script.above_of_keeps (hc : script.compile = .ok p) (h : script.keeps marks i j = true) (hij : i ≤ j)
    (hv : p.course[i]? = some v) (hw : p.course[j]? = some w) : Above (marks.map Mark.entry) v w := by
  have hkept : ∀ n u, i ≤ n → n ≤ j → p.course[n]? = some u → marks.map Mark.entry <:+ u.stack.entries := by
    intro n u hi hj hu
    simp only [Script.keeps, hc] at h
    have hn := List.all_eq_true.1 h n (List.mem_range'_1.2 ⟨hi, by omega⟩)
    rw [hu, Option.any_some] at hn
    obtain ⟨above, habove⟩ := of_decide_eq_true hn
    obtain ⟨s, s', hs, -, hmarks⟩ := List.map_eq_append_iff.1 habove.symm
    exact ⟨s, by rw [hs, entries_of_marks hmarks]⟩
  clear h
  induction j, hij using Nat.le_induction generalizing w with
  | base =>
    cases hv.symm.trans hw
    exact .refl
  | succ j hij ih =>
    obtain ⟨u, hu⟩ : ∃ u, p.course[j]? = some u := by
      have hlt := (List.getElem?_eq_some_iff.1 hw).1
      exact ⟨_, List.getElem?_eq_getElem (Nat.lt_of_succ_lt hlt)⟩
    refine (ih hu fun n u' hi hj => hkept n u' hi (Nat.le_succ_of_le hj)).tail ⟨.next (tick_of_visited hu hw), ?_⟩
    exact hkept (j + 1) w (Nat.le_succ_of_le hij) (Nat.le_refl _) hw

theorem Script.stands_of_sight (hc : script.compile = .ok p) (h : script.sight n = some (x, pc, marks.map some)) :
    ∃ w, p.course[n]? = some w ∧ Stands p x pc (marks.map Mark.entry) w := by
  simp only [Script.sight, hc] at h
  obtain ⟨w, hw, he⟩ := Option.map_eq_some_iff.1 h
  simp only [Prod.mk.injEq] at he
  obtain ⟨hx, hpc, hmarks⟩ := he
  exact ⟨w, hw, (Program.mem_course hw).2.1, hx, hpc, entries_of_marks hmarks⟩

theorem Script.lookup_of_misses (hc : script.compile = .ok p) (h : script.misses name n = true)
    (hw : p.course[n]? = some w) : w.lookup name = .error (.undefinedVariable name) := by
  simp only [Script.misses, hc, hw, Option.any_some] at h
  revert h
  unfold Machine.lookup
  cases w.heap.resolve? w.env name with
  | some => intro h; cases h
  | none =>
    cases w.program.function? name with
    | some => intro h; cases h
    | none =>
      cases w.registry.get? name with
      | some => intro h; cases h
      | none => intro _; rfl

/-- A part of the run in which an error comes through a statement. -/
theorem Script.Spreads.through_run {e e₁ : Failure} {ts : List TrySite} {t : TrySite} {r : Region}
    (hs : script.Spreads p e ts e₁) (i j k : Nat) (id : Identity) (message : String) (below : List Mark)
    (hc : script.compile = .ok p) (hij : i < j) (hjk : j ≤ k)
    (hmachine : p.course[i]? = some e₁.machine) (he₁ : e₁.Occurs) (hcatch : e₁.cause.isCatchable = true)
    (hstack : e₁.left.stack.entries = .region r :: below.map Mark.entry) (hpass : script.LetsPass p t r)
    (hnext : script.sight (i + 1) = some (r.sectionIndex, r.handlerPc, (.error id message :: below).map some))
    (hcomes : script.keeps below (i + 1) j = true)
    (hfinal : script.sight j = some (t.sectionIndex, t.rethrow, (.error id message :: below).map some))
    (hkept : script.keeps (.error id message :: below) j k = true)
    (hlast : script.sight k = some (t.sectionIndex, t.last, (.error id message :: below).map some)) :
    ∃ e₂, script.Spreads p e (t :: ts) e₂ ∧ p.course[k]? = some e₂.machine ∧ e₂.Occurs ∧
      e₂.cause.isCatchable = true ∧ e₂.left.stack.entries = below.map Mark.entry := by
  obtain ⟨u, hu, hstands⟩ := Script.stands_of_sight hc hnext
  obtain ⟨v, hv, hstandsFinal⟩ := Script.stands_of_sight hc hfinal
  obtain ⟨w, hw, hstandsLast⟩ := Script.stands_of_sight hc hlast
  have htop : Topmost e₁.left.stack.entries [] (.region r) (below.map Mark.entry) :=
    ⟨hstack, fun _ ha => absurd ha List.not_mem_nil, rfl⟩
  obtain ⟨u', hhandle, hrouted⟩ := handle_region hcatch htop e₁.span
  have htick := he₁.tick
  rw [tick_of_visited hmachine hu] at htick
  simp only [Machine.routed, hhandle] at htick
  cases htick
  -- both say what lies on top of the stack right after the error
  have hvalue : e₁.value = .error id message := by
    have hentries := hrouted.entries.symm.trans hstands.entries
    exact Entry.value.inj (List.cons.inj hentries).1
  have hfinished : CompletesFinal p t e₁.value (below.map Mark.entry) e₁.routed w := by
    rw [hvalue, show e₁.routed = u from congrArg Prod.snd hhandle]
    refine ⟨⟨v, Script.above_of_keeps hc hcomes hij hu hv, hstandsFinal, Script.above_of_keeps hc hkept hjk hv hw⟩,
      hstandsLast.sectionIndex, hstandsLast.pc, ?_⟩
    rw [w.stack.depth_eq, hstandsLast.entries]
    rfl
  let e₂ : Failure := ⟨w, .thrown (.error id message), t.span, w.fetching.onStack (below.map Mark.entry)⟩
  have he₂ : e₂.Occurs := by
    obtain ⟨instruction, hinstruction, hop, hspan⟩ := hstandsLast.instruction hpass.last
    refine ⟨(Program.mem_course hw).2.2, instruction, hinstruction, hspan, ?_⟩
    rw [hstandsLast.fetching]
    exact dispatch_throw hop
  exact ⟨e₂, hs.through htop hpass hfinished he₂, hw, he₂, rfl, entries_onStack _ _⟩

/-- `try { try { ghost; } finally { } } finally { }` -/
def Script.hushing : Script :=
  { body := [.node (.point 1 1) (.try
      [.node (.point 2 3) (.try [.node (.point 3 5) (.expr (.node (.point 3 5) (.ident "ghost")))] none (some []))]
      none (some []))] }

/-- The two statements. -/
def TrySite.outer : TrySite := ⟨0, 0, .point 1 1, 0, 24, 29, 32⟩

def TrySite.inner : TrySite := ⟨0, 3, .point 2 3, 2, 9, 14, 17⟩

theorem Script.hushing_tries (hc : Script.hushing.compile = .ok p) :
    p.HasTry .outer none (some []) ∧ p.HasTry .inner none (some []) := by
  constructor <;> refine ⟨?_, ?_, ?_, fun _ => ?_, ?_, ?_, ?_⟩ <;> rw [Script.site_of_compile hc] <;> decide +kernel

theorem Script.hushing_spreads : ∃ p e e', Script.hushing.compile = .ok p ∧
    e.machine ∈ (Request.run 100).course (Machine.fresh p []) ∧ e.Occurs ∧ e.cause = .undefinedVariable "ghost" ∧
    e.span = .point 3 5 ∧ Script.hushing.Spreads p e [.outer, .inner] e' ∧ e'.Escapes ∧
    e'.machine ∈ (Request.run 100).course (Machine.fresh p []) := by
  obtain ⟨p, hc⟩ : ∃ p, Script.hushing.compile = .ok p := by
    have hok : Script.hushing.compile.toBool = true := by decide +kernel
    cases hc : Script.hushing.compile with
    | ok p => exact ⟨p, rfl⟩
    | error => rw [hc] at hok; cases hok
  obtain ⟨houter, hinner⟩ := Script.hushing_tries hc
  let around : Region := ⟨0, 24, some 29, ⟨0⟩⟩
  let within : Region := ⟨0, 9, some 14, ⟨1⟩⟩
  have hsight : Script.hushing.sight 4 = some (0, 4, [Mark.region within, Mark.region around].map some) := by
    decide +kernel
  obtain ⟨w, hw, hstands⟩ := Script.stands_of_sight hc hsight
  let e : Failure := ⟨w, .undefinedVariable "ghost", .point 3 5, w.fetching.onStack [.region within, .region around]⟩
  have he : e.Occurs := by
    have hsite : p.site? 0 4 = some (.fetch "ghost", .point 3 5) := by
      rw [Script.site_of_compile hc]
      decide +kernel
    have hmisses : Script.hushing.misses "ghost" 4 = true := by decide +kernel
    have hmissing := Script.lookup_of_misses hc hmisses hw
    obtain ⟨i, hi, hop, hspan⟩ := hstands.instruction hsite
    refine ⟨(Program.mem_course hw).2.2, i, hi, hspan, ?_⟩
    rw [hstands.fetching, dispatch_fetch hop, show w.fetching.lookup "ghost" = _ from hmissing]
    rfl
  have hinnermost : Script.hushing.LetsPass p .inner within :=
    ⟨_, none, some [], List.mem_of_getElem? (i := 1) rfl, hinner, rfl, .inl ⟨rfl, rfl⟩⟩
  have houtermost : Script.hushing.LetsPass p .outer around :=
    ⟨_, none, some [], List.mem_of_getElem? (i := 0) rfl, houter, rfl, .inl ⟨rfl, rfl⟩⟩
  let message := "undefined variable: ghost"
  obtain ⟨e₁, hs₁, hw₁, he₁, hcatch₁, hstack₁⟩ := Script.Spreads.start.through_run 4 8 11 (.made 0) message
    [.region around] hc (by decide) (by decide) hw he rfl (entries_onStack _ _) hinnermost (by decide +kernel)
    (by decide +kernel) (by decide +kernel) (by decide +kernel) (by decide +kernel)
  obtain ⟨e₂, hs₂, hw₂, he₂, hcatch₂, hstack₂⟩ := hs₁.through_run 11 15 18 (.made 0) message
    [] hc (by decide) (by decide) hw₁ he₁ hcatch₁ hstack₁ houtermost (by decide +kernel)
    (by decide +kernel) (by decide +kernel) (by decide +kernel) (by decide +kernel)
  refine ⟨p, e, e₂, hc, (Program.mem_course hw).1, he, rfl, rfl, hs₂, ?_, (Program.mem_course hw₂).1⟩
  intro above r below htop
  have hempty := hstack₂.symm.trans htop.split
  simp at hempty

end Run

/-! ### What the host is told -/

/-- **A statement that throws an error again disguises it**, for every compiled script, every way in which a host may
use its machine, and every error that an instruction of any request raises and a script may catch. Let the error spread
through any try statements that catch nothing, while their final parts complete. If a region stops it then, that region
belongs to a try statement of the script: either its catch clause gets the error, or the error is on its way to the
final part of the statement. If no region stops it, the host is told: of an error that has come through no statement
everything, and of any other that an exception with its message was not caught, at the place of the outermost
statement. -/
theorem Script.rethrow_disguises {script : Script} {p : Program} (hc : script.compile = .ok p) {config : Config}
    {n : Nat} {m : Machine} (hm : Lasts p config n m) {request : Request} {e : Failure}
    (hmem : e.machine ∈ request.course m) (he : e.Occurs) (hcatch : e.cause.isCatchable = true)
    (hown : ∀ x, e.cause ≠ .thrown x) {ts : List TrySite} {e' : Failure} (hs : script.Spreads p e ts e') :
    (∀ above r below, Topmost e'.left.stack.entries above (.region r) below →
      e'.machine.tick .run true = .next e'.routed ∧ ∃ t, script.Catches p t r ∨ script.LetsPass p t r ∧
        ((∃ w, Steps e'.routed w ∧ AtFinal p t e'.value below w) ∨
          ∃ w limit, Steps e'.routed w ∧ w.exceeded? = some limit)) ∧
    (e'.Escapes → ∀ m' (request' : Request), e'.machine ∈ request'.course m' → ∃ fault,
      request'.fault? m' = some fault ∧ e.Reported p ts fault ∧ (fault.cause = e.cause ↔ ts = [])) := by
  have hremains := hs.remains he (hm.rooted.course hmem) hcatch hown
  refine ⟨fun above r below htop => hremains.stopped hc htop, fun hescapes m' request' hmem' => ?_⟩
  obtain ⟨fault, u, htick, hreported⟩ := hremains.reported hown hescapes
  exact ⟨fault, fault_of_mem_course hmem' htick, hreported, hreported.cause_eq_iff hcatch⟩

/-- An undefined variable behind two final parts is told as an uncaught exception at the outer one. -/
theorem Script.rethrow_disguises_hushing : ∃ p e e' fault, Script.hushing.compile = .ok p ∧
    e.machine ∈ (Request.run 100).course (Machine.fresh p []) ∧ e.Occurs ∧ e.cause = .undefinedVariable "ghost" ∧
    e.span = .point 3 5 ∧ Script.hushing.Spreads p e [.outer, .inner] e' ∧ e'.Escapes ∧
    (Request.run 100).fault? (Machine.fresh p []) = some fault ∧ fault.At p 0 (.point 1 1) ∧
    fault.cause = .uncaught "undefined variable: ghost" := by
  obtain ⟨p, e, e', hc, hmem, he, hcause, hspan, hs, hescapes, hmem'⟩ := Script.hushing_spreads
  have hlasts : Lasts p {} 0 (Machine.fresh p []) := .load
  obtain ⟨-, htold⟩ := Script.rethrow_disguises hc hlasts hmem he (by rw [hcause]; rfl)
    (fun x h => by rw [hcause] at h; cases h) hs
  obtain ⟨fault, hfault, ⟨huncaught, hat⟩, -⟩ := htold hescapes _ _ hmem'
  rw [hcause] at huncaught
  exact ⟨p, e, e', fault, hc, hmem, he, hcause, hspan, hs, hescapes, hfault, hat, huncaught⟩

/-- An error that no catch clause gets may lose its kind and its place, although every final part that it came through
has completed. -/
theorem Script.final_hides_error : ¬ ∀ (script : Script) (p : Program), script.compile = .ok p →
    ∀ config n m, Lasts p config n m → ∀ (request : Request) (e : Failure), e.machine ∈ request.course m →
      e.Occurs → e.cause.isCatchable = true → (∀ x, e.cause ≠ .thrown x) →
      ∀ ts e', script.Spreads p e ts e' → e'.Escapes →
      ∀ m' (request' : Request) fault, e'.machine ∈ request'.course m' → request'.fault? m' = some fault →
        fault.cause = e.cause ∧ fault.At p e.machine.sectionIndex e.span := by
  intro h
  obtain ⟨p, e, e', hc, hmem, he, hcause, -, hs, hescapes, hmem'⟩ := Script.hushing_spreads
  have hlasts : Lasts p {} 0 (Machine.fresh p []) := .load
  have hcatch : e.cause.isCatchable = true := by rw [hcause]; rfl
  have hown : ∀ x, e.cause ≠ .thrown x := fun x hthrown => by rw [hcause] at hthrown; cases hthrown
  have hremains := hs.remains he (hlasts.rooted.course hmem) hcatch hown
  obtain ⟨fault, u, htick, hreported⟩ := hremains.reported hown hescapes
  obtain ⟨hkind, -⟩ := h _ p hc _ _ _ hlasts _ e hmem he hcatch hown _ e' hs hescapes _ _ fault hmem'
    (fault_of_mem_course hmem' htick)
  cases (hreported.cause_eq_iff hcatch).1 hkind

end ScriptMachine
