import ScriptMachine.Proofs.Compile.TryCode
import ScriptMachine.Proofs.Machine.Jumps
import ScriptMachine.Proofs.Value.Hidden

/-!
# Regions — where the try regions on a stack come from

Every region on the stack of a machine was opened by an instruction of its program, in the section that the region
belongs to, and leads to the label that this instruction names (`Program.Opens`). One instruction keeps this
(`heeds_dispatch`), unwinding keeps it, and so does every request of a host (`Lasts.rooted`). In a compiled script the
instruction belongs to a try statement, so the region leads to the handler of the statement or to its final part
(`Script.exists_try_of_region`).
-/

namespace ScriptMachine

/-- A region as an instruction of its section opens it. -/
def Program.Opens (p : Program) (r : Region) : Prop :=
  ∃ pc l f keep span, p.site? r.sectionIndex pc = some (.tryStart l f keep, span) ∧
    p.jumpTarget? l = some r.handlerPc

namespace Machine

/-- A machine of a program all of whose regions were opened by instructions. -/
structure Rooted (p : Program) (m : Machine) : Prop where
  program : m.program = p
  regions : ∀ r, Entry.region r ∈ m.stack.entries → p.Opens r

variable {p : Program} {x : Nat}

/-- Fewer regions. -/
theorem Rooted.of_subset {m u : Machine} (hm : Rooted p m) (hprogram : u.program = m.program)
    (hregions : ∀ r, Entry.region r ∈ u.stack.entries → Entry.region r ∈ m.stack.entries) : Rooted p u :=
  ⟨hprogram.trans hm.program, fun r hr => hm.regions r (hregions r hr)⟩

/-! ### One instruction -/

/-- Steps in a section that keep a machine rooted. They may go to another section at their end, but they fail in the one
they began in. -/
def Heeds {α : Type} (p : Program) (x : Nat) (away : Prop) (steps : Exec α) : Prop :=
  ∀ m, Rooted p m → m.sectionIndex = x → match steps m with
    | .ok _ u => Rooted p u ∧ (away ∨ u.sectionIndex = x)
    | .error _ u => Rooted p u ∧ u.sectionIndex = x

section Rules

variable {α β : Type} {away : Prop}

theorem Heeds.bind {a : Exec α} {f : α → Exec β} (ha : Heeds p x False a) (hf : ∀ b, Heeds p x away (f b)) :
    Heeds p x away (a >>= f) := by
  intro m hm hx
  have h := ha m hm hx
  rw [exec_bind]
  cases hr : a m with
  | error c u => rw [hr] at h; exact h
  | ok b u =>
    rw [hr] at h
    exact hf b u h.1 (h.2.resolve_left id)

/-- The result of steps does not matter. -/
theorem Heeds.returning {a : Exec α} (ha : Heeds p x away a) (b : β) :
    Heeds p x away (a >>= fun _ => (pure b : Exec β)) := by
  intro m hm hx
  have h := ha m hm hx
  rw [exec_bind]
  cases hr : a m <;> rw [hr] at h <;> exact h

theorem Heeds.map {a : Exec α} {f : α → β} (ha : Heeds p x away a) : Heeds p x away (f <$> a) := by
  intro m hm hx
  have h := ha m hm hx
  show match EStateM.map f a m with
    | .ok _ u => _
    | .error c u => _
  unfold EStateM.map
  cases hr : a m <;> rw [hr] at h <;> exact h

theorem Heeds.weaken {a : Exec α} (ha : Heeds p x False a) : Heeds p x away a := by
  intro m hm hx
  have h := ha m hm hx
  cases hr : a m with
  | ok b u => rw [hr] at h; exact ⟨h.1, .inr (h.2.resolve_left id)⟩
  | error c u => rw [hr] at h; exact h

theorem heeds_pure (a : α) : Heeds p x False (pure a : Exec α) := fun _ hm hx => ⟨hm, .inr hx⟩

theorem heeds_reads (f : Machine → α) : Heeds p x False (reads f) := fun _ hm hx => ⟨hm, .inr hx⟩

theorem heeds_throw (c : Cause) : Heeds p x False (throw c : Exec α) := fun _ hm hx => ⟨hm, hx⟩

theorem heeds_change {f : Machine → Machine} (hf : ∀ m, Rooted p m → m.sectionIndex = x → Rooted p (f m))
    (hx : ∀ m, (f m).sectionIndex = m.sectionIndex) : Heeds p x False (change f) :=
  fun m hm hmx => ⟨hf m hm hmx, .inr ((hx m).trans hmx)⟩

theorem heeds_allocate (f : Heap → α × Heap) : Heeds p x False (allocate f) := fun _ hm hx =>
  ⟨⟨hm.program, hm.regions⟩, .inr hx⟩

theorem heeds_mapHeap (f : Machine → Heap → Heap) : Heeds p x False (change fun m => m.mapHeap (f m)) :=
  heeds_change (fun _ hm _ => ⟨hm.program, hm.regions⟩) fun _ => rfl

theorem heeds_setEnv (env : ScopeId) : Heeds p x False (change fun m => { m with env }) :=
  heeds_change (fun _ hm _ => ⟨hm.program, hm.regions⟩) fun _ => rfl

theorem heeds_note (line : Machine → String) :
    Heeds p x False (change fun m => { m with log := m.log.push (line m) }) :=
  heeds_change (fun _ hm _ => ⟨hm.program, hm.regions⟩) fun _ => rfl

theorem heeds_pushLoop : Heeds p x False (change fun m => { m with stack := m.stack.push (.loop m.env) }) :=
  heeds_change (fun _ hm _ => hm.of_subset rfl fun _ hr => (List.mem_cons.1 hr).resolve_left nofun) fun _ => rfl

theorem heeds_readsOrFails (f : Machine → Except Cause α) : Heeds p x False (readsOrFails f) := by
  intro m hm hx
  unfold readsOrFails
  cases f m with
  | ok a => exact ⟨hm, .inr hx⟩
  | error c => exact ⟨hm, hx⟩

theorem heeds_changeOrFail {f : Machine → Except Cause α × Machine}
    (h : ∀ m, (f m).2 = { m with heap := (f m).2.heap, log := (f m).2.log }) : Heeds p x False (changeOrFail f) := by
  intro m hm hx
  have hkept : Rooted p (f m).2 ∧ (f m).2.sectionIndex = x := by
    rw [h m]
    exact ⟨⟨hm.program, hm.regions⟩, hx⟩
  unfold changeOrFail
  cases hr : f m with
  | mk r u =>
    rw [hr] at hkept
    cases r with
    | ok a => exact ⟨hkept.1, .inr hkept.2⟩
    | error c => exact hkept

theorem heeds_setProperty (target key v : Value) : Heeds p x False (changeOrFail (·.setProperty target key v)) :=
  heeds_changeOrFail fun m => by rw [setProperty_heap]

theorem heeds_push (v : Value) : Heeds p x False (push v) :=
  heeds_change (fun _ hm _ => hm.of_subset rfl fun _ hr => (List.mem_cons.1 hr).resolve_left nofun) fun _ => rfl

theorem heeds_popEntry : Heeds p x False popEntry := fun _ hm hx =>
  ⟨hm.of_subset rfl fun _ hr => List.mem_of_mem_tail hr, .inr hx⟩

theorem heeds_pop : Heeds p x False pop := by
  refine heeds_popEntry.bind fun e => ?_
  split
  · exact heeds_pure _
  · exact heeds_throw _

theorem heeds_peek : Heeds p x False peek := by
  refine (heeds_reads _).bind fun e => ?_
  split
  · exact heeds_pure _
  · exact heeds_throw _

theorem heeds_popOnto (values : List Value) (n : Nat) : Heeds p x False (popOnto values n) := by
  induction n generalizing values with
  | zero => exact heeds_pure values
  | succ n ih => exact heeds_pop.bind fun v => ih (v :: values)

theorem heeds_propertyKey (name : String) : Heeds p x False (propertyKey name) := by
  unfold propertyKey
  split
  · exact heeds_pop
  · exact heeds_pure _

theorem heeds_jump (l : Nat) : Heeds p x False (jump l) :=
  (heeds_readsOrFails _).bind fun _ => heeds_change (fun _ hm _ => ⟨hm.program, hm.regions⟩) fun _ => rfl

/-! ### Calls and returns -/

theorem heeds_enter (f : ScriptFunction) (receiver : Option Value) (args : List Value) :
    Heeds p x True (change (enterFunction f receiver args false)) := fun _ hm _ =>
  ⟨hm.of_subset rfl fun _ hr => (List.mem_cons.1 hr).resolve_left nofun, .inl trivial⟩

theorem heeds_callNative (handle : NativeHandle) (receiver : Option Value) (args : List Value) :
    Heeds p x False (changeOrFail (callNative handle receiver args)) := heeds_changeOrFail fun _ => rfl

theorem heeds_callValue (callee : Value) (receiver : Option Value) (args : List Value) :
    Heeds p x True (callValue callee receiver args) := by
  unfold callValue
  split
  · exact heeds_enter _ _ _
  · split
    · exact ((heeds_callNative _ _ _).bind fun v => heeds_push v).weaken
    · exact (heeds_throw _).weaken
  · exact (heeds_throw _).weaken

theorem heeds_instantiate (className : String) (args : List Value) : Heeds p x True (instantiate className args) := by
  refine (heeds_reads _).bind fun methods => ?_
  cases methods with
  | some methods =>
    refine (heeds_reads _).bind fun globals => (heeds_allocate _).bind fun object => ?_
    split
    · exact heeds_enter _ _ _
    · exact (heeds_push _).weaken
  | none =>
    refine (heeds_reads _).bind fun handle => ?_
    split
    · split
      · exact ((heeds_callNative _ _ _).bind fun v => heeds_push v).weaken
      · exact (heeds_throw _).weaken
    · exact (heeds_throw _).weaken

theorem heeds_returnToFrame : Heeds p x True returnToFrame := by
  refine heeds_pop.bind fun v => heeds_popEntry.bind fun e => ?_
  split
  · intro m hm _
    exact ⟨hm.of_subset rfl fun _ hr => (List.mem_cons.1 hr).resolve_left nofun, .inl trivial⟩
  · exact (heeds_throw _).weaken

/-! ### Loops and regions -/

theorem unwindLoop_suffix {s t : List Entry} {env : ScopeId} (h : unwindLoop s = .ok (env, t)) : t <:+ s := by
  induction s with
  | nil => cases h
  | cons e s ih =>
    cases e with
    | value => exact (ih h).trans (List.suffix_cons _ _)
    | loop =>
      cases h
      exact List.suffix_refl _
    | frame | region => cases h

theorem unwindLoop_error_suffix {s t : List Entry} {found : Option Entry} (h : unwindLoop s = .error (found, t)) :
    t <:+ s := by
  induction s with
  | nil =>
    cases h
    exact List.suffix_refl _
  | cons e s ih =>
    cases e with
    | value => exact (ih h).trans (List.suffix_cons _ _)
    | loop => cases h
    | frame | region =>
      cases h
      exact List.suffix_cons _ _

theorem heeds_exitLoop (l : Nat) : Heeds p x False (exitLoop l) := by
  intro m hm hx
  cases hu : unwindLoop m.stack.entries with
  | ok found =>
    rw [exitLoop_ok hu]
    exact heeds_jump l { m with env := found.1, stack := .ofList found.2 }
      (hm.of_subset rfl fun _ hr => (unwindLoop_suffix hu).subset hr) hx
  | error found =>
    rw [exitLoop_error hu]
    exact ⟨hm.of_subset rfl fun _ hr => (unwindLoop_error_suffix hu).subset hr, hx⟩

/-- A region is opened by the instruction that names its label. -/
theorem heeds_openRegion {pc l : Nat} {f : Option Nat} {keep : Bool} {span : Span}
    (hsite : p.site? x pc = some (.tryStart l f keep, span)) : Heeds p x False (openRegion l f keep) := by
  have hmark : ∀ handlerPc finalPc held, p.jumpTarget? l = some handlerPc →
      Heeds p x False (markRegion handlerPc finalPc held) := by
    intro handlerPc finalPc held hl
    have hpush : Heeds p x False (change fun m =>
        { m with stack := m.stack.push (.region ⟨m.sectionIndex, handlerPc, finalPc, m.env⟩) }) := by
      refine heeds_change (fun m hm hx => ⟨hm.program, fun r hr => ?_⟩) fun _ => rfl
      rcases List.mem_cons.1 hr with he | hr
      · cases he
        exact ⟨pc, l, f, keep, span, hx ▸ hsite, hl⟩
      · exact hm.regions r hr
    refine hpush.bind fun _ => ?_
    cases held with
    | some v => exact heeds_push v
    | none => exact heeds_pure ()
  have hopen : ∀ held, Heeds p x False (openHeld l f held) := by
    intro held m hm hx
    unfold openHeld
    rw [exec_bind]
    cases hl : p.jumpTarget? l with
    | none =>
      rw [show resolve l m = .error (.invariant (.unknownLabel l)) m by simp only [resolve, readsOrFails, hm.program, hl]]
      exact ⟨hm, hx⟩
    | some handlerPc =>
      rw [resolve_known hl m hm.program]
      cases f with
      | some l' => exact (heeds_readsOrFails _).map.bind (fun finalPc => hmark handlerPc finalPc held hl) m hm hx
      | none => exact (heeds_pure none).bind (fun finalPc => hmark handlerPc finalPc held hl) m hm hx
  cases keep with
  | true =>
    rw [openRegion_true]
    exact heeds_pop.map.bind fun held => hopen held
  | false =>
    rw [openRegion_false]
    exact hopen none

/-- **Every instruction keeps a machine rooted**, and one that fails does so in its section. -/
theorem heeds_dispatch {pc : Nat} {i : Instruction} (hi : p.instruction? x pc = some i) :
    Heeds p x True (dispatch i) := by
  unfold dispatch
  cases h : i.op with
  | nop | label => exact (heeds_pure _).weaken
  | const | fetch => exact ((heeds_readsOrFails _).bind fun _ => (heeds_push _).returning _).weaken
  | dup => exact (heeds_peek.bind fun _ => (heeds_push _).returning _).weaken
  | pop => exact (heeds_pop.returning _).weaken
  | fetchProperty =>
    exact ((heeds_propertyKey _).bind fun _ => heeds_pop.bind fun _ => (heeds_readsOrFails _).bind fun _ =>
      (heeds_push _).returning _).weaken
  | store =>
    exact (heeds_pop.bind fun _ => (heeds_readsOrFails _).bind fun _ => (heeds_mapHeap _).returning _).weaken
  | storeProperty =>
    exact ((heeds_propertyKey _).bind fun _ => heeds_pop.bind fun _ => heeds_pop.bind fun _ =>
      (heeds_setProperty _ _ _).returning _).weaken
  | declare => exact ((heeds_reads _).bind fun _ => (heeds_mapHeap _).returning _).weaken
  | binary =>
    exact (heeds_pop.bind fun _ => heeds_pop.bind fun _ => (heeds_readsOrFails _).bind fun _ =>
      (heeds_push _).returning _).weaken
  | jump l => exact ((heeds_jump l).returning _).weaken
  | jumpTrue l | jumpFalse l =>
    refine (heeds_pop.bind fun v => ?_).weaken
    split
    · exact (heeds_jump l).returning _
    · exact heeds_pure _
  | call argc isMethod =>
    refine heeds_pop.bind fun callee => ?_
    cases isMethod with
    | true =>
      exact heeds_pop.map.bind fun _ => (heeds_popOnto _ _).bind fun _ => (heeds_callValue _ _ _).returning _
    | false =>
      exact (heeds_pure _).bind fun _ => (heeds_popOnto _ _).bind fun _ => (heeds_callValue _ _ _).returning _
  | ret => exact heeds_returnToFrame
  | enterScope =>
    exact ((heeds_reads _).bind fun _ => (heeds_allocate _).bind fun _ =>
      (heeds_setEnv _).returning _).weaken
  | leaveScope =>
    refine ((heeds_reads _).bind fun outer => ?_).weaken
    cases outer with
    | some outer => exact (heeds_setEnv outer).returning _
    | none => exact heeds_throw _
  | loopStart => exact (heeds_pushLoop.returning _).weaken
  | loopEnd | tryEnd =>
    refine (heeds_popEntry.bind fun e => ?_).weaken
    split
    · exact heeds_pure _
    · exact heeds_throw _
  | loopExit l => exact ((heeds_exitLoop l).returning _).weaken
  | tryStart l f keep =>
    have hsite : p.site? x pc = some (.tryStart l f keep, i.span) := by
      rw [Program.site?, hi, ← h]
      rfl
    exact ((heeds_openRegion hsite).returning _).weaken
  | throw => exact (heeds_pop.bind fun _ => heeds_throw _).weaken
  | createObject => exact (heeds_popOnto _ _).bind fun _ => (heeds_instantiate _ _).returning _
  | createArray =>
    exact ((heeds_popOnto _ _).bind fun _ => (heeds_allocate _).bind fun _ => (heeds_push _).returning _).weaken
  | createRecord =>
    exact (((heeds_popOnto _ _).bind fun _ => (heeds_reads _).bind fun _ => (heeds_allocate _).bind fun _ =>
      heeds_push _).returning _).weaken
  | debugger =>
    refine ((heeds_reads _).bind fun n => ?_).weaken
    split
    · exact heeds_pure _
    · exact (heeds_note _).returning _
  | eof => exact (heeds_pure _).weaken

end Rules

/-! ### Unwinding and runs -/

variable {mode : Mode} {first b : Bool} {fuel : Nat} {m m' u v w : Machine} {i : Instruction}

/-- What unwinding finds was opened by an instruction. -/
def Landing.Rooted (p : Program) : Landing → Prop
  | .region r below => p.Opens r ∧ ∀ r, Entry.region r ∈ below → p.Opens r
  | .host _ below => ∀ r, Entry.region r ∈ below → p.Opens r
  | .bottom _ => True

theorem unwind_rooted {last : Option Frame} {s : List Entry} (hs : ∀ r, Entry.region r ∈ s → p.Opens r) :
    (unwind last s).1.Rooted p := by
  induction s generalizing last with
  | nil => trivial
  | cons e s ih =>
    obtain hrest : ∀ r, Entry.region r ∈ s → p.Opens r := fun r hr => hs r (List.mem_cons_of_mem _ hr)
    cases e with
    | value | loop => exact ih hrest
    | region r => exact ⟨hs r List.mem_cons_self, hrest⟩
    | frame f =>
      unfold unwind
      split
      · exact hrest
      · exact ih hrest

/-- Routing an error keeps a machine rooted. -/
theorem Rooted.handle (hm : Rooted p m) (c : Cause) (span : Span) : Rooted p (m.handle c span).2 := by
  by_cases hc : c.isCatchable = true
  · rw [handle_catchable hc]
    have hlanding : (unwind none m.stack.entries).1.Rooted p := unwind_rooted hm.regions
    cases hl : (unwind none m.stack.entries).1 with
    | region r below =>
      rw [hl] at hlanding
      exact ⟨hm.program, fun r' hr' => hlanding.2 r' ((List.mem_cons.1 hr').resolve_left nofun)⟩
    | host f below =>
      rw [hl] at hlanding
      exact ⟨hm.program, hlanding⟩
    | bottom last => cases last <;> exact ⟨hm.program, nofun⟩
  · unfold Machine.handle
    rw [if_pos (by simpa using hc)]
    exact ⟨hm.program, hm.regions⟩

theorem Rooted.fetching (hm : Rooted p m) : Rooted p m.fetching := ⟨hm.program, hm.regions⟩

/-- **One instruction keeps a machine rooted**, whatever becomes of its errors. -/
theorem tick_rooted (hv : Rooted p v) (mode : Mode) (first : Bool) : Rooted p (v.tick mode first).machine := by
  rcases tick_cases mode first v with ⟨-, -, ht, -⟩ | ⟨ht, -⟩
  · rw [ht]
    exact hv
  rw [ht]
  by_cases hfetch : v.fetches .run true = true
  · obtain ⟨i, hi, ht⟩ := instruction_of_fetches hfetch
    have hdispatch := heeds_dispatch (hv.program ▸ hi) v.fetching hv.fetching rfl
    rw [ht]
    cases hd : dispatch i v.fetching with
    | ok r m =>
      rw [hd] at hdispatch
      cases r <;> exact hdispatch.1
    | error c m =>
      rw [hd] at hdispatch
      have hhandle := hdispatch.1.handle c i.span
      simp only [routed]
      split <;> rename_i hr <;> rw [hr] at hhandle <;> exact hhandle
  · obtain ⟨fault, hfault, -⟩ := tick_of_not_fetches (Bool.eq_false_iff.2 hfetch)
    rw [hfault]
    exact ⟨hv.program, hv.regions⟩

theorem passes_rooted (hv : Rooted p v) (h : Passes mode first v b w) : Rooted p w := by
  refine h.invariant hv fun b v₁ v₂ hv₁ ht => ?_
  have hnext := tick_rooted hv₁ mode b
  rw [ht] at hnext
  exact hnext

theorem drive_rooted {r : Except Fault Stop} (hv : Rooted p v) (h : drive mode fuel first v = some (r, u)) :
    Rooted p u := by
  obtain ⟨b, w, hpasses, he⟩ := drive_ends h
  have hlast := tick_rooted (passes_rooted hv hpasses) mode b
  obtain ⟨reason, rfl, ht⟩ | ⟨fault, rfl, ht⟩ := he <;> rw [ht] at hlast <;> exact hlast

/-! ### Requests -/

theorem Rooted.awake (hm : Rooted p m) : Rooted p m.awake := ⟨hm.program, hm.regions⟩

theorem Rooted.entered (hm : Rooted p m) (g : ScriptFunction) (args : List Value) : Rooted p (m.entered g args) :=
  hm.of_subset rfl fun _ hr => (List.mem_cons.1 hr).resolve_left nofun

theorem Rooted.starts {request : Request} (hm : Rooted p m) (hs : request.Starts m mode v) : Rooted p v := by
  cases hs with
  | run | step => exact hm.awake
  | call => exact hm.entered _ _

theorem Rooted.execute {r : Except Fault RunState} (hm : Rooted p m) (h : m.execute mode fuel = some (r, m')) :
    Rooted p m' := by
  by_cases hlive : m.Live
  · rw [execute_eq hlive] at h
    obtain ⟨⟨result, u⟩, hd, ha⟩ := Option.map_eq_some_iff.1 h
    have hu := drive_rooted hm.awake hd
    cases result with
    | ok reason => cases reason <;> cases ha <;> exact ⟨hu.program, hu.regions⟩
    | error fault =>
      cases ha
      exact hu
  · rw [not_live_execute hlive h]
    exact hm

theorem Rooted.finishCall {saved : RunState} {r : Except Fault Stop} {result : Except Fault Value} (hu : Rooted p u)
    (h : finishCall saved (r, { u with hostCalls := u.hostCalls - 1 }) = (result, m')) : Rooted p m' := by
  unfold Machine.finishCall at h
  split at h <;> rename_i he <;> cases he
  · split at h <;> cases h <;> exact hu.of_subset rfl fun _ hr => List.mem_of_mem_tail hr
  · cases h
    exact ⟨hu.program, hu.regions⟩
  · cases h
    split <;> exact ⟨hu.program, hu.regions⟩

theorem Rooted.serve {request : Request} {cause : Option Cause} (hm : Rooted p m)
    (h : m.serve request = some (cause, m')) : Rooted p m' := by
  cases request with
  | run fuel | step fuel =>
    obtain ⟨⟨r, u⟩, hx, he⟩ := Option.map_eq_some_iff.1 h
    cases he
    exact hm.execute hx
  | call fuel name args =>
    obtain ⟨⟨r, u⟩, hx, he⟩ := Option.map_eq_some_iff.1 h
    cases he
    cases calls_of_call hx with
    | refused => exact hm
    | native => exact ⟨hm.program, hm.regions⟩
    | function _ _ hd hf => exact (drive_rooted (hm.entered _ _) hd).finishCall hf
  | reset =>
    cases h
    exact ⟨hm.program, nofun⟩
  | define | add | prepare | takeLog =>
    cases h
    exact ⟨hm.program, hm.regions⟩
  | register name handle =>
    simp only [Machine.serve, Machine.register] at h
    cases hr : m.registry.register name handle with
    | ok registry =>
      rw [hr] at h
      cases h
      exact ⟨hm.program, hm.regions⟩
    | error c =>
      rw [hr] at h
      cases h
      exact hm

/-- Whatever a host does, every region on the stack was opened by an instruction. -/
theorem Lasts.rooted {config : Config} {n : Nat} (h : Lasts p config n m) : Rooted p m := by
  induction h with
  | load => exact ⟨rfl, nofun⟩
  | serve _ hserve ih => exact ih.serve hserve

end Machine

open Machine

/-- **A region of a compiled script belongs to a try statement**: it leads to the handler of the statement, or to its
final part for an exception. -/
theorem Script.exists_try_of_region {script : Script} {p : Program} (hc : script.compile = .ok p) {r : Region}
    (hr : p.Opens r) : ∃ t body clause final, .stmt (.try body clause final) ∈ script.nodes ∧ p.HasTry t clause final ∧
      t.sectionIndex = r.sectionIndex ∧ (r.handlerPc = t.handler ∨ r.handlerPc = t.rethrow) := by
  obtain ⟨pc, l, f, keep, span, hsite, hl⟩ := hr
  obtain ⟨t, body, clause, final, hnode, ht, hx, hlabel⟩ := Script.exists_try hc hsite
  refine ⟨t, body, clause, final, hnode, ht, hx, ?_⟩
  obtain rfl | rfl := hlabel
  · rw [ht.handler_target hc] at hl
    exact .inl (Option.some.inj hl).symm
  · rw [ht.rethrow_target hc] at hl
    exact .inr (Option.some.inj hl).symm

end ScriptMachine
