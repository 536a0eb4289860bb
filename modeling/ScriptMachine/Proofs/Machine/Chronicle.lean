import ScriptMachine.Proofs.Machine.Discipline
import ScriptMachine.Proofs.Machine.Scoping

/-!
# Chronicle — scopes of different activations never mix

A `Chronicle` is a machine in the hands of a host that spares hidden scopes, with its history since the start. At every
instruction of compiled code the chain of the machine is `Confined`: as many block scopes of the activation at work as
the place of the machine says, the scope of its call, and then the fields of the receiver or the globals. So the scopes
of callers, and of calls that are over, are neither seen nor assigned to.
-/

namespace ScriptMachine

open Compile

namespace Machine

variable {E : Setting} {H : History} {mode : Mode} {fuel : Nat} {first : Bool} {m m' v w u : Machine}

/-! ### Runs -/

/-- A history takes in the frames, the scope and the heap of a machine. -/
theorem follow_congr (hframes : w.frames = u.frames) (henv : w.env = u.env) (hheap : w.heap = u.heap) :
    H.follow v w = H.follow v u := by
  unfold History.follow activation
  rw [hframes, henv, hheap]

theorem along_congr {vs : List Machine} (hframes : w.frames = u.frames) (henv : w.env = u.env)
    (hheap : w.heap = u.heap) : H.along vs w = H.along vs u := by
  induction vs generalizing H with
  | nil => rfl
  | cons v vs ih =>
    cases vs with
    | nil => exact follow_congr hframes henv hheap
    | cons v' vs => exact ih

theorem along_state (H : History) (vs : List Machine) (u : Machine) (state : RunState) :
    H.along vs { u with state } = H.along vs u := along_congr rfl rfl rfl

theorem head_visited {vs : List Machine} (h : visited mode fuel first v = w :: vs) : w = v := by
  cases fuel with
  | zero => cases h
  | succ fuel =>
    unfold visited at h
    split at h <;> cases h
    rfl

/-- Every machine whose instruction a run executes is placed. -/
theorem visited_placed {before after : List Machine} (hv : Placed E H v)
    (h : visited mode fuel first v = before ++ w :: after) :
    Placed E (H.along before w) w ∧ ∃ b, w.fetches mode b = true := by
  induction fuel generalizing first v H before with
  | zero => cases before <;> cases h
  | succ fuel ih =>
    have hplaces := (tick_places hv mode first).1
    unfold visited at h
    split at h
    · rename_i hfetch
      cases before with
      | nil =>
        obtain ⟨rfl, -⟩ := List.cons.inj h
        exact ⟨hv, first, hfetch⟩
      | cons b before =>
        obtain ⟨rfl, hrest⟩ := List.cons.inj h
        cases ht : v.tick mode first with
        | next u =>
          rw [ht] at hrest hplaces
          have hhead : before.headD w = u := by
            cases before <;> exact head_visited hrest
          rw [History.along, hhead]
          exact ih hplaces.2 hrest
        | stop | fault =>
          rw [ht] at hrest
          exact absurd hrest.symm (List.append_ne_nil_of_right_ne_nil _ (List.cons_ne_nil _ _))
    · exact absurd h.symm (List.append_ne_nil_of_right_ne_nil _ (List.cons_ne_nil _ _))

/-- The first machine of the rest of a run is the one that the run goes on with. -/
theorem follow_head {r : Except Fault Stop} (h : drive mode fuel first w = some (r, u)) :
    H.follow v ((visited mode fuel first w).headD u) = H.follow v w := by
  cases fuel with
  | zero => cases h
  | succ fuel =>
    unfold visited
    split
    · rfl
    · rename_i hfetch
      unfold drive at h
      rcases tick_cases mode first w with ⟨-, -, ht, -⟩ | ⟨ht, hsame⟩
      · rw [ht] at h
        cases h
        rfl
      · obtain ⟨fault, hfault, -⟩ := tick_of_not_fetches (hsame ▸ Bool.eq_false_iff.2 hfetch)
        rw [ht, hfault] at h
        cases h
        rfl

/-- A run takes the history along to its end. -/
theorem drive_concludes {r : Except Fault Stop} (hv : Placed E H v) (h : drive mode fuel first v = some (r, u)) :
    Concludes E (H.along (visited mode fuel first v) u) r u ∧ Heap.Spares (fun _ => True) v.heap u.heap := by
  induction fuel generalizing first v H with
  | zero => cases h
  | succ fuel ih =>
    obtain ⟨hplaces, hspares⟩ := tick_places hv mode first
    unfold visited
    unfold drive at h
    cases ht : v.tick mode first with
    | next w =>
      rw [ht] at h hplaces hspares
      obtain ⟨hconcludes, hrest⟩ := ih hplaces.2 h
      rw [if_pos hplaces.1]
      simp only
      rw [History.along, follow_head h]
      exact ⟨hconcludes, hspares.trans hrest fun _ _ hmay => hmay⟩
    | stop | fault =>
      rw [ht] at h hplaces hspares
      cases h
      refine ⟨?_, hspares⟩
      split <;> rename_i hfetch
      · rw [hfetch] at hplaces
        exact hplaces
      · rw [Bool.eq_false_iff.2 hfetch] at hplaces
        exact hplaces

end Machine

/-! ### Requests -/

open Machine

/-- A request that leaves hidden scopes alone. -/
def Request.Spares (m : Machine) : Request → Prop
  | .add native => native.Spares
  | .prepare heap => Heap.Spares Heap.nowhere m.heap heap
  | _ => True

/-- The history when a request begins to execute instructions: a call of a function has begun. -/
def Request.opening (m : Machine) (H : History) : Request → History
  | .call _ name args =>
    if m.state = .error then H
    else
      match m.lookup name with
      | .ok (.function _ g) => H.enter ((m.entered g args).activation none)
      | _ => H
  | _ => H

/-- The history after a request that leads to a machine. -/
def Request.history (m : Machine) (H : History) (m' : Machine) : Request → History
  | .reset => { past := H.all }
  | request => (request.opening m H).along (request.course m) m'

/-- The machines that a host can bring about that spares hidden scopes, with their histories. -/
inductive Machine.Chronicle (p : Program) : Machine → History → Prop where
  | load {config heap hosts} : (Machine.load p config heap hosts).heap.Founded → hosts.Spare →
      Chronicle p (Machine.load p config heap hosts) {}
  | serve {m H request cause m'} : Chronicle p m H → request.Spares m → m.serve request = some (cause, m') →
      Chronicle p m' (request.history m H m')

namespace Machine

/-- A program with a layout, as a machine runs it. -/
def setting {p : Program} {T : Nat → Nat → Shape} (hT : Laid p T) (m : Machine) (hosted : List Activation) : Setting :=
  ⟨p, T, hT, m.globals, hosted⟩

/-- A machine between requests, with its history. -/
structure Resting {p : Program} {T : Nat → Nat → Shape} (hT : Laid p T) (H : History) (m : Machine) : Prop where
  program : m.program = p
  hosts : m.hosts.Spare
  census : Census m.heap m.globals H.all
  frames : m.state ≠ .error → H.callers.length = m.frames
  stands : m.Live → (setting hT m []).At m H.current H.callers

variable {p : Program} {T : Nat → Nat → Shape} {hT : Laid p T} {H : History} {mode : Mode} {fuel : Nat}
  {m m' u v : Machine}

theorem Resting.awake (hm : Resting hT H m) (hlive : m.Live) : Placed (setting hT m []) H m.awake :=
  ⟨hm.program, rfl, hm.hosts, hm.census, hm.frames hlive.1, hm.stands hlive⟩

theorem Resting.opens_entered (hm : Resting hT H m) (g : ScriptFunction) (args : List Value) :
    Heap.Opens m.heap (m.entered g args).heap (m.entered g args).env m.globals :=
  opens_enterFunction (m := { m with state := .running, hostCalls := m.hostCalls + 1 }) hm.census.founded
    hm.census.exist g none args true

/-- A function that the host calls stands on the frame of that call. -/
theorem Resting.entered (hm : Resting hT H m) (hstate : m.state ≠ .error) (g : ScriptFunction) (args : List Value) :
    Placed (setting hT m H.active) (H.enter ((m.entered g args).activation none)) (m.entered g args) := by
  have hopens := hm.opens_entered g args
  refine ⟨hm.program, rfl, hm.hosts, hm.census.entered hopens nofun, congrArg (· + 1) (hm.frames hstate), ?_⟩
  have hlayout : T (m.entered g args).sectionIndex (m.entered g args).pc = .empty := hT.start _
  show Setting.Stands _ _ _ (T _ _) _ _ _ _
  rw [hlayout]
  exact ⟨[], _, rfl, .nil, Activation.holds_entered hopens, .host rfl (List.cons_ne_nil _ _) rfl⟩

/-- Whatever the host does beside a machine leaves its activations alone. -/
theorem Resting.aside (hm : Resting hT H m) {heap : Heap} {hosts : Hosts} (registry : Registry) (log : Array String)
    (hspares : Heap.Spares Heap.nowhere m.heap heap) (hhosts : hosts.Spare) :
    Resting hT H { m with heap, hosts, registry, log } :=
  ⟨hm.program, hhosts, hm.census.spares hspares, hm.frames, fun hlive => (hm.stands hlive).spares hspares⟩

theorem Resting.execute {r : Except Fault RunState} (hm : Resting hT H m) (h : m.execute mode fuel = some (r, m')) :
    Resting hT (H.along (if m.Live then visited mode fuel true m.awake else []) m') m' := by
  by_cases hlive : m.Live
  · rw [execute_eq hlive] at h
    rw [if_pos hlive]
    obtain ⟨⟨result, u⟩, hd, ha⟩ := Option.map_eq_some_iff.1 h
    obtain ⟨hend, -⟩ := drive_concludes (hm.awake hlive) hd
    have hglobals : u.globals = m.globals := hend.globals
    have hcensus : Census u.heap u.globals (H.along (visited mode fuel true m.awake) u).all := by
      rw [hglobals]
      exact hend.census
    cases result with
    | ok reason =>
      cases reason with
      | eof =>
        cases ha
        rw [along_state]
        exact ⟨hend.program, hend.hosts, hcensus, fun _ => hend.result, fun hdone => absurd rfl hdone.2⟩
      | breakpoint | boundary =>
        cases ha
        rw [along_state]
        refine ⟨hend.program, hend.hosts, hcensus, fun _ => hend.result.frames, fun _ => ?_⟩
        have hat := hend.result.stands
        rw [← show setting hT u [] = setting hT m [] by rw [setting, setting, hglobals]] at hat
        exact hat
      | hostReturn => exact absurd rfl hend.result.1.1
    | error fault =>
      cases ha
      have herror : m'.state = .error := by
        by_contra hne
        exact (hend.result hne).1 rfl
      exact ⟨hend.program, hend.hosts, hcensus, fun hne => absurd herror hne, fun hl => absurd herror hl.1⟩
  · rw [if_neg hlive, not_live_execute hlive h]
    exact hm

/-- The end of a call keeps the frames of what it finds. -/
theorem finishCall_frames {saved : RunState} {r : Except Fault Stop} {result : Except Fault Value}
    (hvalue : r = .ok .hostReturn → ∃ v t, u.stack.entries = .value v :: t)
    (h : finishCall saved (r, { u with hostCalls := u.hostCalls - 1 }) = (result, m')) :
    m'.frames = u.frames ∧ m'.env = u.env ∧ m'.globals = u.globals := by
  unfold finishCall at h
  split at h <;> rename_i he <;> cases he
  · obtain ⟨v, t, ht⟩ := hvalue rfl
    have hframes : frameCount u.stack.drop.entries = frameCount u.stack.entries := by
      rw [Stack.entries_drop, ht]
      rfl
    split at h <;> cases h <;> exact ⟨hframes, rfl, rfl⟩
  · cases h
    exact ⟨rfl, rfl, rfl⟩
  · cases h
    split <;> exact ⟨rfl, rfl, rfl⟩

/-- A call of a function leaves the activations that were under way as they were. -/
theorem Resting.callFunction {g : ScriptFunction} {args : List Value} {r : Except Fault Stop}
    {result : Except Fault Value} (hm : Resting hT H m) (hstate : m.state ≠ .error)
    (hd : drive .run fuel true (m.entered g args) = some (r, u))
    (h : finishCall m.state (r, { u with hostCalls := u.hostCalls - 1 }) = (result, m')) :
    Resting hT ((H.enter ((m.entered g args).activation none)).along (visited .run fuel true (m.entered g args)) m')
      m' := by
  have hplaced := hm.entered hstate g args
  obtain ⟨hend, hspares⟩ := drive_concludes hplaced hd
  obtain ⟨hprogram, hhosts, -, hheap⟩ := finishCall_keeps m.state r { u with hostCalls := u.hostCalls - 1 }
  obtain ⟨hframes, henv, hglobals⟩ := finishCall_frames (fun hr => by subst hr; exact hend.result.2) h
  rw [h] at hprogram hhosts hheap
  have hheap : m'.heap = u.heap := hheap
  have hback := (finishCall_effects hd h).2
  rw [along_congr hframes henv hheap]
  generalize (H.enter ((m.entered g args).activation none)).along _ u = H' at hend
  have hgood : m'.state ≠ .error → H'.active = H.active := by
    intro hne
    cases r with
    | error fault =>
      refine (hend.result fun herror => hne ?_).2
      cases h
      exact (congrArg Machine.state (if_pos herror)).trans herror
    | ok reason =>
      cases reason with
      | hostReturn => exact hend.result.1.2
      | eof | breakpoint | boundary =>
        cases h
        exact absurd rfl hne
  have htotal : Heap.Spares (fun _ => True) m.heap m'.heap := by
    rw [hheap]
    exact (hm.opens_entered g args).spares.of_nowhere.trans hspares fun _ _ hmay => hmay
  have hsame : m'.globals = m.globals := hglobals.trans hend.globals
  refine ⟨hprogram.trans hend.program, by rw [hhosts]; exact hend.hosts, ?_, fun hne => ?_, fun hlive => ?_⟩
  · rw [hsame, hheap]
    exact hend.census
  · obtain ⟨-, hcallers⟩ := List.cons.inj (hgood hne)
    rw [hcallers, hback hne]
    exact hm.frames hstate
  · obtain ⟨hcurrent, hcallers⟩ := List.cons.inj (hgood hlive.1)
    have heffects := hback hlive.1
    have hbefore : m.Live := by
      rw [heffects] at hlive
      exact hlive
    have hat := (hm.stands hbefore).spares htotal
    rw [hcurrent, hcallers, heffects]
    exact hat

theorem opening_call {name : String} {id : Identity} {g : ScriptFunction} {args : List Value} (hstate : m.state ≠ .error)
    (hl : m.lookup name = .ok (.function id g)) :
    (Request.call fuel name args).opening m H = H.enter ((m.entered g args).activation none) := by
  simp only [Request.opening, if_neg hstate, hl]

/-- Calls leave a machine at rest. -/
theorem Resting.call {name : String} {args : List Value} {result : Except Fault Value} (hm : Resting hT H m)
    (h : m.call fuel name args = some (result, m')) :
    Resting hT ((Request.call fuel name args).history m H m') m' := by
  by_cases hfunction : m.state ≠ .error ∧ ∃ id g, m.lookup name = .ok (.function id g)
  · obtain ⟨hstate, id, g, hl⟩ := hfunction
    obtain ⟨hcourse, hcall⟩ := call_function hstate hl fuel args
    rw [hcall] at h
    obtain ⟨⟨r, u⟩, hd, hf⟩ := Option.map_eq_some_iff.1 h
    show Resting hT (((Request.call fuel name args).opening m H).along _ m') m'
    rw [opening_call hstate hl, hcourse]
    exact hm.callFunction hstate hd hf
  · have hnone : m.state ≠ .error → ∀ id g, m.lookup name ≠ .ok (.function id g) := fun hstate id g hl =>
      hfunction ⟨hstate, id, g, hl⟩
    have hopening : (Request.call fuel name args).opening m H = H := by
      unfold Request.opening
      simp only
      split
      · rfl
      · rename_i hstate
        split
        · rename_i hl
          exact absurd hl (hnone hstate _ _)
        · rfl
    show Resting hT (((Request.call fuel name args).opening m H).along _ m') m'
    rw [hopening, (call_aside hnone fuel args).1]
    show Resting hT H m'
    cases calls_of_call h with
    | refused => exact hm
    | function hstate hl => exact absurd hl (hnone hstate _ _)
    | @native handle => exact hm.aside _ _ (callNative_spares hm.hosts hm.census.founded handle none args) hm.hosts

end Machine

/-- A new global scope starts a new history. -/
theorem Census.restart {h : Heap} {globals : ScopeId} {all : List Activation} (hc : Census h globals all) :
    Census h.newRoot.2 h.newRoot.1 ({} :: all) := by
  have hspares : Heap.Spares Heap.nowhere h h.newRoot.2 := .newScope hc.founded {}
  have hc' := hc.spares hspares
  refine ⟨hc'.founded, ?_, ?_, ?_, hc'.hidden, hc'.nodup, fun a ha r hr => ?_, fun a ha r s hr hscope => ?_⟩
  · rw [Heap.parent?, Heap.newRoot, Heap.scope_newScope]
    exact congrArg Scope.parent (if_pos rfl)
  · rw [Heap.newRoot, Heap.scope_newScope]
    exact congrArg Scope.owner (if_pos rfl)
  · simp [Heap.newRoot, Heap.newScope]
  · rcases List.mem_cons.1 ha with rfl | ha
    · cases hr
    · exact hc'.receivers a ha r hr
  · rcases List.mem_cons.1 ha with rfl | ha
    · cases hr
    · exact hc'.bound a ha r s hr hscope

namespace Machine

variable {p : Program} {T : Nat → Nat → Shape} {hT : Laid p T} {H : History} {m m' v : Machine} {request : Request}

/-- A machine at the start of the program. -/
theorem Resting.start (all : List Activation) (hprogram : m.program = p) (hhosts : m.hosts.Spare)
    (hcensus : Census m.heap m.globals ({} :: all)) (hstack : m.stack = .empty) (hx : m.sectionIndex = 0)
    (hpc : m.pc = 0) (henv : m.env = m.globals) : Resting hT { past := all } m := by
  refine ⟨hprogram, hhosts, hcensus, fun _ => ?_, fun _ => ?_⟩
  · show 0 = frameCount m.stack.entries
    rw [hstack]
    rfl
  · show Setting.Stands _ _ _ (T _ _) _ _ _ _
    rw [hx, hpc, hT.start, hstack, henv]
    exact ⟨[], [], rfl, .nil, Activation.holds_script hcensus.exist, .script rfl⟩

/-- **Requests of a host that spares hidden scopes take the history along.** -/
theorem Resting.serve {cause : Option Cause} (hm : Resting hT H m) (hr : request.Spares m)
    (h : m.serve request = some (cause, m')) : Resting hT (request.history m H m') m' := by
  have hself : Heap.Spares Heap.nowhere m.heap m.heap := .refl hm.census.founded
  cases request with
  | run fuel | step fuel =>
    obtain ⟨⟨r, u⟩, hx, he⟩ := Option.map_eq_some_iff.1 h
    cases he
    exact hm.execute hx
  | call fuel name args =>
    obtain ⟨⟨r, u⟩, hx, he⟩ := Option.map_eq_some_iff.1 h
    cases he
    exact hm.call hx
  | reset =>
    cases h
    exact .start _ hm.program hm.hosts hm.census.restart rfl rfl rfl rfl
  | define name v =>
    cases h
    have hglobal : ¬ m.heap.Hidden m.globals := fun hh => by
      obtain ⟨outer, ho⟩ := hh.1
      rw [hm.census.root] at ho
      cases ho
    exact hm.aside m.registry m.log (.define hm.census.founded (.inl hglobal)) hm.hosts
  | add native =>
    cases h
    have hhosts : (m.hosts.add native).2.Spare := by
      intro n hn
      rcases Array.mem_push.1 hn with hn | rfl
      · exact hm.hosts n hn
      · exact hr
    exact hm.aside m.registry m.log hself hhosts
  | register name handle =>
    simp only [Machine.serve, Machine.register] at h
    cases hregister : m.registry.register name handle with
    | ok registry =>
      rw [hregister] at h
      cases h
      exact hm.aside registry m.log hself hm.hosts
    | error c =>
      rw [hregister] at h
      cases h
      exact hm
  | prepare heap =>
    cases h
    exact hm.aside m.registry m.log hr hm.hosts
  | takeLog =>
    cases h
    exact hm.aside m.registry #[] hself hm.hosts

theorem Chronicle.resting (hT : Laid p T) (h : Chronicle p m H) : Resting hT H m := by
  induction h with
  | @load config heap hosts hfounded hhosts =>
    refine .start [] rfl hhosts ⟨hfounded, ?_, ?_, ?_, nofun, .nil, fun a ha r hr => ?_, fun a ha r s hr => ?_⟩
      rfl rfl rfl rfl
    · show Heap.parent? (heap.newRoot).2 (heap.newRoot).1 = none
      rw [Heap.parent?, Heap.newRoot, Heap.scope_newScope]
      exact congrArg Scope.parent (if_pos rfl)
    · show ((heap.newRoot).2.scope (heap.newRoot).1).owner = none
      rw [Heap.newRoot, Heap.scope_newScope]
      exact congrArg Scope.owner (if_pos rfl)
    · show (heap.newRoot).1.index < (heap.newRoot).2.scopes.size
      simp [Heap.newRoot, Heap.newScope]
    · rw [List.mem_singleton.1 ha] at hr
      cases hr
    · rw [List.mem_singleton.1 ha] at hr
      cases hr
  | serve _ hr hserve ih => exact ih.serve hr hserve

/-- Every machine whose instruction a request executes is placed. -/
theorem Resting.course {before after : List Machine} (hm : Resting hT H m)
    (h : request.course m = before ++ v :: after) :
    ∃ hosted, Placed (setting hT m hosted) ((request.opening m H).along before v) v := by
  have hnone : ([] : List Machine) ≠ before ++ v :: after := by simp
  cases request with
  | run fuel | step fuel =>
    simp only [Request.course] at h
    split at h
    · rename_i hlive
      exact ⟨[], (visited_placed (hm.awake hlive) h).1⟩
    · exact absurd h hnone
  | call fuel name args =>
    by_cases hfunction : m.state ≠ .error ∧ ∃ id g, m.lookup name = .ok (.function id g)
    · obtain ⟨hstate, id, g, hl⟩ := hfunction
      rw [(call_function hstate hl fuel args).1] at h
      rw [opening_call hstate hl]
      exact ⟨H.active, (visited_placed (hm.entered hstate g args) h).1⟩
    · rw [(call_aside (fun hstate id g hl => hfunction ⟨hstate, id, g, hl⟩) fuel args).1] at h
      exact absurd h hnone
  | _ => exact absurd h hnone

/-! ### The scopes of the activation at work -/

/-- What a machine at an instruction can see and change, for its history. -/
structure Confined (p : Program) (depth : Nat → Nat → Nat) (H : History) (v : Machine) : Prop where
  /-- An activation waits for each call under way. -/
  frames : H.callers.length = v.frames
  /-- As many blocks of the activation as the place says, and around them the scope of the call. -/
  holds : H.current.Holds v.heap v.globals (depth v.sectionIndex v.pc) v.env
  plain : ∀ s ∈ H.current.blocks, (v.heap.scope s).owner = none
  /-- Functions run in calls. -/
  called : v.sectionIndex ≠ 0 → H.current.scope.isSome = true
  /-- Around the blocks of the script are the globals, unless a function runs the script. -/
  script : Regime.sealed.Visits p v → v.sectionIndex = 0 → H.current.outer v.heap v.globals = [v.globals]
  globals : v.heap.chain v.globals = [v.globals]
  /-- Scopes of other activations are not seen. -/
  unseen : ∀ a ∈ H.others, ∀ s ∈ a.locals, s ∉ v.heap.chain v.env
  /-- Scopes of other activations are not changed. -/
  unchanged : ∀ i, p.instruction? v.sectionIndex v.pc = some i → ∀ u,
    ((∃ r, dispatch i v.fetching = .ok r u) ∨ ∃ c, dispatch i v.fetching = .error c u) →
    ∀ a ∈ H.others, ∀ s ∈ a.locals, u.heap.scope s = v.heap.scope s
  /-- Only blocks of the activation are left, and into the activation. -/
  leaves : ∀ i, p.instruction? v.sectionIndex v.pc = some i → i.op = .leaveScope →
    v.env ∈ H.current.blocks ∧ ∃ k outer, dispatch i v.fetching = .ok none { v.fetching with env := outer } ∧
      H.current.Holds v.heap v.globals k outer

variable {E : Setting} {i : Instruction} {u : Machine}

/-- An instruction leaves hidden scopes off the chain of the machine alone, whether or not it fails. -/
theorem Abides.minds {r : EStateM.Result Cause Machine (Option Stop)} (h : Abides E H i.op m r)
    (hu : (∃ reason, r = .ok reason u) ∨ ∃ c, r = .error c u) : Minds m u := by
  rcases hu with ⟨reason, rfl⟩ | ⟨c, rfl⟩
  · rcases reason with - | reason
    · exact h.1
    · cases reason with
      | boundary => exact h.elim
      | eof | breakpoint | hostReturn => exact h.1
  · exact h.1

theorem Placed.holds (hv : Placed E H v) :
    H.current.Holds v.heap v.globals (E.layout v.sectionIndex v.pc).scopes v.env := by
  obtain ⟨es, rest, -, -, hheld, -⟩ := hv.stands
  rw [hv.globals]
  exact hheld

theorem Placed.unchanged (hv : Placed E H v) (hi : v.program.instruction? v.sectionIndex v.pc = some i)
    (hu : (∃ r, Machine.dispatch i v.fetching = .ok r u) ∨ ∃ c, Machine.dispatch i v.fetching = .error c u)
    {a : Activation} (ha : a ∈ H.others) {s : ScopeId} (hs : s ∈ a.locals) : u.heap.scope s = v.heap.scope s := by
  have hminds : Minds v.fetching u := (hv.dispatch hi).minds hu
  have hmem : s ∈ localsOf H.all := List.mem_flatMap.2 ⟨a, List.mem_cons_of_mem _ ha, hs⟩
  have hheld := hv.holds
  rw [hv.globals] at hheld
  exact hminds.kept s (hv.census.hidden s hmem).1 (hv.census.apart hheld ha hs)

theorem Placed.leaves (hv : Placed E H v) (hi : v.program.instruction? v.sectionIndex v.pc = some i)
    (hop : i.op = .leaveScope) : v.env ∈ H.current.blocks ∧ ∃ k outer,
      Machine.dispatch i v.fetching = .ok none { v.fetching with env := outer } ∧
        H.current.Holds v.heap v.globals k outer := by
  obtain ⟨J, hstep, -⟩ := E.laid.step (hv.program ▸ hi)
  have hheld := hv.holds
  rw [hop] at hstep
  generalize E.layout v.sectionIndex v.pc = σ at hstep hheld
  generalize E.layout v.sectionIndex (v.pc + 1) = τ at hstep
  cases hstep with
  | @leaveScope k s =>
    obtain ⟨hmem, outer, hparent, houter⟩ := hheld.leaveScope
    exact ⟨hmem, k, outer, dispatch_leaveScope hop hparent, houter⟩

/-- Where no frame lies on the stack the script is at work. -/
theorem Placed.script (hv : Placed E H v) (hframe : ∀ f, Entry.frame f ∉ v.stack.entries) :
    H.current.scope = none := by
  obtain ⟨es, rest, he, -, -, hbelow⟩ := hv.stands
  rw [he] at hframe
  generalize H.callers = callers at hbelow
  generalize v.sectionIndex = x at hbelow
  cases hbelow with
  | script hscope => exact hscope
  | host => exact absurd (List.mem_append_right es List.mem_cons_self) (hframe _)
  | call => exact absurd (List.mem_append_right es List.mem_cons_self) (hframe _)

/-- A function runs in a call. -/
theorem Placed.called (hv : Placed E H v) (hx : v.sectionIndex ≠ 0) : H.current.scope.isSome = true := by
  obtain ⟨es, rest, -, -, -, hbelow⟩ := hv.stands
  generalize H.callers = callers at hbelow
  generalize v.sectionIndex = x at hbelow hx
  cases hbelow with
  | script => exact absurd rfl hx
  | host hscope => exact hscope
  | call hscope => exact hscope

end Machine

variable {script : Script} {p : Program} {m : Machine}

/-- No frame lies on the stack in the script, unless a function runs the script. -/
theorem Script.no_frame (hc : script.compile = .ok p) (hs : script.sparesIndexer = true)
    (hv : Regime.sealed.Visits p m) (hx : m.sectionIndex = 0) (f : Frame) : Entry.frame f ∉ m.stack.entries := by
  obtain ⟨T, hT, -⟩ := Script.exists_layout hc hs
  intro hf
  obtain ⟨hosted, hfits⟩ := Machine.visits_fits (G := ⟨Regime.sealed, p, T, hT⟩) (fun h => h.elim) (fun h => h.elim)
    (fun g hg => (Script.functions_of_compile hc hs hg).1) (Script.admits_constants hc _) hv
  have hkind := List.mem_map_of_mem (f := Entry.kind) hf
  rw [hfits.kinds_script (fun ⟨g, hg, h⟩ => hg h) hx] at hkind
  obtain ⟨slot, -, hslot⟩ := List.mem_map.1 hkind
  cases slot <;> cases hslot

/-- **Scopes of different activations never mix.** Whenever a compiled script executes an instruction, in whatever
request, the machine sees blocks of the activation at work, their number given by its place, the scope of the call and
what lies around it; it neither sees nor changes a scope of another activation. -/
theorem Script.scopes_apart (hc : script.compile = .ok p) (hs : script.sparesIndexer = true) :
    ∃ depth, ∀ m H, Machine.Chronicle p m H → ∀ (request : Request) before v after,
      request.course m = before ++ v :: after → Machine.Confined p depth ((request.opening m H).along before v) v := by
  obtain ⟨T, hT, -⟩ := Script.exists_layout hc hs
  refine ⟨fun x pc => (T x pc).scopes, fun m H hm request before v after hcourse => ?_⟩
  obtain ⟨hosted, hv⟩ := (hm.resting hT).course hcourse
  generalize (request.opening m H).along before v = K at hv
  have hprogram : v.program = p := hv.program
  have hglobals : v.globals = m.globals := hv.globals
  have hroot : v.heap.chain v.globals = [v.globals] := by
    rw [hglobals]
    exact Heap.chain_root hv.census.root
  exact {
    frames := hv.frames
    holds := hv.holds
    plain := fun s hs => (hv.census.hidden s
      (List.mem_flatMap.2 ⟨K.current, List.mem_cons_self, List.mem_append_left _ hs⟩)).2
    called := hv.called
    script := fun hvisits hx => by
      rw [Activation.outer, hv.script (Script.no_frame hc hs hvisits hx)]
      exact hroot
    globals := hroot
    unseen := fun a ha s hs => by
      have hheld := hv.holds
      rw [hglobals] at hheld
      exact hv.census.apart hheld ha hs
    unchanged := fun i hi u hu a ha s hs => hv.unchanged (hprogram ▸ hi) hu ha hs
    leaves := fun i hi hop => hv.leaves (hprogram ▸ hi) hop }

/-! ### Two runs -/

theorem Machine.chronicle_fresh (p : Program) (globals : List (String × Value)) :
    Machine.Chronicle p (Machine.fresh p globals) {} := by
  have hfounded : (Machine.load p {} {} {}).heap.Founded := fun o => Nat.zero_lt_one
  have hload : Machine.Chronicle p (Machine.load p {} {} {}) {} := .load hfounded nofun
  unfold Machine.fresh
  generalize Machine.load p {} {} {} = m at hload
  induction globals generalizing m with
  | nil => exact hload
  | cons b rest ih =>
    have hdefine : m.serve (.define b.1 b.2) = some (none, m.defineGlobal b.1 b.2) := rfl
    have hspares : (Request.define b.1 b.2).Spares m := trivial
    exact ih _ (hload.serve hspares hdefine)

/-- The place, the chain and the history at an instruction of a run, counted from its start. -/
def Script.glimpse (script : Script) (globals : List (String × Value)) (n : Nat) :
    Option (Nat × Nat × List ScopeId × History) :=
  match script.compile with
  | .ok p =>
    let course := (Request.run 100).course (Machine.fresh p globals)
    course[n]?.map fun v => (v.sectionIndex, v.pc, v.heap.chain v.env, History.along {} (course.take n) v)
  | .error _ => none

theorem Script.glimpse_course {globals : List (String × Value)} {n x pc : Nat} {chain : List ScopeId} {H : History}
    (h : script.glimpse globals n = some (x, pc, chain, H)) : ∃ p before v after, script.compile = .ok p ∧
      (Request.run 100).course (Machine.fresh p globals) = before ++ v :: after ∧ v.sectionIndex = x ∧ v.pc = pc ∧
      v.heap.chain v.env = chain ∧ History.along {} before v = H := by
  unfold Script.glimpse at h
  split at h
  · rename_i p hc
    obtain ⟨v, hv, he⟩ := Option.map_eq_some_iff.1 h
    cases he
    obtain ⟨hlt, rfl⟩ := List.getElem?_eq_some_iff.1 hv
    have hsplit := (List.take_append_drop n ((Request.run 100).course (Machine.fresh p globals))).symm
    rw [List.drop_eq_getElem_cons hlt] at hsplit
    exact ⟨p, _, _, _, hc, hsplit, rfl, rfl, rfl, rfl⟩
  · cases h

/-- `class A { m() { { null; } } } { new A().m(); }` -/
def Script.meeting : Script :=
  { body := [
      .node .unknown (.class "A" [.node "m" [] [.node .unknown (.block [
        .node .unknown (.expr (.node .unknown .null))])]]),
      .node .unknown (.block [.node .unknown (.expr (.node .unknown (.call
        (.node .unknown (.member (.node .unknown (.new "A" [])) "m")) [])))])] }

/-- Where the block of the method is left, the machine sees that block, the scope of the call, the fields of the object
and the globals, and the block of the script waits. -/
theorem Script.scopes_apart_meeting : ∃ p before v after depth H, Script.meeting.compile = .ok p ∧
    Machine.Chronicle p (Machine.fresh p []) {} ∧
    (Request.run 100).course (Machine.fresh p []) = before ++ v :: after ∧ v.sectionIndex = 1 ∧ v.pc = 3 ∧
    v.heap.chain v.env = [⟨4⟩, ⟨3⟩, ⟨2⟩, ⟨0⟩] ∧ H.current = ⟨some ⟨3⟩, some ⟨2⟩, [⟨4⟩]⟩ ∧
    H.callers = [⟨none, none, [⟨1⟩]⟩] ∧ Machine.Confined p depth H v := by
  have hglimpse : Script.meeting.glimpse [] 8 =
      some (1, 3, [⟨4⟩, ⟨3⟩, ⟨2⟩, ⟨0⟩], ⟨⟨some ⟨3⟩, some ⟨2⟩, [⟨4⟩]⟩, [⟨none, none, [⟨1⟩]⟩], []⟩) := by
    decide +kernel
  obtain ⟨p, before, v, after, hc, hcourse, hx, hpc, hchain, hH⟩ := Script.glimpse_course hglimpse
  obtain ⟨depth, hconfined⟩ := Script.scopes_apart hc (by decide +kernel)
  have hfresh := Machine.chronicle_fresh p []
  have hv := hconfined _ _ hfresh (.run 100) before v after hcourse
  rw [show (Request.run 100).opening (Machine.fresh p []) {} = {} from rfl, hH] at hv
  exact ⟨p, before, v, after, depth, _, hc, hfresh, hcourse, hx, hpc, hchain, rfl, rfl, hv⟩

/-- A function that the host hands in may run the script, and then the scope of that call lies between the blocks of
the script and the globals. -/
theorem Script.call_around_script : ¬ ∀ (script : Script) (p : Program), script.compile = .ok p →
    script.sparesIndexer = true → ∃ depth : Nat → Nat → Nat, ∀ m H, Machine.Chronicle p m H →
      ∀ (request : Request) before v after, request.course m = before ++ v :: after → v.sectionIndex = 0 →
        ∃ blocks, v.heap.chain v.env = blocks ++ [v.globals] ∧ blocks.length = depth 0 v.pc := by
  intro h
  have hstart : Script.rerunning.glimpse Script.rerun 0 = some (0, 0, [⟨0⟩], {}) := by decide +kernel
  have hagain : Script.rerunning.glimpse Script.rerun 9 =
      some (0, 0, [⟨2⟩, ⟨0⟩], ⟨⟨some ⟨2⟩, none, []⟩, [⟨none, none, [⟨1⟩]⟩], []⟩) := by decide +kernel
  obtain ⟨p, before, v, after, hc, hcourse, hx, hpc, hchain, -⟩ := Script.glimpse_course hstart
  obtain ⟨p', before', w, after', hc', hcourse', hx', hpc', hchain', -⟩ := Script.glimpse_course hagain
  obtain rfl : p = p' := Except.ok.inj (hc.symm.trans hc')
  obtain ⟨depth, hdepth⟩ := h Script.rerunning p hc (by decide +kernel)
  have hfresh := Machine.chronicle_fresh p Script.rerun
  -- the same place, once without and once with the scope of a call
  obtain ⟨blocks, hb, hlen⟩ := hdepth _ _ hfresh (.run 100) before v after hcourse hx
  obtain ⟨blocks', hb', hlen'⟩ := hdepth _ _ hfresh (.run 100) before' w after' hcourse' hx'
  have hone := congrArg List.length (hchain.symm.trans hb)
  have htwo := congrArg List.length (hchain'.symm.trans hb')
  rw [List.length_append, hlen, hpc] at hone
  rw [List.length_append, hlen', hpc'] at htwo
  simp only [List.length_cons, List.length_nil] at hone htwo
  omega

end ScriptMachine
