import ScriptMachine.Proofs.Machine.Chronicle
import ScriptMachine.Proofs.Machine.Enclosure
import ScriptMachine.Proofs.Machine.Lifecycle

/-!
# FinalScopes — the scope in which the final part of a try statement runs

The generator places the final part of a try statement behind the statement, behind the label where an exception is
thrown again, and in front of every `break`, `continue` and `return` that leaves the statement. Each copy opens a
scope of its own. In the first two places this scope lies inside the one in which the statement began, so that nothing
of the body or of the handler can be seen there. An early exit leaves the region but not the scopes inside it: there
the final part runs inside the scopes of the exit, and a name that one of them holds means something else than on the
other ways (`Script.final_scopes`).
-/

namespace ScriptMachine

open Compile Machine

/-! ### Runs -/

namespace Machine

variable {p : Program} {T : Nat → Nat → Station} {past : List Machine} {mode : Mode} {fuel : Nat} {first b : Bool}
  {m m' u v w : Machine}

/-- Every machine whose instruction a run executes works at its station. -/
theorem visited_working {before after : List Machine} (hT : Charted p T) (hv : Working p T past v)
    (h : visited mode fuel first v = before ++ w :: after) :
    Working p T (past ++ before) w ∧ ∃ b, w.fetches mode b = true := by
  induction fuel generalizing first v past before with
  | zero => cases before <;> cases h
  | succ fuel ih =>
    have hstations := tick_stations hT hv mode first
    unfold visited at h
    split at h
    · rename_i hfetch
      cases before with
      | nil =>
        obtain ⟨rfl, -⟩ := List.cons.inj h
        rw [List.append_nil]
        exact ⟨hv, first, hfetch⟩
      | cons b before =>
        obtain ⟨rfl, hrest⟩ := List.cons.inj h
        cases ht : v.tick mode first with
        | next u =>
          rw [ht] at hrest hstations
          rw [← List.singleton_append, ← List.append_assoc]
          exact ih hstations.2.1 hrest
        | stop | fault =>
          rw [ht] at hrest
          exact absurd hrest.symm (List.append_ne_nil_of_right_ne_nil _ (List.cons_ne_nil _ _))
    · exact absurd h.symm (List.append_ne_nil_of_right_ne_nil _ (List.cons_ne_nil _ _))

theorem drive_concluded {r : Except Fault Stop} (hT : Charted p T) (hv : Working p T past v)
    (h : drive mode fuel first v = some (r, u)) : Concluded p T (past ++ visited mode fuel first v) v.heap r u := by
  induction fuel generalizing first v past with
  | zero => cases h
  | succ fuel ih =>
    have hstations := tick_stations hT hv mode first
    unfold visited
    unfold drive at h
    cases ht : v.tick mode first with
    | next w =>
      rw [ht] at h hstations
      obtain ⟨hfetch, hw, hheap⟩ := hstations
      have hend := ih hw h
      rw [List.append_assoc, List.singleton_append] at hend
      rw [if_pos hfetch]
      exact ⟨hend.program, hend.hosts, fun hr => hheap.trans (hend.heap hr), hend.stationed⟩
    | stop | fault =>
      rw [ht] at h hstations
      cases h
      split <;> rename_i hfetch
      · rw [hfetch] at hstations
        exact hstations
      · rw [Bool.eq_false_iff.2 hfetch] at hstations
        rw [List.append_nil]
        exact hstations

theorem passes_of_mem_visited (h : w ∈ visited mode fuel first v) : ∃ b, Passes mode first v b w := by
  induction fuel generalizing first v with
  | zero => cases h
  | succ fuel ih =>
    unfold visited at h
    split at h
    · rcases List.mem_cons.1 h with rfl | h
      · exact ⟨first, .start⟩
      · cases ht : v.tick mode first with
        | next u =>
          rw [ht] at h
          obtain ⟨b, hp⟩ := ih h
          exact ⟨b, hp.head ht⟩
        | stop | fault =>
          rw [ht] at h
          cases h
    · cases h

end Machine

/-! ### Requests -/

/-- A request that moves no scope. -/
def Request.Retains (m : Machine) : Request → Prop
  | .add native => native.Retains
  | .prepare heap => Heap.Retains m.heap heap
  | _ => True

/-- The machines that a host can bring about that moves no scope, with all the machines whose instructions were
executed. -/
inductive Machine.Journey (p : Program) : Machine → List Machine → Prop where
  | load {config heap hosts} : hosts.Retain → Journey p (Machine.load p config heap hosts) []
  | serve {m past request cause m'} : Journey p m past → request.Retains m → m.serve request = some (cause, m') →
      Journey p m' (past ++ request.course m)

namespace Machine

/-- A machine between requests. -/
structure Waits (p : Program) (T : Nat → Nat → Station) (past : List Machine) (m : Machine) : Prop where
  program : m.program = p
  hosts : m.hosts.Retain
  stationed : m.Live → Stationed T past m

variable {p : Program} {T : Nat → Nat → Station} {past : List Machine} {mode : Mode} {fuel : Nat} {m m' u v w : Machine}
  {request : Request}

theorem Waits.awake (hm : Waits p T past m) (hlive : m.Live) : Working p T past m.awake :=
  ⟨hm.program, hm.hosts, (hm.stationed hlive).env, (hm.stationed hlive).posed⟩

/-- A function that the host calls begins at its first station, on the frame of the call. -/
theorem Waits.entered (hT : Charted p T) (hm : Waits p T past m) (g : ScriptFunction) (args : List Value) :
    Working p T past (m.entered g args) := by
  have hexists := (enterFunction_retains g none args true
    { m with state := .running, hostCalls := m.hostCalls + 1 }).2
  exact ⟨hm.program, hm.hosts, .of_eq (hT.start _) hexists (Bracketed.host rfl (.refl _ _ 0))⟩

theorem Waits.aside (hm : Waits p T past m) {heap : Heap} {hosts : Hosts} (registry : Registry) (log : Array String)
    (hretains : Heap.Retains m.heap heap) (hhosts : hosts.Retain) :
    Waits p T past { m with heap, hosts, registry, log } := by
  refine ⟨hm.program, hhosts, fun hlive => ?_⟩
  have hm := hm.stationed hlive
  exact ⟨hretains.lt hm.env, hm.posed.retains hretains hm.env⟩

theorem Waits.execute {r : Except Fault RunState} (hT : Charted p T) (hm : Waits p T past m) (hwaiting : Waiting m)
    (h : m.execute mode fuel = some (r, m')) :
    Waits p T (past ++ if m.Live then visited mode fuel true m.awake else []) m' := by
  have hfails := (hwaiting.execute h).2
  by_cases hlive : m.Live
  · rw [execute_eq hlive] at h
    rw [if_pos hlive]
    obtain ⟨⟨result, u⟩, hd, ha⟩ := Option.map_eq_some_iff.1 h
    have hend := drive_concluded hT (hm.awake hlive) hd
    cases result with
    | ok reason =>
      cases reason with
      | eof =>
        cases ha
        exact ⟨hend.program, hend.hosts, fun hdone => absurd rfl hdone.2⟩
      | breakpoint =>
        cases ha
        have hu := hend.stationed (.inl rfl)
        exact ⟨hend.program, hend.hosts, fun _ => ⟨hu.env, hu.posed⟩⟩
      | boundary =>
        cases ha
        have hu := hend.stationed (.inr rfl)
        exact ⟨hend.program, hend.hosts, fun _ => ⟨hu.env, hu.posed⟩⟩
      | hostReturn =>
        cases ha
        exact ⟨hend.program, hend.hosts, fun herror => absurd rfl herror.1⟩
    | error fault =>
      cases ha
      exact ⟨hend.program, hend.hosts, fun hlive => absurd (hfails.1 ⟨fault, rfl⟩) hlive.1⟩
  · rw [if_neg hlive, List.append_nil, not_live_execute hlive h]
    exact hm

/-- A call of a function leaves everything below it alone. -/
theorem Waits.callFunction {g : ScriptFunction} {args : List Value} {r : Except Fault Stop}
    {result : Except Fault Value} (hT : Charted p T) (hm : Waits p T past m)
    (hd : drive .run fuel true (m.entered g args) = some (r, u))
    (h : finishCall m.state (r, { u with hostCalls := u.hostCalls - 1 }) = (result, m')) :
    Waits p T (past ++ visited .run fuel true (m.entered g args)) m' := by
  have hend := drive_concluded hT (hm.entered hT g args) hd
  have hback := (finishCall_effects hd h).2
  obtain ⟨hprogram, hhosts, -, hheap⟩ := finishCall_keeps m.state r { u with hostCalls := u.hostCalls - 1 }
  rw [h] at hprogram hhosts hheap
  have hheap : m'.heap = u.heap := hheap
  refine ⟨hprogram.trans hend.program, by rw [hhosts]; exact hend.hosts, fun hlive => ?_⟩
  have hreached : (∃ reason, r = .ok reason) ∨ u.state ≠ .error := by
    cases r with
    | ok reason => exact .inl ⟨reason, rfl⟩
    | error fault =>
      refine .inr fun herror => hlive.1 ?_
      cases h
      exact (congrArg Machine.state (if_pos herror)).trans herror
  have hretains : Heap.Retains m.heap m'.heap := by
    have hentered := (enterFunction_retains g none args true
      { m with state := .running, hostCalls := m.hostCalls + 1 }).1
    rw [hheap]
    exact hentered.trans (hend.heap hreached)
  -- the frame of the call lies between the stack of the machine and whatever the call did
  have habove : ∀ w ∈ visited .run fuel true (m.entered g args),
      .frame (m.hostFrame g) :: m.stack.entries <:+ w.stack.entries := by
    intro w hw
    obtain ⟨b, hp⟩ := passes_of_mem_visited hw
    obtain ⟨above, hs, -⟩ := (passes_guarded hp).1
    exact ⟨above, hs.symm⟩
  have hsame := hback hlive.1
  have hm := hm.stationed (by rw [hsame] at hlive; exact hlive)
  have hposed := (hm.posed.retains hretains hm.env).above habove
  rw [hsame]
  exact ⟨hretains.lt hm.env, hposed⟩

theorem Waits.call {name : String} {args : List Value} {result : Except Fault Value} (hT : Charted p T)
    (hm : Waits p T past m) (h : m.call fuel name args = some (result, m')) :
    Waits p T (past ++ (Request.call fuel name args).course m) m' := by
  by_cases hfunction : m.state ≠ .error ∧ ∃ id g, m.lookup name = .ok (.function id g)
  · obtain ⟨hstate, id, g, hl⟩ := hfunction
    obtain ⟨hcourse, hcall⟩ := call_function hstate hl fuel args
    rw [hcall] at h
    obtain ⟨⟨r, u⟩, hd, hf⟩ := Option.map_eq_some_iff.1 h
    rw [hcourse]
    exact hm.callFunction hT hd hf
  · have hnone : m.state ≠ .error → ∀ id g, m.lookup name ≠ .ok (.function id g) := fun hstate id g hl =>
      hfunction ⟨hstate, id, g, hl⟩
    rw [(call_aside hnone fuel args).1, List.append_nil]
    cases calls_of_call h with
    | refused => exact hm
    | function hstate hl => exact absurd hl (hnone hstate _ _)
    | @native handle => exact hm.aside _ _ (callNative_retains hm.hosts handle none args) hm.hosts

/-- A machine at the start of the program. -/
theorem Waits.start (hT : Charted p T) (hprogram : m.program = p) (hhosts : m.hosts.Retain)
    (henv : m.env.index < m.heap.scopes.size) (hstack : m.stack = .empty) (hpc : m.pc = 0) : Waits p T past m := by
  have hstart : T m.sectionIndex m.pc = .start := by rw [hpc, hT.start]
  refine ⟨hprogram, hhosts, fun _ => .of_eq hstart henv ?_⟩
  rw [hstack]
  exact Bracketed.bottom (.refl _ _ 0)

theorem Waits.serve {cause : Option Cause} (hT : Charted p T) (hm : Waits p T past m) (hwaiting : Waiting m)
    (hr : request.Retains m) (h : m.serve request = some (cause, m')) : Waits p T (past ++ request.course m) m' := by
  have hself : Heap.Retains m.heap m.heap := .refl _
  cases request with
  | run fuel | step fuel =>
    obtain ⟨⟨r, u⟩, hx, he⟩ := Option.map_eq_some_iff.1 h
    cases he
    exact hm.execute hT hwaiting hx
  | call fuel name args =>
    obtain ⟨⟨r, u⟩, hx, he⟩ := Option.map_eq_some_iff.1 h
    cases he
    exact hm.call hT hx
  | reset =>
    cases h
    exact .start hT hm.program hm.hosts (by simp [Machine.reset, Heap.newRoot, Heap.newScope]) rfl rfl
  | define name v =>
    cases h
    rw [show (Request.define name v).course m = [] from rfl, List.append_nil]
    exact hm.aside m.registry m.log (.define _ _ _ _) hm.hosts
  | add native =>
    cases h
    have hhosts : (m.hosts.add native).2.Retain := by
      intro n hn
      rcases Array.mem_push.1 hn with hn | rfl
      · exact hm.hosts n hn
      · exact hr
    rw [show (Request.add native).course m = [] from rfl, List.append_nil]
    exact hm.aside m.registry m.log hself hhosts
  | register name handle =>
    rw [show (Request.register name handle).course m = [] from rfl, List.append_nil]
    simp only [Machine.serve, Machine.register] at h
    cases hregister : m.registry.register name handle with
    | ok registry =>
      rw [hregister] at h
      cases h
      exact hm.aside registry m.log hself hm.hosts
    | error c =>
      rw [hregister] at h
      cases h
      exact hm
  | prepare heap =>
    cases h
    rw [show (Request.prepare heap).course m = [] from rfl, List.append_nil]
    exact hm.aside m.registry m.log hr hm.hosts
  | takeLog =>
    cases h
    rw [show Request.takeLog.course m = [] from rfl, List.append_nil]
    exact hm.aside m.registry #[] hself hm.hosts

theorem Journey.waits (hT : Charted p T) (h : Journey p m past) : Waits p T past m ∧ Waiting m := by
  induction h with
  | @load config heap hosts hhosts =>
    refine ⟨.start hT rfl hhosts ?_ rfl rfl, nofun, rfl, fun _ => nofun⟩
    show (heap.newRoot).1.index < (heap.newRoot).2.scopes.size
    simp [Heap.newRoot, Heap.newScope]
  | serve _ hr hserve ih => exact ⟨ih.1.serve hT ih.2 hr hserve, ih.2.serve hserve⟩

/-- Every machine whose instruction a request executes works at its station. -/
theorem Waits.course {before after : List Machine} (hT : Charted p T) (hm : Waits p T past m)
    (h : request.course m = before ++ w :: after) :
    Working p T (past ++ before) w ∧ ∃ mode b, w.fetches mode b = true := by
  have hnone : ([] : List Machine) ≠ before ++ w :: after := by simp
  cases request with
  | run fuel | step fuel =>
    simp only [Request.course] at h
    split at h
    · rename_i hlive
      exact (visited_working hT (hm.awake hlive) h).imp_right fun hb => ⟨_, hb⟩
    · exact absurd h hnone
  | call fuel name args =>
    by_cases hfunction : m.state ≠ .error ∧ ∃ id g, m.lookup name = .ok (.function id g)
    · obtain ⟨hstate, id, g, hl⟩ := hfunction
      rw [(call_function hstate hl fuel args).1] at h
      exact (visited_working hT (hm.entered hT g args) h).imp_right fun hb => ⟨_, hb⟩
    · rw [(call_aside (fun hstate id g hl => hfunction ⟨hstate, id, g, hl⟩) fuel args).1] at h
      exact absurd h hnone
  | _ => exact absurd h hnone

end Machine

/-! ### Final parts -/

/-- How control comes to the final part of a try statement: behind the statement, with an exception that is thrown again
afterwards, or by an exit that leaves the statement early. A label is the first of the statement. -/
inductive Way where
  | through (label : Nat)
  | raised (label : Nat)
  | early

/-- The statement whose final part comes, where the place says it. -/
def Way.label? : Way → Option Nat
  | .through l | .raised l => some l
  | .early => none

/-- The entries above the stack on which the statement began: an exception waits to be thrown again. -/
def Way.Leaves : Way → List Entry → List Entry → Prop
  | .raised _, es, below => ∃ x, es = .value x :: below
  | _, es, below => es = below

/-- The instruction at a place opens the scope of a final part. The generator puts this scope behind the last label of
the statement, behind the one where the exception is thrown again, and where an exit has just left the region. -/
inductive Program.OpensFinal (p : Program) (x : Nat) : Nat → Way → Prop where
  | through {start pc l} : p.opcode? x start = some (.tryStart l (some (l + 1)) false) →
      p.opcode? x pc = some (.label (l + 2)) → p.opcode? x (pc + 1) = some .enterScope →
      OpensFinal p x (pc + 1) (.through l)
  | raised {start pc l} : p.opcode? x start = some (.tryStart l (some (l + 1)) false) →
      p.opcode? x pc = some (.label (l + 1)) → p.opcode? x (pc + 1) = some .enterScope →
      OpensFinal p x (pc + 1) (.raised l)
  | early {pc} : p.opcode? x pc = some .tryEnd → p.opcode? x (pc + 1) = some .enterScope →
      OpensFinal p x (pc + 1) .early

variable {p : Program} {T : Nat → Nat → Station} {past : List Machine} {way : Way} {x pc l : Nat} {m u v w : Machine}
  {inner : List ScopeId}

theorem Program.OpensFinal.enterScope (h : p.OpensFinal x pc way) : p.opcode? x pc = some .enterScope := by
  cases h <;> assumption

theorem Compile.Charted.opcode {o : Opcode} (hT : Charted p T) (h : p.opcode? x pc = some o) :
    ∃ J, Moves J o (T x pc) (T x (pc + 1)) ∧ ∀ l σ, (l, σ) ∈ J → ∃ pc', p.jumpTarget? l = some pc' ∧ T x pc' = σ := by
  obtain ⟨i, hi, rfl⟩ := Option.map_eq_some_iff.1 h
  exact hT.step hi

/-- The stations of the labels of a statement with a final part. -/
theorem Compile.Charted.labels {start : Nat} (hT : Charted p T)
    (h : p.opcode? x start = some (.tryStart l (some (l + 1)) false)) : ∃ k s,
      (∀ pc, p.opcode? x pc = some (.label (l + 1)) → T x pc = ⟨k, .caught (some l), s⟩) ∧
      ∀ pc, p.opcode? x pc = some (.label (l + 2)) → T x pc = ⟨k, .left k l, s⟩ := by
  have hplace : ∀ {n pc pc' : Nat}, p.opcode? x pc = some (.label n) → p.jumpTarget? n = some pc' → pc' = pc := by
    intro n pc pc' hn htarget
    obtain ⟨i, hi, hop⟩ := Option.map_eq_some_iff.1 hn
    exact Option.some.inj (htarget.symm.trans (hT.label hi hop))
  obtain ⟨J, hmoves, hJ⟩ := hT.opcode h
  generalize T x start = σ at hmoves
  generalize T x (start + 1) = τ at hmoves
  cases hmoves with
  | inert ho => cases ho
  | @tryFinal _ k s _ hraised hdone =>
    refine ⟨k, s, fun pc hpc => ?_, fun pc hpc => ?_⟩
    · obtain ⟨pc', htarget, hσ⟩ := hJ _ _ hraised
      rw [← hplace hpc htarget, hσ]
    · obtain ⟨pc', htarget, hσ⟩ := hJ _ _ hdone
      rw [← hplace hpc htarget, hσ]

/-- The station in front of a final part. -/
def Way.Passes (way : Way) (σ : Station) : Prop :=
  match way with
  | .through l => σ.phase = .done l
  | .raised l => σ.phase = .caught (some l)
  | .early => ∃ j l, j < σ.scopes ∧ σ.phase = .left j l

theorem Compile.Charted.final (hT : Charted p T) (h : p.OpensFinal x pc way) : way.Passes (T x pc) := by
  cases h with
  | @through start pc l hstart hlabel henter =>
    obtain ⟨k, s, -, hdone⟩ := hT.labels hstart
    obtain ⟨J, hmoves, -⟩ := hT.opcode hlabel
    rw [hdone pc hlabel] at hmoves
    generalize T x (pc + 1) = τ at hmoves
    cases hmoves with
    | inert _ hφ => exact absurd hφ (by simp [Phase.IsOpen])
    | labelLeft => rfl
  | @raised start pc l hstart hlabel henter =>
    obtain ⟨k, s, hraised, -⟩ := hT.labels hstart
    obtain ⟨J, hmoves, -⟩ := hT.opcode hlabel
    rw [hraised pc hlabel] at hmoves
    generalize T x (pc + 1) = τ at hmoves
    cases hmoves with
    | inert _ hφ => exact absurd hφ (by simp [Phase.IsOpen])
    | labelCaught => rfl
  | @early pc hend henter =>
    obtain ⟨J, hmoves, -⟩ := hT.opcode hend
    obtain ⟨J', hmoves', -⟩ := hT.opcode henter
    generalize T x pc = σ at hmoves
    generalize T x (pc + 1) = τ at hmoves hmoves'
    generalize T x (pc + 1 + 1) = υ at hmoves'
    cases hmoves with
    | inert ho => cases ho
    | tryEnd =>
      cases hmoves' with
      | inert ho => cases ho
    | @tryEndFinal j k l =>
      cases hmoves' with
      | inert ho => cases ho
      | enterLeft hj => exact ⟨j, l, hj, rfl⟩

namespace Machine

/-- The machine `w` comes to the final part of a statement that the machine `v` began, and `u` runs it in a new scope.
Between this scope and the one in which the statement began lie the scopes `inner`. -/
structure RunsFinal (past : List Machine) (way : Way) (l : Nat) (v w u : Machine) (inner : List ScopeId) : Prop where
  began : Began past l v
  /-- No other machine began a statement there. -/
  only : ∀ l' v', Began past l' v' → v'.stack.entries = v.stack.entries → v' = v
  label : ∀ n, way.label? = some n → n = l
  sectionIndex : v.sectionIndex = w.sectionIndex
  stack : way.Leaves w.stack.entries v.stack.entries
  /-- The final part has an empty scope of its own. -/
  fresh : w.heap.scopes.size ≤ u.env.index ∧ u.heap.scope u.env = { parent := some w.env }
  chain : u.heap.chain u.env = u.env :: inner ++ u.heap.chain v.env
  /-- Only an early exit leaves scopes of the statement open. -/
  between : inner = [] ↔ way ≠ .early
  /-- The scopes around the statement are older than all that it opened. -/
  outer : ∀ s ∈ u.heap.chain v.env, s.index < v.heap.scopes.size
  /-- Names that the scopes between do not hold mean what they mean around the statement. -/
  names : ∀ name, (∀ s ∈ inner, u.heap.getLocal? s name = none) →
    u.heap.resolve? u.env name = u.heap.resolve? v.env name ∧ u.heap.slot u.env name = u.heap.slot v.env name

/-- The scope of a final part is opened. -/
theorem runsFinal_of_chain (hbegan : Began past l v) (hlabel : ∀ n, way.label? = some n → n = l)
    (hx : v.sectionIndex = w.sectionIndex) (hstack : way.Leaves w.stack.entries v.stack.entries)
    (hw : w.env.index < w.heap.scopes.size) (hv : v.env.index < v.heap.scopes.size)
    (hchain : w.heap.chain w.env = inner ++ w.heap.chain v.env) (hinner : inner = [] ↔ way ≠ .early) :
    RunsFinal past way l v w
      { w.fetching with env := (w.heap.newChild w.env).1, heap := (w.heap.newChild w.env).2 } inner := by
  have hretains : Heap.Retains w.heap (w.heap.newChild w.env).2 := .newScope _ _
  have hlt : v.env.index < w.heap.scopes.size := by
    have hmem : v.env ∈ w.heap.chain w.env := by
      rw [hchain]
      exact List.mem_append_right _ (Heap.self_mem_chain _ _)
    exact Nat.lt_of_le_of_lt (Heap.le_of_mem_chain hmem) hw
  have hfresh := Heap.scope_newChild w.heap w.env
  have hnew : (w.heap.newChild w.env).2.chain (w.heap.newChild w.env).1 =
      (w.heap.newChild w.env).1 :: inner ++ (w.heap.newChild w.env).2.chain v.env := by
    rw [Heap.chain_newChild hw, hretains.chain hlt, hchain]
    rfl
  refine ⟨hbegan, fun l' v' => hbegan.unique, hlabel, hx, hstack, ⟨Nat.le_refl _, hfresh⟩, hnew, hinner, fun s hs => ?_,
    fun name hname => ?_⟩
  · exact Nat.lt_of_le_of_lt (Heap.le_of_mem_chain hs) hv
  · refine Heap.names_behind hnew fun s hs => ?_
    rcases List.mem_cons.1 hs with rfl | hs
    · show ((w.heap.newChild w.env).2.scope (w.heap.newChild w.env).1).get? name = none
      rw [hfresh]
      simp [Scope.get?]
    · exact hname s hs

/-- A machine at a final part knows where the statement began. -/
theorem Working.runsFinal (hT : Charted p T) (hw : Working p T past w) (h : p.OpensFinal w.sectionIndex w.pc way) :
    ∃ l v inner, RunsFinal past way l v w
      { w.fetching with env := (w.heap.newChild w.env).1, heap := (w.heap.newChild w.env).2 } inner := by
  have hpasses := hT.final h
  have hposed := hw.stationed.posed
  have henv := hw.stationed.env
  generalize T w.sectionIndex w.pc = σ at hpasses hposed
  unfold Posed at hposed
  cases way with
  | through l =>
    rw [show σ.phase = .done l from hpasses] at hposed
    obtain ⟨-, v, hbegan, hx, hsame, hstack, hlt⟩ := hposed
    exact ⟨l, v, [], runsFinal_of_chain hbegan (fun n hn => by cases hn; rfl) hx hstack.symm henv
      (hsame ▸ hlt) (by rw [hsame]; rfl) (by simp)⟩
  | raised l =>
    rw [show σ.phase = .caught (some l) from hpasses] at hposed
    obtain ⟨x, below, hes, -, hsince⟩ := hposed
    obtain ⟨v, hbegan, hx, hsame, rfl, hlt⟩ := hsince l rfl
    exact ⟨l, v, [], runsFinal_of_chain hbegan (fun n hn => by cases hn; rfl) hx ⟨x, hes⟩ henv
      (hsame ▸ hlt) (by rw [hsame]; rfl) (by simp)⟩
  | early =>
    obtain ⟨j, l, hj, hφ⟩ := hpasses
    rw [hφ] at hposed
    obtain ⟨-, e, ⟨inner, hlen, hchain⟩, v, hbegan, hx, rfl, hstack, hlt⟩ := hposed
    refine ⟨l, v, inner, runsFinal_of_chain hbegan nofun hx hstack.symm henv hlt hchain ?_⟩
    have hne : inner ≠ [] := fun hnil => by
      rw [hnil, List.length_nil] at hlen
      omega
    simp [hne]

end Machine

/-- **The scope of a final part depends on how control comes to it.** Whenever a compiled script comes to the final
part of a try statement, in whatever request, the statement was begun by a machine of its history on the same stack,
and the final part runs in a new scope. Behind the statement, and for an exception, the new scope lies right inside
the one in which the statement began: no scope of the body or of the handler is seen. After an early exit there are
scopes in between, and a name that one of these holds has its meaning from there. -/
theorem Script.final_scopes {script : Script} (hc : script.compile = .ok p) (hm : Journey p m past) (request : Request)
    {before after : List Machine} (hcourse : request.course m = before ++ w :: after)
    (hfinal : p.OpensFinal w.sectionIndex w.pc way) : ∃ l v u inner, w.tick .run true = .next u ∧
      RunsFinal (past ++ before) way l v w u inner := by
  obtain ⟨T, hT⟩ := Script.exists_chart hc
  obtain ⟨hw, mode, b, hfetch⟩ := (hm.waits hT).1.course hT hcourse
  obtain ⟨l, v, inner, hruns⟩ := hw.runsFinal hT hfinal
  have hrun : w.fetches .run true = true := by
    rcases tick_cases mode b w with ⟨-, -, -, -, hrun⟩ | ⟨-, hsame⟩
    · exact hrun
    · exact hsame ▸ hfetch
  obtain ⟨i, hi, htick⟩ := instruction_of_fetches hrun
  have hop : i.op = .enterScope := by
    have henter := hfinal.enterScope
    rw [Program.opcode?, ← hw.program, hi] at henter
    exact Option.some.inj henter
  rw [dispatch_enterScope hop] at htick
  exact ⟨l, v, _, inner, htick, hruns⟩

/-! ### One statement, left in two ways -/

theorem Machine.journey_fresh (p : Program) (globals : List (String × Value)) :
    Journey p (Machine.fresh p globals) [] := by
  have hload : Journey p (Machine.load p {} {} {}) [] := .load nofun
  unfold Machine.fresh
  generalize Machine.load p {} {} {} = m at hload
  induction globals generalizing m with
  | nil => exact hload
  | cons b rest ih =>
    have hdefine : m.serve (.define b.1 b.2) = some (none, m.defineGlobal b.1 b.2) := rfl
    have hretains : (Request.define b.1 b.2).Retains m := trivial
    exact ih _ (hload.serve hretains hdefine)

/-- `while (true) { try { var x = "inner"; if (again) break; } finally { out = x; } again = true; }` -/
def Script.revisiting : Script :=
  { body := [.node .unknown (.while (.node .unknown (.bool true)) (.node .unknown (.block [
      .node .unknown (.try
        [.node .unknown (.var "x" (some (.node .unknown (.string "inner")))),
          .node .unknown (.cond (.node .unknown (.ident "again")) (.node .unknown .break) none)]
        none
        (some [.node .unknown (.expr (.node .unknown (.assign none (.node .unknown (.ident "out"))
          (.node .unknown (.ident "x")))))])),
      .node .unknown (.expr (.node .unknown (.assign none (.node .unknown (.ident "again"))
        (.node .unknown (.bool true)))))])))] }

/-- The statement is left first at its end, and then by `break`. -/
def Script.revisited : List (String × Value) := [("x", .string "outer"), ("again", .bool false), ("out", .null)]

/-- What an instruction of the code of a script does. -/
def Script.opcode? (script : Script) (x pc : Nat) : Option Opcode :=
  match script.compile with
  | .ok p => p.opcode? x pc
  | .error _ => none

theorem Script.opcode_of_compile {script : Script} (hc : script.compile = .ok p) (x pc : Nat) :
    p.opcode? x pc = script.opcode? x pc := by
  simp only [Script.opcode?, hc]

/-- The place of an instruction of a run, counted from its start, and what a name means there and in the scopes of the
earlier machines that started a try statement. -/
def Script.meanings (script : Script) (globals : List (String × Value)) (name : String) (n : Nat) :
    Option (Nat × Nat × Option String × List (Option String)) :=
  match script.compile with
  | .ok p =>
    let course := (Request.run 100).course (Machine.fresh p globals)
    course[n]?.map fun w =>
      let meaning := fun env => (w.heap.resolve? env name).map (·.text w.heap)
      (w.sectionIndex, w.pc, meaning w.env, ((course.take n).filter (·.StartsTry)).map fun v => meaning v.env)
  | .error _ => none

theorem Script.meanings_course {script : Script} {globals : List (String × Value)} {name : String} {n x pc : Nat}
    {meaning : Option String} {meanings : List (Option String)}
    (h : script.meanings globals name n = some (x, pc, meaning, meanings)) :
    ∃ p before w after, script.compile = .ok p ∧
      (Request.run 100).course (Machine.fresh p globals) = before ++ w :: after ∧ w.sectionIndex = x ∧ w.pc = pc ∧
      (w.heap.resolve? w.env name).map (·.text w.heap) = meaning ∧
      ∀ v ∈ before, v.StartsTry → (w.heap.resolve? v.env name).map (·.text w.heap) ∈ meanings := by
  unfold Script.meanings at h
  split at h
  · rename_i p hc
    obtain ⟨w, hw, he⟩ := Option.map_eq_some_iff.1 h
    cases he
    obtain ⟨hlt, rfl⟩ := List.getElem?_eq_some_iff.1 hw
    have hsplit := (List.take_append_drop n ((Request.run 100).course (Machine.fresh p globals))).symm
    rw [List.drop_eq_getElem_cons hlt] at hsplit
    refine ⟨p, _, _, _, hc, hsplit, rfl, rfl, rfl, fun v hv hstarts => ?_⟩
    exact List.mem_map.2 ⟨v, List.mem_filter.2 ⟨hv, decide_eq_true hstarts⟩, rfl⟩
  · cases h

/-- The final part stands in the code of the script behind the statement and in front of the `break`, among other
places. -/
theorem Script.revisiting_final (hc : Script.revisiting.compile = .ok p) :
    p.OpensFinal 0 40 (.through 2) ∧ p.OpensFinal 0 13 .early := by
  have hop := Script.opcode_of_compile hc 0
  have hstart : p.opcode? 0 5 = some (.tryStart 2 (some 3) false) := by
    rw [hop]
    decide +kernel
  constructor
  · refine .through hstart ?_ ?_ <;> rw [hop] <;> decide +kernel
  · refine .early ?_ ?_ <;> rw [hop] <;> decide +kernel

/-- The name means to the final part what it means around the statement, and then what it means in the body. -/
theorem Script.revisiting_meanings :
    Script.revisiting.meanings Script.revisited "x" 18 = some (0, 40, some "outer", [some "outer"]) ∧
    Script.revisiting.meanings Script.revisited "x" 42 =
      some (0, 13, some "inner", [some "outer", some "outer"]) := by
  constructor <;> decide +kernel

theorem Script.final_scopes_revisiting : ∃ p, Script.revisiting.compile = .ok p ∧
    Journey p (Machine.fresh p Script.revisited) [] ∧
    (∃ before w after l v u inner,
      (Request.run 100).course (Machine.fresh p Script.revisited) = before ++ w :: after ∧
      p.OpensFinal w.sectionIndex w.pc (.through 2) ∧ w.tick .run true = .next u ∧
      RunsFinal before (.through 2) l v w u inner ∧ inner = []) ∧
    ∃ before w after l v u inner,
      (Request.run 100).course (Machine.fresh p Script.revisited) = before ++ w :: after ∧
      p.OpensFinal w.sectionIndex w.pc .early ∧ w.tick .run true = .next u ∧
      RunsFinal before .early l v w u inner ∧ inner ≠ [] := by
  obtain ⟨hthrough, hearly⟩ := Script.revisiting_meanings
  obtain ⟨p, before, w, after, hc, hcourse, hx, hpc, -⟩ := Script.meanings_course hthrough
  obtain ⟨p', before', w', after', hc', hcourse', hx', hpc', -⟩ := Script.meanings_course hearly
  obtain rfl : p = p' := Except.ok.inj (hc.symm.trans hc')
  obtain ⟨hopens, hopens'⟩ := Script.revisiting_final hc
  rw [← hx, ← hpc] at hopens
  rw [← hx', ← hpc'] at hopens'
  have hjourney := Machine.journey_fresh p Script.revisited
  obtain ⟨l, v, u, inner, htick, hruns⟩ := Script.final_scopes hc hjourney (.run 100) hcourse hopens
  obtain ⟨l', v', u', inner', htick', hruns'⟩ := Script.final_scopes hc hjourney (.run 100) hcourse' hopens'
  exact ⟨p, hc, hjourney, ⟨before, w, after, l, v, u, inner, hcourse, hopens, htick, hruns, hruns.between.2 nofun⟩,
    before', w', after', l', v', u', inner', hcourse', hopens', htick', hruns', fun h => hruns'.between.1 h rfl⟩

/-- After an early exit a name means what the body of the statement made it mean, not what it means around the
statement. -/
theorem Script.final_strays : ¬ ∀ (script : Script) (p : Program), script.compile = .ok p →
    ∀ m past, Journey p m past → ∀ (request : Request) before w after way, request.course m = before ++ w :: after →
      p.OpensFinal w.sectionIndex w.pc way → ∃ l v, Began (past ++ before) l v ∧
        way.Leaves w.stack.entries v.stack.entries ∧
        ∀ name, w.heap.resolve? w.env name = w.heap.resolve? v.env name := by
  intro h
  obtain ⟨p, before, w, after, hc, hcourse, hx, hpc, hmeaning, hothers⟩ :=
    Script.meanings_course Script.revisiting_meanings.2
  have hopens := (Script.revisiting_final hc).2
  rw [← hx, ← hpc] at hopens
  obtain ⟨l, v, hbegan, -, hnames⟩ :=
    h _ p hc _ _ (Machine.journey_fresh p _) (.run 100) before w after _ hcourse hopens
  have hmem : v ∈ before := by
    obtain ⟨-, earlier, later, hsplit, -⟩ := hbegan
    rw [List.nil_append] at hsplit
    rw [hsplit]
    simp
  have hother := hothers v hmem hbegan.startsTry
  rw [← hnames "x", hmeaning] at hother
  exact absurd hother (by decide)

end ScriptMachine
