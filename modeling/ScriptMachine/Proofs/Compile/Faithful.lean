import ScriptMachine.Proofs.Compile.Finals
import ScriptMachine.Proofs.Compile.Verdict

/-!
# Faithful — compiled scripts do what scripts mean

The rules of the meaning are put together to a simulation: the code of a task does what the task means
(`Stage.simulates`). A compiled program is a stage for each of its sections, so a run of the script ends
as the script does, and a call of a function gives what its body comes to.
-/

namespace ScriptMachine

open Compile Heap Listing Machine Meaning

namespace Stage

variable (Z : Stage)

/-- The code of a task does what leads to a completion. -/
def Simulates (site : Site) (env : ScopeId) (h : Heap) (c : Completion) (h' : Heap) : Task → Prop
  | .stmt s => Z.Direct site env (.stmt · s) s.nodes h c h'
  | .stmts ss => Z.Direct site env (.stmts · ss) (stmtsNodes ss) h c h'
  | .option s => Z.Direct site env (.stmtOption · s) (stmtOptionNodes s) h c h'
  | .scoped ss => Z.Scoped site env ss h c h'
  | .loop test update body => Z.Loops site env test update body h c h'
  | .guarded ss handler => Z.Guards site env ss handler h c h'
  | .handler handler thrown => Z.Handles site env handler thrown h c h'
  | .final final => Z.Finishes site env final h c h'

variable {Z} {site : Site} {env : ScopeId} {task : Task} {h h' : Heap} {c : Completion}

/-- **Simulation**: the code of a task does what the task means. The induction is over the rules of the
meaning; each rule has its own piece of code. -/
theorem simulates (hr : Runs Z.world site env task h c h') : Z.Simulates site env h c h' task := by
  induction hr with
  | nil => exact direct_nil
  | cons _ _ ihs ihrest => exact direct_cons ihs ihrest
  | stop _ hc ih => exact direct_stop ih hc
  | absent => exact direct_absent
  | present _ ih => exact direct_present ih
  | «scoped» _ ih => exact scoped_of_direct ih
  | expr hx => exact direct_stmt (direct_expr hx)
  | exprThrows hx => exact direct_stmt (direct_exprThrows hx)
  | var hx => exact direct_stmt (direct_var hx)
  | varThrows hx => exact direct_stmt (direct_varThrows hx)
  | block _ ih => exact direct_stmt (direct_block ih)
  | function => exact direct_stmt direct_function
  | «class» => exact direct_stmt direct_class
  | empty => exact direct_stmt direct_empty
  | yes hx hw _ ih =>
    exact direct_stmt (direct_yes hx hw ih (fun n hn => by simp [StmtKind.parts, hn])
      (fun n hn => by simp [StmtKind.parts, hn]))
  | no hx hw _ ih =>
    exact direct_stmt (direct_no hx hw ih (fun n hn => by simp [StmtKind.parts, hn])
      (fun n hn => by simp [StmtKind.parts, hn]))
  | testThrows hx => exact direct_stmt (direct_testThrows hx (fun n hn => by simp [StmtKind.parts, hn]))
  | «while» _ ih => exact direct_stmt (direct_while ih)
  | «for» _ _ ihinit ihloop => exact direct_stmt (direct_for ihinit ihloop)
  | forStops _ hc ih => exact direct_stmt (direct_forStops ih hc)
  | loopDone hx hw => exact loops_done hx hw
  | loopThrows hx => exact loops_throws hx
  | loopNext hx hw _ hc hu _ ihbody ihloop => exact loops_next hx hw ihbody hc hu ihloop
  | updateThrows hx hw _ hc hu ihbody => exact loops_updateThrows hx hw ihbody hc hu
  | loopBreak hx hw _ ih => exact loops_break hx hw ih
  | loopLeft hx hw _ hc ih => exact loops_left hx hw ih hc
  | «break» hl => exact direct_stmt (direct_break hl)
  | «continue» hl => exact direct_stmt (direct_continue hl)
  | ret hb hx => exact direct_stmt (direct_ret hb hx)
  | retThrows hb hx => exact direct_stmt (direct_retThrows hb hx)
  | throw hx => exact direct_stmt (direct_throw hx)
  | throwThrows hx => exact direct_stmt (direct_throwThrows hx)
  | «try» _ _ ihguarded ihfinal => exact direct_stmt (direct_try ihguarded ihfinal)
  | unharmed _ hn ih => exact guards_unharmed ih hn
  | caught _ _ ihbody ihhandler => exact guards_caught ihbody ihhandler
  | noHandler => exact handles_none
  | handler _ ih => exact handles_plain ih
  | handlerParam _ ih => exact handles_param ih
  | noFinal => exact finishes_none
  | final _ ih => exact finishes_some ih

end Stage

/-! ### Runs -/

namespace Machine

variable {v v' m : Machine}

/-- Only stepping depends on whether the machine has just started. -/
theorem tick_run (first : Bool) (m : Machine) : m.tick .run first = m.tick .run true := by
  simp only [tick, reduceCtorEq, false_and, if_false]

theorem drive_run (fuel : Nat) (first : Bool) (m : Machine) :
    drive .run fuel first m = drive .run fuel true m := by
  cases fuel with
  | zero => rfl
  | succ fuel => simp only [drive, tick_run first]

theorem Steps.drive {r : Except Fault Stop × Machine} (hs : Steps v v')
    (hd : ∃ fuel, drive .run fuel true v' = some r) : ∃ fuel, drive .run fuel true v = some r := by
  induction hs using Relation.ReflTransGen.head_induction_on with
  | refl => exact hd
  | head hstep _ ih =>
    obtain ⟨fuel, hfuel⟩ := ih
    refine ⟨fuel + 1, ?_⟩
    unfold Machine.drive
    rw [hstep]
    simp only
    rw [drive_run, hfuel]

theorem drive_stop {reason : Stop} (ht : v.tick .run true = .stop reason m) :
    drive .run 1 true v = some (.ok reason, m) := by
  unfold drive
  rw [ht]

theorem drive_fault {fault : Fault} (ht : v.tick .run true = .fault fault m) :
    drive .run 1 true v = some (.error fault, m) := by
  unfold drive
  rw [ht]

/-- An exception that meets no region stops the machine, which remembers it. -/
theorem Raises.reported {cause : Cause} {u : Machine} (hr : Raises v cause u) (hc : cause.isCatchable = true)
    (hS : ∀ r below frames, unwind none u.stack.entries ≠ (.region r below, frames)) :
    ∃ fuel fault m, Machine.drive .run fuel true v = some (.error fault, m) ∧
      m.lastException = some (thrownValue cause u.heap).1 ∧ m.heap = (thrownValue cause u.heap).2 := by
  obtain ⟨v₁, span, hs, ht⟩ := hr
  have hrouted : ∃ fault m, u.routed cause span = .fault fault m ∧
      m.lastException = some (thrownValue cause u.heap).1 ∧ m.heap = (thrownValue cause u.heap).2 := by
    unfold routed handle
    simp only [hc, Bool.not_true, Bool.false_eq_true, if_false, onHeap_eq]
    rcases hland : unwind none u.stack.entries with ⟨landing, frames⟩
    cases landing with
    | region r below => exact absurd hland (hS r below frames)
    | host f below => exact ⟨_, _, rfl, rfl, rfl⟩
    | bottom last =>
      refine ⟨_, _, rfl, rfl, ?_⟩
      cases last <;> rfl
  obtain ⟨fault, m, hfault, hlast, hheap⟩ := hrouted
  obtain ⟨fuel, hfuel⟩ := hs.drive ⟨1, drive_fault (ht.trans hfault)⟩
  exact ⟨fuel, fault, m, hfuel, hlast, hheap⟩

/-- A machine that nothing hinders while a body of a program runs: cycles are not limited, the stack has
room for what the code can push, and host values do not touch the scopes that the body opens. -/
structure Ample (p : Program) (m : Machine) : Prop where
  program : m.program = p
  cycles : m.config.maxCycles = none
  stack : ∀ s ∈ p.sections, m.stack.depth + s.code.size < m.config.maxStack
  hosts : m.hosts.Discreet m.heap.scopes.size
  globals : m.globals.index < m.heap.scopes.size
  fields : ∀ o, (m.heap.fields o).index < m.heap.scopes.size

/-- A machine in front of the script. -/
structure AtStart (m : Machine) : Prop where
  sectionIndex : m.sectionIndex = 0
  pc : m.pc = 0
  stack : m.stack.entries = []
  env : m.env = m.globals
  notError : m.state ≠ .error
  notDone : m.state ≠ .done

/-- What the host sees of a body: its result, or the exception that nothing caught. The heap agrees with
what the body leaves. -/
def Reports {α : Type} (base : Nat) (h : Heap) : Except Value α → Except Fault α × Machine → Prop
  | .ok a, (result, m) => result = .ok a ∧ h.Agrees base m.heap
  | .error w, (result, m) => (∃ fault, result = .error fault) ∧ m.lastException = some w ∧ h.Agrees base m.heap

end Machine

/-! ### Bodies -/

/-- A section of a compiled program as a stage. -/
def Script.stage {script : Script} {p : Program} (hc : script.compile = .ok p) {m : Machine}
    (hm : m.Ample p) (sectionIndex : Nat) : Stage where
  world := m
  sectionIndex
  base := m.heap.scopes.size
  pool := script.draft.2.constants
  constants := by
    rw [hm.program]
    exact (assemble_ok (Script.program_of_compile hc)).2.1
  labels := by
    rw [hm.program]
    exact (assemble_ok (Script.program_of_compile hc)).2.2.2
  discreet := hm.hosts
  unlimited := hm.cycles

namespace Stage

variable {Z : Stage} {kind : BodyKind} {ss : List Stmt} {L : Listing} {h' : Heap} {c : Completion}
  {S : List Entry} {v : Machine} {w : Value}

theorem has_section {s : CodeSection} (hs : Z.world.program.sections[Z.sectionIndex]? = some s)
    (hL : L.code = s.code.toList) : Z.Has 0 L.opcodes := by
  intro k op hk
  rw [Listing.opcodes, List.getElem?_map, hL, Array.getElem?_toList] at hk
  obtain ⟨i, hi, hop⟩ := Option.map_eq_some_iff.1 hk
  refine ⟨i, ?_, hop⟩
  rw [Program.instruction?, hs, Nat.zero_add]
  exact hi

/-- A machine at the beginning of a body ends as the statements of the body do. -/
theorem outcome_of_runs (hr : Runs Z.world ⟨kind, false⟩ v.env (.stmts ss) v.heap c h')
    (hy : Z.Yields (.stmts { body := kind } ss) L) (hevery : Every (·.orderly) (stmtsNodes ss))
    (hcode : Z.Has 0 L.opcodes) (hroom : S.length + L.opcodes.length ≤ Z.world.config.maxStack)
    (hshow : Z.Shows 0 S v.heap v) (hides : kind ≠ .script → Private Z.base v.heap v.env) :
    Z.Outcome kind [] S L.opcodes.length v.env v.heap h' v (among v.env (declared (stmtsNodes ss)))
      (only v.env) c := by
  have hdirect : Z.Direct ⟨kind, false⟩ v.env (.stmts · ss) (stmtsNodes ss) v.heap c h' := simulates hr
  have hplaced : Placed ⟨kind, false⟩ { body := kind } (stmtsNodes ss) :=
    ⟨rfl, nofun, hevery.append .nil, fun _ _ hm => nomatch hm⟩
  have hout := hdirect hy ⟨hplaced, hcode, hroom, hshow, hshow.env, .refl _ _ _ _⟩ ⟨rfl, hides⟩
  exact hout.to (Nat.zero_add _)

/-- No exit leads out of a script. -/
theorem Ends.of_script {pc : Nat} {env : ScopeId} {may : ScopeId → String → Prop}
    (hends : Z.Ends .script [] S pc env h' v may c) : c = .normal ∨ ∃ w, c = .throw w := by
  cases hends with
  | falls => exact .inl rfl
  | leaves _ hexit =>
    cases hexit with
    | «break» hn => cases hn
    | «continue» hn => cases hn
    | ret ho => exact absurd rfl ho
  | gives ho => exact absurd rfl ho
  | throws => exact .inr ⟨_, rfl⟩

/-- An exception that meets no region reaches the host. -/
theorem Fails.reported {cause : Cause} {u : Machine} {h₀ : Heap} (hr : Raises v cause u)
    (hc : cause.isCatchable = true) (hf : Z.Fails S h₀ u) (hw : thrownValue cause h₀ = (w, h'))
    (hS : ∀ r below frames, unwind none S ≠ (.region r below, frames)) :
    ∃ fuel fault m, drive .run fuel true v = some (.error fault, m) ∧ m.lastException = some w ∧
      h'.Agrees Z.base m.heap := by
  obtain ⟨above, hentries, habove⟩ := hf.entries
  obtain ⟨hfst, hagrees⟩ := hf.agrees.thrownValue cause
  rw [hw] at hfst hagrees
  have hunwind : unwind none u.stack.entries = unwind none S := by rw [hentries, unwind_above habove]
  obtain ⟨fuel, fault, m, hd, hlast, hheap⟩ := hr.reported hc (hunwind ▸ hS)
  exact ⟨fuel, fault, m, hd, by rw [hlast, hfst], by rw [hheap]; exact hagrees⟩

end Stage

/-- How the host sees a completion of the script. -/
def Meaning.Completion.shown : Completion → Option (Except Value RunState)
  | .normal => some (.ok .done)
  | .throw w => some (.error w)
  | _ => none

namespace Script

variable {script : Script} {p : Program} {m : Machine} {h' : Heap} {c : Completion}

theorem run_eq_drive {fuel : Nat} (hstart : m.AtStart) :
    m.run fuel = (drive .run fuel true { m with state := .running }).map fun
      | (.ok reason, m) => m.settle reason
      | (.error fault, m) => (.error fault, m) := by
  unfold Machine.run Machine.execute
  cases hs : m.state with
  | error => exact absurd hs hstart.notError
  | done => exact absurd hs hstart.notDone
  | _ => rfl

/-- The stack has room for the code of a section. -/
theorem room_of_ample {x : Nat} {s : CodeSection} {L : Listing} (hm : m.Ample p)
    (hs : p.sections[x]? = some s) (hL : L.code = s.code.toList) :
    m.stack.entries.length + L.opcodes.length < m.config.maxStack := by
  have hlen : L.opcodes.length = s.code.size := by rw [Listing.opcodes, List.length_map, hL, Array.length_toList]
  have hstack := hm.stack s (Array.mem_of_getElem? hs)
  rwa [m.stack.depth_eq, ← hlen] at hstack

/-- A run of the script ends as the script does. -/
theorem run_of_runs (hc : script.compile = .ok p) (ho : Every (·.orderly) script.nodes)
    (hm : m.Ample p) (hstart : m.AtStart)
    (hr : Runs m ⟨.script, false⟩ m.globals (.stmts script.body) m.heap c h') :
    ∃ r fuel result, c.shown = some r ∧ m.run fuel = some result ∧
      Machine.Reports m.heap.scopes.size h' r result := by
  have hsection := (sections_of_compile hc).1
  obtain ⟨L, hL, cL⟩ := emits_draft script
  have cF : (L ++ asm .unknown [.eof]).code = script.draft.1 := cL.symm
  let Z := stage hc hm 0
  have hcode : Z.Has 0 (L ++ asm .unknown [.eof]).opcodes :=
    Stage.has_section (by rw [← hm.program] at hsection; exact hsection) cF
  have hroom := room_of_ample hm hsection cF
  rw [opcodes_append, opcodes_asm] at hcode hroom
  rw [hstart.stack, List.length_nil, List.length_append, List.length_singleton] at hroom
  have hshow : Z.Shows 0 [] m.heap { m with state := .running } :=
    ⟨⟨rfl, rfl, rfl, rfl, rfl, hstart.sectionIndex⟩, hstart.pc, hstart.stack,
      .refl hm.fields (Nat.le_refl _), by rw [hstart.env]; exact hm.globals⟩
  rw [← hstart.env] at hr
  have hbody : ([] : List Entry).length + L.opcodes.length ≤ Z.world.config.maxStack := by
    show 0 + L.opcodes.length ≤ m.config.maxStack
    omega
  have hout := Stage.outcome_of_runs (v := { m with state := .running }) hr ⟨{}, _, hL, List.prefix_refl _⟩ ho
    hcode.left hbody hshow (fun hk => absurd rfl hk)
  simp only [run_eq_drive hstart]
  rcases hout.machine.of_script with rfl | ⟨w, rfl⟩
  · obtain ⟨v₁, hs, hshow₁, -, -⟩ := hout.machine.normal
    obtain ⟨i, hi, -, hstop, -⟩ := hshow₁.tick (hcode.right.to (Nat.zero_add _)) (Nat.zero_le _)
    obtain ⟨fuel, hfuel⟩ := hs.drive ⟨1, drive_stop (hstop .eof _ (dispatch_eof hi))⟩
    exact ⟨.ok .done, fuel, (.ok .done, { v₁.fetching with state := .done }), rfl, by rw [hfuel]; rfl, rfl,
      hshow₁.agrees⟩
  · obtain ⟨cause, u, h₀, hraise, hcatch, hfail, hw, -⟩ := hout.machine.throw
    obtain ⟨fuel, fault, m', hd, hlast, hagrees⟩ := hfail.reported hraise hcatch hw nofun
    exact ⟨.error w, fuel, (.error fault, m'), rfl, by rw [hd]; rfl, ⟨fault, rfl⟩, hlast, hagrees⟩

end Script

/-! ### Calls -/

/-- Only a return statement has code that ends with a return. -/
theorem Compile.Emits.ends_ret {around : Surroundings} {span : Span} {k : StmtKind} {d d' : Draft} {L : Listing}
    (h : Emits (.stmtKind around span k) d L d') (hl : L.opcodes.getLast? = some .ret) :
    ∃ value, k = .ret value := by
  cases h with
  | ret | retLeaving => exact ⟨_, rfl⟩
  | var hL => cases hL <;> simp [List.getLast?_cons] at hl
  | «try» _ _ _ hE => cases hE <;> simp [List.getLast?_cons] at hl
  | _ => simp [List.getLast?_cons] at hl

/-- Statements whose code ends with a return do not fall through. -/
theorem Compile.Emits.ne_normal {around : Surroundings} {ss : List Stmt} {d d' : Draft} {L : Listing}
    {m : Machine} {site : Site} {env : ScopeId} {h h' : Heap} {c : Completion}
    (hL : Emits (.stmts around ss) d L d') (hl : L.opcodes.getLast? = some .ret)
    (hr : Runs m site env (.stmts ss) h c h') : c ≠ .normal := by
  rintro rfl
  induction ss generalizing d L h with
  | nil =>
    cases hL with
    | stmtsNil => cases hl
  | cons s rest ih =>
    cases hL with
    | @stmtsCons _ _ _ _ A d₁ B _ hA hB =>
      cases hr with
      | stop _ hc => exact hc rfl
      | cons hs hrest =>
        rw [opcodes_append, List.getLast?_append] at hl
        cases hlast : B.opcodes.getLast? with
        | some op =>
          rw [hlast] at hl
          exact ih hB (hlast.trans hl) hrest
        | none =>
          -- what follows has no code, so the return is the first statement itself
          rw [hlast] at hl
          cases hA with
          | stmt hK =>
            rw [opcodes_stmt] at hl
            obtain ⟨value, rfl⟩ := hK.ends_ret hl
            cases hs

theorem Heap.size_defineAll (h : Heap) (s : ScopeId) (vars : List (String × Value)) :
    (h.defineAll s vars).scopes.size = h.scopes.size := by
  induction vars generalizing h with
  | nil => rfl
  | cons b rest ih => exact (ih _).trans (size_define _ _ _ _)

theorem Heap.owner_defineAll (h : Heap) (s t : ScopeId) (vars : List (String × Value)) :
    ((h.defineAll s vars).scope t).owner = (h.scope t).owner := by
  induction vars generalizing h with
  | nil => rfl
  | cons b rest ih => exact (ih _).trans (owner_define _ _ _ _ _)

namespace Machine

/-- A call opens one scope, which is nobody's. -/
theorem callScope_opens (globals : ScopeId) (receiver : Option Value) (h : Heap) :
    (callScope globals receiver h).1.index = h.scopes.size ∧
      (callScope globals receiver h).2.scopes.size = h.scopes.size + 1 ∧
      ((callScope globals receiver h).2.scope (callScope globals receiver h).1).owner = none := by
  have hchild : ∀ outer, ((h.newChild outer).2.scope (h.newChild outer).1).owner = none := fun outer => by
    rw [scope_newChild]
  unfold callScope
  split
  · exact ⟨rfl, by rw [size_define, size_newChild], by rw [owner_define, hchild]⟩
  · exact ⟨rfl, size_newChild _ _, hchild _⟩

theorem agrees_callScope {base : Nat} {h : Heap} (ha : h.Agrees base h) (globals : ScopeId)
    (receiver : Option Value) :
    (callScope globals receiver h).2.Agrees base (callScope globals receiver h).2 := by
  unfold callScope
  split
  · exact (ha.newChild _ _).define _ _ _
  · exact ha.newChild _ _

/-- A machine back where a call was made, with the value of the call. -/
structure Received (m m' : Machine) (w : Value) (h : Heap) : Prop where
  sectionIndex : m'.sectionIndex = m.sectionIndex
  pc : m'.pc = m.pc
  env : m'.env = m.env
  stack : m'.stack.entries = .value w :: m.stack.entries
  agrees : h.Agrees m.heap.scopes.size m'.heap

/-- How a call ends for the machine that makes it, by its code or by the host: with the value, or with an
exception that nothing of the function catches. -/
inductive Answers (m e : Machine) (h : Heap) : (fromHost : Bool) → Except Value Value → Prop where
  | value {w m'} : Steps e m' → Received m m' w h → Answers m e h false (.ok w)
  | toHost {w v m'} : Steps e v → v.tick .run true = .stop .hostReturn m' → Received m m' w h →
      Answers m e h true (.ok w)
  | exception {fromHost c u above} {f : Frame} : Raises e c u → c.isCatchable = true →
      u.stack.entries = above ++ .frame f :: m.stack.entries → f.fromHost = fromHost →
      (∀ entry ∈ above, entry.kind = .value ∨ entry.kind = .loop) →
      h.Agrees m.heap.scopes.size (thrownValue c u.heap).2 →
      Answers m e h fromHost (.error (thrownValue c u.heap).1)

/-- The frame of a call. -/
def callFrame (m : Machine) (callee : String) (fromHost : Bool) : Frame :=
  { returnSection := m.sectionIndex, returnPc := m.pc, env := m.env, callee, fromHost }

end Machine

namespace Stage

variable {Z : Stage} {e v : Machine} {callee : String} {fromHost : Bool} {h' : Heap} {w : Value} {pc : Nat}
  {ops : List Opcode}

/-- A value above the frame of a call is returned. -/
theorem Shows.answers (hshow : Z.Shows pc (.value w :: .frame (Z.world.callFrame callee fromHost) ::
      Z.world.stack.entries) h' v) (hc : Z.Has pc (.ret :: ops)) (hs : Steps e v)
    (hroom : Z.world.stack.entries.length + 2 ≤ Z.world.config.maxStack)
    (hbase : Z.base = Z.world.heap.scopes.size) : Answers Z.world e h' fromHost (.ok w) := by
  obtain ⟨i, hi, hnext, hstop, -⟩ := hshow.tick hc (by simp only [List.length_cons]; omega)
  have hfetch := hshow.fetching
  have hd := (hfetch.dispatch i).trans (dispatch_ret hi)
  have hreceived : Received Z.world ((v.fetching.atFrame (Z.world.callFrame callee fromHost)).onStack
      (.value w :: Z.world.stack.entries)) w h' := ⟨rfl, rfl, rfl, rfl, by rw [← hbase]; exact hfetch.agrees⟩
  cases fromHost with
  | false => exact .value (hs.trans (hnext _ hd)) hreceived
  | true => exact .toHost hs (hstop _ _ hd) hreceived

/-- An exception above the frame of a call goes to the one who made it. -/
theorem Fails.answers {cause : Cause} {u : Machine} {h₀ : Heap} (hr : Raises e cause u)
    (hc : cause.isCatchable = true)
    (hf : Z.Fails (.frame (Z.world.callFrame callee fromHost) :: Z.world.stack.entries) h₀ u)
    (hw : thrownValue cause h₀ = (w, h')) (hbase : Z.base = Z.world.heap.scopes.size) :
    Answers Z.world e h' fromHost (.error w) := by
  obtain ⟨above, hentries, habove⟩ := hf.entries
  obtain ⟨hfst, hagrees⟩ := hf.agrees.thrownValue cause
  rw [hw] at hfst hagrees
  rw [hbase] at hagrees
  rw [show w = (thrownValue cause u.heap).1 from hfst.symm]
  exact .exception hr hc hentries rfl habove hagrees

variable {kind : BodyKind} {ss : List Stmt} {L : Listing} {r : Except Value Value}

/-- What is returned, at once or on the way out, is returned to the call. -/
theorem Ends.answers {env : ScopeId} {may : ScopeId → String → Prop}
    (hends : Z.Ends kind [] (.frame (Z.world.callFrame callee fromHost) :: Z.world.stack.entries) pc env h' e
      may (.ret w)) (hroom : Z.world.stack.entries.length + 2 ≤ Z.world.config.maxStack)
    (hbase : Z.base = Z.world.heap.scopes.size) : Answers Z.world e h' fromHost (.ok w) := by
  cases hends with
  | gives _ _ hs hret hshow => exact hshow.answers hret hs hroom hbase
  | leaves hs hexit hleaving =>
    cases hexit with
    | ret =>
      obtain ⟨pc', span, K, ⟨d, d', hK, -⟩, hc, hroom', hshow⟩ := hleaving.code
      cases hK with
      | leaveZero =>
        rw [opcodes_nil, List.nil_append] at hc
        simp only [opcodes_nil, List.length_nil, List.length_cons] at hroom'
        have hfetch : Z.Does [] [(returnSlot, w)] env [.fetch returnSlot] [] (Pure.pure w : Calc Value)
            fun a => [a] := does_fetchKnown List.mem_cons_self
        obtain ⟨-, v₁, hs₁, hshow₁, -⟩ := hfetch pc' _ h' _ (Has.left (A := [_]) hc)
          (by simp only [List.length_cons, List.length_nil]; omega) hshow (hleaving.sees.weaken (List.nil_subset _))
          hleaving.knows
        exact hshow₁.answers hc.tail (hs.trans hs₁) hroom hbase

/-- A call of a function gives what its body comes to. -/
theorem answers_of_comes {d d₁ d' : Draft} {F : Listing} {span : Span}
    (hcomes : Comes Z.world kind e.env ss e.heap r h') (hL : Emits (.stmts { body := kind } ss) d L d₁)
    (hF : Emits (.finish kind span L) d₁ F d') (hpool : d'.constants.toList <+: Z.pool.toList)
    (hevery : Every (·.orderly) (stmtsNodes ss)) (hcode : Z.Has 0 F.opcodes)
    (hroom : Z.world.stack.entries.length + F.opcodes.length < Z.world.config.maxStack)
    (hshow : Z.Shows 0 (.frame (Z.world.callFrame callee fromHost) :: Z.world.stack.entries) e.heap e)
    (hides : Private Z.base e.heap e.env) (hbase : Z.base = Z.world.heap.scopes.size) :
    Answers Z.world e h' fromHost r := by
  obtain ⟨rest, hrest, hpos⟩ := hF.covers
  have hfirst : Z.Has 0 L.opcodes := by
    rw [hrest] at hcode
    exact hcode.left
  have hlen : L.opcodes.length ≤ F.opcodes.length := by
    rw [hrest, List.length_append]
    omega
  have hplain : Z.world.stack.entries.length + 2 ≤ Z.world.config.maxStack := by omega
  have hout : ∀ {c h₁}, Runs Z.world ⟨kind, false⟩ e.env (.stmts ss) e.heap c h₁ →
      Z.Outcome kind [] (.frame (Z.world.callFrame callee fromHost) :: Z.world.stack.entries) L.opcodes.length
        e.env e.heap h₁ e (among e.env (declared (stmtsNodes ss))) (only e.env) c := fun hr =>
    outcome_of_runs hr ⟨d, d₁, hL, hF.pool_prefix.trans hpool⟩ hevery hfirst
      (by rw [List.length_cons]; omega) hshow fun _ => hides
  cases hcomes with
  | returns hr => exact (hout hr).machine.answers hplain hbase
  | throws hr =>
    obtain ⟨cause, u, h₀, hraise, hcatch, hfail, hw, -⟩ := (hout hr).machine.throw
    exact hfail.answers hraise hcatch hw hbase
  | @falls h₁ _ _ hr hx =>
    have ho := hout hr
    obtain ⟨v₁, hs, hshow₁, he₁, hG₁⟩ := ho.machine.normal
    cases hF with
    | finished hlast =>
      refine absurd rfl (hL.ne_normal ?_ hr)
      rw [Listing.opcodes, List.getLast?_map]
      exact hlast
    | @unfinished _ _ _ _ D _ _ hD =>
      simp only [opcodes_append, opcodes_asm, List.append_assoc] at hcode
      simp only [opcodes_append, opcodes_asm, List.length_append, List.length_singleton] at hroom
      have hsees : Z.Sees [thisName] e.env h₁ v₁ :=
        Sees.own ⟨hshow.env, .refl _ _ _ _⟩ rfl hshow ho.script hG₁ he₁
      have hmeans : Piece.Means Z [thisName] D (.default kind span) := hD.means (fun _ hn => absurd hn List.not_mem_nil) hpool
      have hdoes := hmeans (fun _ => List.mem_cons_self) [] e.env
      have hat : Z.Has L.opcodes.length (D.opcodes ++ [.ret]) := hcode.right.to (Nat.zero_add _)
      cases r with
      | ok w =>
        obtain ⟨v₂, hs₂, hshow₂, -⟩ := hdoes.gets hx hat.left (by rw [List.length_cons]; omega) hshow₁ hsees fun _ h => absurd h List.not_mem_nil
        exact hshow₂.answers hat.right (hs.trans hs₂) hplain hbase
      | error w =>
        have hthrows : Z.Outcome kind [] (.frame (Z.world.callFrame callee fromHost) :: Z.world.stack.entries) 0
            e.env h₁ h' v₁ never never (.throw w) :=
          hdoes.throws hx hat.left (by rw [List.length_cons]; omega) hshow₁ hsees fun _ h => absurd h List.not_mem_nil
        obtain ⟨cause, u, h₀, hraise, hcatch, hfail, hw, -⟩ := hthrows.machine.throw
        exact hfail.answers (hs.raises hraise) hcatch hw hbase

end Stage

namespace Script

variable {script : Script} {p : Program} {m : Machine} {f : ScriptFunction}

/-- The body of a function of a compiled program: a node of the script has it, and calls do what it means
if its nodes are orderly. -/
structure BodyOf (script : Script) (m : Machine) (f : ScriptFunction) (kind : BodyKind) (ss : List Stmt) :
    Prop where
  borne : ∃ n ∈ script.nodes, Bears n f.name f.params kind ss
  answers : (stmtsNodes ss).all Node.orderly = true → ∀ receiver args fromHost state hostCalls r h',
    Comes m kind (enterFunction f receiver args fromHost m).env ss
      (enterFunction f receiver args fromHost m).heap r h' →
    m.Answers (enterFunction f receiver args fromHost { m with state, hostCalls }) h' fromHost r

/-- A body that was compiled is the body of its entry in the table. -/
theorem bodyOf_compiled {ok : Node → Prop} {kind : BodyKind} {ss : List Stmt} {e : Draft} {b : Body} {n : Node}
    {i : Nat} (hc : script.compile = .ok p) (hm : m.Ample p) (hb : script.draft.2.bodies[i]? = some b)
    (hcompiled : Compiled ok kind ss e b) (hpool : e.constants.toList <+: script.draft.2.constants.toList)
    (hn : n ∈ script.nodes) (hbears : Bears n b.name b.params kind ss) :
    script.BodyOf m (b.function i) kind ss := by
  obtain ⟨span, d, L, d₁, F, hL, hF, hcode⟩ := hcompiled.emits
  have hsection := (sections_of_compile hc).2 i
  rw [hb, Option.map_some] at hsection
  refine ⟨⟨n, hn, hbears⟩, fun ho receiver args fromHost state hostCalls r h' hcomes => ?_⟩
  obtain ⟨hindex, hsize, howner⟩ := callScope_opens m.globals receiver m.heap
  have hscopes : (enterFunction (b.function i) receiver args fromHost m).heap.scopes.size =
      m.heap.scopes.size + 1 := (size_defineAll _ _ _).trans hsize
  let Z := stage hc hm (i + 1)
  have hshow : Z.Shows 0 (.frame (m.callFrame b.name fromHost) :: m.stack.entries)
      (enterFunction (b.function i) receiver args fromHost m).heap
      (enterFunction (b.function i) receiver args fromHost { m with state, hostCalls }) := by
    refine ⟨⟨rfl, rfl, rfl, rfl, rfl, rfl⟩, rfl, rfl, ?_, ?_⟩
    · exact (agrees_callScope (.refl hm.fields (Nat.le_refl _)) _ _).defineAll _
    · refine Nat.lt_of_lt_of_eq ?_ hscopes.symm
      exact Nat.lt_succ_of_le (Nat.le_of_eq hindex)
  refine Stage.answers_of_comes (Z := Z) hcomes hL hF hpool (List.all_eq_true.1 ho) ?_ ?_ hshow ?_ rfl
  · exact Stage.has_section (by rw [← hm.program] at hsection; exact hsection) hcode
  · exact room_of_ample hm hsection hcode
  · exact ⟨Nat.le_of_eq hindex.symm, (owner_defineAll _ _ _ _).trans howner⟩

/-- Every function of a compiled program has a body in the script. -/
theorem exists_body (hc : script.compile = .ok p) (hm : m.Ample p) (hf : f ∈ p.functions) :
    ∃ kind ss, script.BodyOf m f kind ss := by
  rw [functions_eq hc] at hf
  obtain ⟨i, hi, rfl⟩ := Array.mem_mapIdx.1 hf
  have hb := Array.getElem?_eq_getElem hi
  have hnodes : Every (· ∈ script.nodes) script.nodes := fun _ hn => hn
  obtain ⟨kind, ss, e, hcompiled, hpool⟩ := compiled_body hnodes hb
  obtain ⟨n, hn, hbears⟩ := hcompiled.borne
  exact ⟨kind, ss, bodyOf_compiled hc hm hb hcompiled hpool hn hbears⟩

/-- Every body of the script has a function in the compiled program. -/
theorem exists_function {n : Node} {name : String} {params : List String} {kind : BodyKind} {ss : List Stmt}
    (hc : script.compile = .ok p) (hm : m.Ample p) (hn : n ∈ script.nodes) (hbears : Bears n name params kind ss) :
    ∃ f ∈ p.functions, f.params = params ∧ script.BodyOf m f kind ss := by
  obtain ⟨-, hproblems⟩ := (script.compiles_iff_problems).1 ⟨p, hc⟩
  obtain ⟨-, -, -, -, -, hbodied⟩ := script.verdict.sound (by rw [hproblems])
  obtain ⟨i, b, e, -, hb, hparams, hbears', hcompiled, hpool⟩ := hbodied n hn name params kind ss hbears
  refine ⟨b.function i, ?_, hparams, bodyOf_compiled hc hm hb hcompiled hpool hn hbears'⟩
  obtain ⟨hi, hget⟩ := Array.getElem?_eq_some_iff.1 hb
  rw [functions_eq hc]
  exact Array.mem_mapIdx.2 ⟨i, hi, by rw [hget]⟩

/-- A call by the host gives what the body of the function comes to. -/
theorem BodyOf.call {kind : BodyKind} {ss : List Stmt} {name : String} {id : Identity} {args : List Value}
    {r : Except Value Value} {h' : Heap} (hbody : script.BodyOf m f kind ss)
    (ho : (stmtsNodes ss).all Node.orderly = true) (hstate : m.state ≠ .error)
    (hlookup : m.lookup name = .ok (.function id f))
    (hcomes : Comes m kind (enterFunction f none args true m).env ss (enterFunction f none args true m).heap r h') :
    ∃ fuel result, m.call fuel name args = some result ∧ Machine.Reports m.heap.scopes.size h' r result := by
  have hanswers := hbody.answers ho none args true .running (m.hostCalls + 1) r h' hcomes
  simp only [Machine.call, hstate, if_false, hlookup]
  cases hanswers with
  | @toHost w v m' hs hstop hreceived =>
    obtain ⟨fuel, hfuel⟩ := hs.drive ⟨1, drive_stop hstop⟩
    have htop : m'.stack.top? = some (.value w) := by rw [Stack.top?, hreceived.stack]; rfl
    refine ⟨fuel, _, by rw [hfuel]; rfl, ?_⟩
    simp only [finishCall, htop]
    exact ⟨rfl, hreceived.agrees⟩
  | @exception _ cause u above g hr hc hentries hg habove hagrees =>
    have hunwind : unwind none u.stack.entries = (.host g m.stack.entries, [g]) := by
      rw [hentries, Stage.unwind_above habove, unwind, if_pos hg]
    obtain ⟨fuel, fault, m', hd, hlast, hheap⟩ :=
      hr.reported hc fun _ _ _ h => nomatch hunwind.symm.trans h
    refine ⟨fuel, _, by rw [hd]; rfl, ?_⟩
    rw [← hheap] at hagrees
    simp only [finishCall]
    split <;> exact ⟨⟨fault, rfl⟩, hlast, hagrees⟩

/-- **Compiled scripts do what scripts mean.** Where nothing hinders the machine: if the script has a
meaning, running it ends with that completion and heap; every function of the program is a body of the
script and every body a function; and a call, made by code or by the host, ends with the value or the
exception that the body comes to. -/
theorem compiled_faithfully (hc : script.compile = .ok p) (hm : m.Ample p) :
    (script.nodes.all Node.orderly = true → m.AtStart → ∀ c h',
      Runs m ⟨.script, false⟩ m.globals (.stmts script.body) m.heap c h' →
      ∃ r fuel result, c.shown = some r ∧ m.run fuel = some result ∧
        Machine.Reports m.heap.scopes.size h' r result) ∧
    (∀ f ∈ p.functions, ∃ kind ss, script.BodyOf m f kind ss) ∧
    (∀ n ∈ script.nodes, ∀ name params kind ss, Bears n name params kind ss →
      ∃ f ∈ p.functions, f.params = params ∧ script.BodyOf m f kind ss) ∧
    ∀ f kind ss, script.BodyOf m f kind ss → (stmtsNodes ss).all Node.orderly = true → m.state ≠ .error →
      ∀ name id args r h', m.lookup name = .ok (.function id f) →
      Comes m kind (enterFunction f none args true m).env ss (enterFunction f none args true m).heap r h' →
      ∃ fuel result, m.call fuel name args = some result ∧ Machine.Reports m.heap.scopes.size h' r result := by
  refine ⟨fun ho hstart c h' hr => ?_, fun f hf => exists_body hc hm hf,
    fun n hn name params kind ss hb => exists_function hc hm hn hb,
    fun f kind ss hbody ho hstate name id args r h' hlookup hcomes => hbody.call ho hstate hlookup hcomes⟩
  exact run_of_runs hc (List.all_eq_true.1 ho) hm hstart hr

/-- The body of a function that returns from a loop, but for a final part that breaks. -/
def changedMind : List Stmt :=
  [.node .unknown (.while (.node .unknown (.bool true)) (.node .unknown (.try
      [.node .unknown (.ret (some (.node .unknown (.string "inner"))))] none
      (some [.node .unknown .break])))),
    .node .unknown (.ret (some (.node .unknown (.string "outer"))))]

/-- A script that ends with an exception, beside a function. -/
def thrower : Script :=
  { body := [
      .node .unknown (.function "f" [] changedMind),
      .node .unknown (.throw (.node .unknown (.string "end")))] }

theorem thrower_compiles : ∃ p, thrower.compile = .ok p ∧ p.functions = #[⟨"f", 1, 0, []⟩] ∧
    ∀ s ∈ p.sections, s.code.size < 65536 := by
  have hchecked : thrower.compile.toOption.any (fun p =>
      p.functions == #[⟨"f", 1, 0, []⟩] && p.sections.all (·.code.size < 65536)) = true := by decide +kernel
  cases hp : thrower.compile with
  | ok p =>
    rw [hp] at hchecked
    simp only [Except.toOption, Option.any_some, Bool.and_eq_true, beq_iff_eq, Array.all_eq_true'] at hchecked
    exact ⟨p, rfl, hchecked.1, fun s hs => of_decide_eq_true (hchecked.2 s hs)⟩
  | error cause =>
    rw [hp] at hchecked
    cases hchecked

/-- The break of the final part replaces the return, and the loop is left. -/
theorem changedMind_comes (m : Machine) (env : ScopeId) (h : Heap) :
    Comes m .function env changedMind h (.ok (.string "outer")) ((h.newChild env).2.newChild env).2 := by
  have hguarded : Runs m ⟨.function, true⟩ env
      (.guarded [.node .unknown (.ret (some (.node .unknown (.string "inner"))))] none) h
      (.ret (.string "inner")) (h.newChild env).2 :=
    .unharmed (.scoped (.stop (.ret nofun rfl) nofun)) nofun
  have hfinal : Runs m ⟨.function, true⟩ env (.final (some [.node .unknown .break])) (h.newChild env).2
      .break ((h.newChild env).2.newChild env).2 :=
    .final (.scoped (.stop (.break rfl) nofun))
  exact .returns (.cons (.while (.loopBreak rfl rfl (.try hguarded hfinal))) (.stop (.ret nofun rfl) nofun))

/-- A machine that has just been loaded is ample if its stack holds the code of every section. -/
theorem ample_load {config : Config} (hcycles : config.maxCycles = none)
    (hstack : ∀ s ∈ p.sections, s.code.size < config.maxStack) :
    (Machine.load p config {} {}).Ample p where
  program := rfl
  cycles := hcycles
  stack s hs := Nat.lt_of_le_of_lt (Nat.le_of_eq (Nat.zero_add _)) (hstack s hs)
  hosts _ hn := nomatch hn
  globals := Nat.zero_lt_one
  fields _ := Nat.zero_lt_one

theorem compiled_faithfully_thrower : ∃ p fuel fuel' faulted called,
    thrower.compile = .ok p ∧
    (Machine.load p {} {} {}).run fuel = some faulted ∧ faulted.2.lastException = some (.string "end") ∧
    (Machine.load p {} {} {}).call fuel' "f" [] = some called ∧ called.1 = .ok (.string "outer") := by
  obtain ⟨p, hc, hfunctions, hsizes⟩ := thrower_compiles
  have hm : (Machine.load p {} {} {}).Ample p := ample_load rfl hsizes
  have hstart : (Machine.load p {} {} {}).AtStart := ⟨rfl, rfl, rfl, rfl, nofun, nofun⟩
  obtain ⟨hscript, -, hbodies, hcall⟩ := compiled_faithfully hc hm
  obtain ⟨r, fuel, faulted, hr, hrun, hreports⟩ := hscript (by decide +kernel) hstart _ _
    (.cons .function (.stop (.throw rfl) nofun))
  cases hr
  obtain ⟨-, hlast, -⟩ := hreports
  obtain ⟨f, hf, -, hbody⟩ := hbodies _ (List.mem_cons_self) "f" [] .function changedMind .function
  rw [hfunctions, Array.mem_singleton] at hf
  have hlookup : (Machine.load p {} {} {}).lookup "f" = .ok (.function (.declared 0) f) := by
    have hnone : ({} : Heap).newRoot.2.resolve? ({} : Heap).newRoot.1 "f" = none := by
      rw [Heap.resolve?, Heap.chain, Heap.chainFrom]
      rfl
    have hsome : p.function? "f" = some (.function (.declared 0) f) := by
      simp [Program.function?, Program.functionIndex?, Program.functionValue?, hfunctions, hf]
    simp only [Machine.lookup, Machine.load, hnone, hsome]
  obtain ⟨fuel', called, hcalled, hvalue, -⟩ := hcall f .function changedMind hbody (by decide +kernel) nofun
    "f" _ [] _ _ hlookup (changedMind_comes _ _ _)
  exact ⟨p, fuel, fuel', faulted, called, hc, hrun, hlast, hcalled, hvalue⟩

end Script

end ScriptMachine
