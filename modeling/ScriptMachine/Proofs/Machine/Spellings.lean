import ScriptMachine.Proofs.Compile.Verdict
import ScriptMachine.Proofs.Machine.Tandem

/-!
# Spellings — how a script writes property access makes no difference

Requests of a host keep machines with coupled programs abreast, so a session shows the same of both, up to the
count of instructions. Code for brackets needs one more entry on the stack for a moment, so the same is shown
within limits of its own.
-/

namespace ScriptMachine

open Compile

variable {P Q : Program}

namespace Machine

/-- Machines that stand abreast and wait for a request. They have room, and unless they have failed they are outside
of hidden scopes; if they can go on, they are where a run can go on. -/
structure AtRest (X : Coupling P Q) (σ : Side) (N : Nooks) (m M : Machine) : Prop where
  abreast : Abreast X N m M
  waiting : Waiting m
  room : σ.Room m.config M.config
  entrance : m.Live → X.Entrance m.sectionIndex m.pc
  lodges : m.state ≠ .error → X.lodges m.sectionIndex m.pc = []

namespace Side.Follows

variable {α β γ δ : Type} {σ : Side} {R : Except Fault α × Machine → Except Fault β × Machine → Prop}
  {S : Except Fault γ × Machine → Except Fault δ × Machine → Prop} {x : Option (Except Fault α × Machine)}
  {y : Option (Except Fault β × Machine)}

theorem both {a : Except Fault α × Machine} {b : Except Fault β × Machine} (h : R a b) :
    σ.Follows R (some a) (some b) := by
  cases σ with
  | dots =>
    rintro _ ⟨⟩ -
    exact ⟨b, rfl, h⟩
  | brackets =>
    rintro _ ⟨⟩ -
    exact ⟨a, rfl, h⟩

/-- Going on with results. A run that has hit a limit still says so. -/
theorem map (h : σ.Follows R x y) {f : Except Fault α × Machine → Except Fault γ × Machine}
    {g : Except Fault β × Machine → Except Fault δ × Machine} (hf : ∀ a, HitsLimit a.1 → HitsLimit (f a).1)
    (hg : ∀ b, HitsLimit b.1 → HitsLimit (g b).1)
    (hS : ∀ a b, x = some a → y = some b → R a b → S (f a) (g b)) : σ.Follows S (x.map f) (y.map g) := by
  cases σ with
  | dots =>
    intro c hc hlimit
    obtain ⟨a, ha, rfl⟩ := Option.map_eq_some_iff.1 hc
    obtain ⟨b, hb, hR⟩ := h a ha fun hhit => hlimit (hf a hhit)
    exact ⟨g b, by rw [hb]; rfl, hS a b ha hb hR⟩
  | brackets =>
    intro c hc hlimit
    obtain ⟨b, hb, rfl⟩ := Option.map_eq_some_iff.1 hc
    obtain ⟨a, ha, hR⟩ := h b hb fun hhit => hlimit (hg b hhit)
    exact ⟨f a, by rw [ha]; rfl, hS a b ha hb hR⟩

/-- Results that are known to be related in another way. -/
theorem imp {R' : Except Fault α × Machine → Except Fault β × Machine → Prop} (h : σ.Follows R x y)
    (hR : ∀ a b, x = some a → y = some b → R a b → R' a b) : σ.Follows R' x y := by
  simpa using h.map (f := id) (g := id) (fun _ => id) (fun _ => id) hR

end Side.Follows

/-! ### Runs and calls -/

theorem HitsLimit.answered {r : Except Fault Stop × Machine} (h : HitsLimit r.1) : HitsLimit (answered r).1 := by
  obtain ⟨fault | reason, m⟩ := r
  · exact h
  · exact h.elim

theorem HitsLimit.finishCall {saved : RunState} {result : Except Fault Stop} {m : Machine} (h : HitsLimit result) :
    HitsLimit (finishCall saved (result, m)).1 := by
  cases result with
  | ok => exact h.elim
  | error fault => exact h

/-- A request that stops machines for good. -/
theorem Concurs.fatal {α β : Type} {X : Coupling P Q} {S : Nooks → Machine → Machine → Prop}
    {R : Machine → α → β → Prop} {N : Nooks} {m M : Machine} {c : Cause} (hm : Abreast X N m M)
    (hS : Abreast X N (m.fatal c none).2 (M.fatal (c.repooled X.pool) none).2 →
      S N (m.fatal c none).2 (M.fatal (c.repooled X.pool) none).2) :
    Concurs X S R (.error (m.fatal c none).1, (m.fatal c none).2)
      (.error (M.fatal (c.repooled X.pool) none).1, (M.fatal (c.repooled X.pool) none).2) := by
  obtain ⟨hend, hfault⟩ := hm.fatal c none
  rw [hfault]
  exact .error _ (hS hend)

namespace AtRest

variable {X : Coupling P Q} {σ : Side} {N : Nooks} {m M m' M' : Machine}

/-- Machines that have failed. -/
theorem of_error (hm : Abreast X N m M) (hw : Waiting m) (hr : σ.Room m.config M.config) (h : m.state = .error) :
    AtRest X σ N m M := ⟨hm, hw, hr, fun hlive => absurd h hlive.1, fun hne => absurd h hne⟩

/-- **Running and stepping** keep machines abreast. -/
theorem execute (hm : AtRest X σ N m M) (mode : Mode) (fuel : Nat) :
    σ.Follows (Concurs X (AtRest X σ) fun _ a b => b = a) (m.execute mode fuel) (M.execute mode (σ.fuel fuel)) := by
  have hstate := hm.abreast.state
  by_cases hlive : m.Live
  · have hlive' : M.Live := by rwa [Live, hstate]
    have hawake : Abreast X N m.awake M.awake := { hm.abreast with state := rfl }
    have hdrive := hawake.drive (hm.entrance hlive) hm.room mode fuel true
    rw [execute_eq hlive, execute_eq hlive']
    refine hdrive.map (fun _ => HitsLimit.answered) (fun _ => HitsLimit.answered) fun a b ha hb hab => ?_
    have hx : m.execute mode fuel = some (answered a) := by rw [execute_eq hlive, ha, Option.map_some]
    have hx' : M.execute mode (σ.fuel fuel) = some (answered b) := by rw [execute_eq hlive', hb, Option.map_some]
    obtain ⟨hwaiting, hfailed⟩ := hm.waiting.execute hx
    have hroom := hm.room.fixed (fixed_execute hx) (fixed_execute hx')
    cases hab with
    | @ok _ _ reason u U hu hhalts =>
      obtain ⟨heq, hentrance, hlodges⟩ := hhalts
      subst heq
      cases reason with
      | hostReturn =>
        exact Concurs.fatal (c := .invariant .strayHostReturn) hu fun hend => of_error hend hwaiting hroom rfl
      | eof =>
        exact .ok ⟨{ hu with state := rfl }, hwaiting, hroom, fun h => absurd rfl h.2, fun _ => hlodges (by decide)⟩ rfl
      | breakpoint | boundary =>
        exact .ok ⟨{ hu with state := rfl }, hwaiting, hroom, fun _ => hentrance rfl, fun _ => hlodges (by decide)⟩ rfl
    | error fault hu => exact .error fault (of_error hu hwaiting hroom (hfailed.1 ⟨_, rfl⟩))
  · unfold Machine.execute
    rw [hstate]
    cases hs : m.state with
    | error => exact .both (.error { cause := .halted } hm)
    | done => exact .both (.ok hm rfl)
    | ready | running | paused => exact absurd ⟨by simp [hs], by simp [hs]⟩ hlive

/-- A call leaves machines where they were, unless it has made them fail. -/
theorem called (hm : AtRest X σ N m M) {N' : Nooks} {fuel fuel' : Nat} {name : String} {args args' : List Value}
    {r r' : Except Fault Value} (h : m.call fuel name args = some (r, m')) (h' : M.call fuel' name args' = some (r', M'))
    (hm' : Abreast X N' m' M') : AtRest X σ N' m' M' := by
  have hstays := ((call_transparent m name args).1 _ _ _ h).2
  have hroom := hm.room.fixed (fixed_call h) (fixed_call h')
  refine ⟨hm', (hm.waiting.call h).1, hroom, fun hlive => ?_, fun hne => ?_⟩
  · have heq := hstays hlive.1
    rw [heq] at hlive ⊢
    exact hm.entrance hlive
  · have heq := hstays hne
    rw [heq] at hne ⊢
    exact hm.lodges hne

end AtRest

/-- What a call gives once its function has stopped. -/
theorem Abreast.finishCall {X : Coupling P Q} {a b : Except Fault Stop × Machine} (saved : RunState)
    (h : Concurs X (Abreast X) (Abreast.Halts X) a b) :
    Concurs X (Abreast X) (fun _ v w => w = v.repooled X.pool)
      (Machine.finishCall saved (a.1, { a.2 with hostCalls := a.2.hostCalls - 1 }))
      (Machine.finishCall saved (b.1, { b.2 with hostCalls := b.2.hostCalls - 1 })) := by
  cases h with
  | @error N fault u U hu =>
    have hback : Abreast X N { u with hostCalls := u.hostCalls - 1 } { U with hostCalls := U.hostCalls - 1 } :=
      { hu with hostCalls := by simp only [hu.hostCalls] }
    simp only [Machine.finishCall, hu.state]
    refine .error (N := N) _ ?_
    split <;> exact { hback with state := rfl }
  | @ok N _ reason u U hu hhalts =>
    have heq := hhalts.eq
    subst heq
    have hback : Abreast X N { u with hostCalls := u.hostCalls - 1 } { U with hostCalls := U.hostCalls - 1 } :=
      { hu with hostCalls := by simp only [hu.hostCalls] }
    cases reason with
    | eof | breakpoint | boundary => exact Concurs.fatal (c := .invariant (.hostCallEnded _)) hback id
    | hostReturn =>
      have hdropped : Abreast X N { u with hostCalls := u.hostCalls - 1, stack := u.stack.drop, state := saved }
          { U with hostCalls := U.hostCalls - 1, stack := U.stack.drop, state := saved } :=
        { hback.dropped with state := rfl }
      simp only [finishCall_returned, hu.top]
      rcases u.stack.top? with _ | (v | f | r | env)
      · exact .error ⟨.invariant (.unexpectedEntry "pop" .value none), none⟩ hdropped
      · exact .ok hdropped rfl
      · exact .error ⟨.invariant (.unexpectedEntry "pop" .value (some .frame)), none⟩ hdropped
      · exact .error ⟨.invariant (.unexpectedEntry "pop" .value (some .region)), none⟩ hdropped
      · exact .error ⟨.invariant (.unexpectedEntry "pop" .value (some .loop)), none⟩ hdropped

namespace AtRest

variable {X : Coupling P Q} {σ : Side} {N : Nooks} {m M m' M' : Machine}

/-- **A call by the host** keeps machines abreast. -/
theorem call (hm : AtRest X σ N m M) (fuel : Nat) (name : String) (args : List Value) :
    σ.Follows (Concurs X (AtRest X σ) fun _ v w => w = v.repooled X.pool) (m.call fuel name args)
      (M.call (σ.fuel fuel) name (args.map (·.repooled X.pool))) := by
  by_cases herror : m.state = .error
  · rw [call_of_error herror, call_of_error (hm.abreast.state.trans herror)]
    exact .both (.error { cause := .halted } hm)
  · have hlookup : Replies X.pool (Value.Repools X.pool) (m.lookup name) (M.lookup name) :=
      hm.abreast.lookup (.inl (hm.lodges herror))
    have hcalled : σ.Follows (Concurs X (Abreast X) fun _ v w => w = v.repooled X.pool) (m.call fuel name args)
        (M.call (σ.fuel fuel) name (args.map (·.repooled X.pool))) := by
      unfold Machine.call
      rw [hm.abreast.state, if_neg herror, if_neg herror]
      revert hlookup
      generalize m.lookup name = r, M.lookup name = r'
      intro hlookup
      cases hlookup with
      | error c => exact .both (.error { cause := c } hm.abreast)
      | @ok callee callee' hcallee =>
        subst hcallee
        cases callee with
        | function id f =>
          have hstart : Abreast X N { m with state := .running, hostCalls := m.hostCalls + 1 }
              { M with state := .running, hostCalls := M.hostCalls + 1 } :=
            { hm.abreast with state := rfl, hostCalls := by simp only [hm.abreast.hostCalls] }
          have hentered := hstart.enterFunction f none args true fun h => Bool.noConfusion h
          have hdrive := hentered.drive (.inl rfl) (σ := σ) hm.room .run fuel true
          exact hdrive.map (fun _ => HitsLimit.finishCall) (fun _ => HitsLimit.finishCall) fun a b _ _ hab =>
            Abreast.finishCall m.state hab
        | native handle =>
          simp only [Value.repooled_native]
          split
          · obtain ⟨hcall, hanswers⟩ := hm.abreast.callNative handle none args
            revert hcall hanswers
            simp only [Option.map_none]
            generalize callNative handle none args m = c, callNative handle none (args.map (·.repooled X.pool)) M = c'
            obtain ⟨result, u⟩ := c
            obtain ⟨result', U⟩ := c'
            intro hcall hanswers
            cases hanswers with
            | ok hv => exact .both (.ok hcall hv)
            | error c => exact .both (.error { cause := c } hcall)
          · exact .both (.error { cause := .notCallable .native } hm.abreast)
        | _ => exact .both (.error { cause := .notCallable _ } hm.abreast)
    refine hcalled.imp fun a b ha hb hab => ?_
    cases hab with
    | ok hm' hR => exact .ok (hm.called ha hb hm') hR
    | error fault hm' => exact .error fault (hm.called ha hb hm')

end AtRest

end Machine

/-! ### Operations -/

/-- Whether a value is a pattern from the pool of constants of a program. -/
def Value.isPooled : Value → Bool
  | .regex (.pooled _) _ => true
  | _ => false

theorem Value.repooled_of_not_pooled {v : Value} (h : v.isPooled = false) (f : Nat → Nat) : v.repooled f = v := by
  cases v with
  | regex id pattern =>
    cases id with
    | pooled => cases h
    | declared | made => rfl
  | _ => rfl

/-- An operand that is no pattern from the pool of a program, or is what the machine gives. -/
def Operand.isImpartial : Operand → Bool
  | .own v => !v.isPooled
  | _ => true

/-- An operation that passes no pattern from the pool of a program, and adds no host value that could see numbers of
constants or hidden scopes. -/
def Operation.Impartial : Operation → Prop
  | .call _ _ args => ∀ a ∈ args, a.isImpartial = true
  | .define _ v => v.isImpartial = true
  | .add native => native.Indifferent
  | .work native args => native.Indifferent ∧ ∀ a ∈ args, a.isImpartial = true
  | .run _ | .step _ | .reset | .register _ _ => True

/-- An operation with as much fuel. -/
def Operation.fueled (fuel : Nat) : Operation → Operation
  | .run _ => .run fuel
  | .step _ => .step fuel
  | .call _ name args => .call fuel name args
  | op => op

/-- A numbering of constants for an answer. -/
def Answer.repooled (f : Nat → Nat) (a : Answer Value) : Answer Value := a.map (·.repooled f)

namespace Machine

namespace AtRest

variable {X : Coupling P Q} {σ : Side} {N : Nooks} {m M m' M' : Machine} {answers : List Value}

theorem getGlobal? (hm : Abreast X N m M) (name : String) :
    M.getGlobal? name = (m.getGlobal? name).map (·.repooled X.pool) := by
  rw [Machine.getGlobal?, Machine.getGlobal?, hm.globals]
  exact hm.beside.getLocal? (Nooks.not_hidden.2 hm.global.1) name

theorem operand (hm : Abreast X N m M) {a : Operand} (ha : a.isImpartial = true) :
    M.operand (answers.map (·.repooled X.pool)) a = (m.operand answers a).repooled X.pool := by
  cases a with
  | own v =>
    have hv : v.isPooled = false := by simpa [Operand.isImpartial] using ha
    exact (Value.repooled_of_not_pooled hv X.pool).symm
  | answer index =>
    simp only [Machine.operand, List.getElem?_map]
    cases answers[index]? <;> rfl
  | global name =>
    simp only [Machine.operand, getGlobal? hm]
    cases m.getGlobal? name <;> rfl
  | exception =>
    simp only [Machine.operand, hm.exception]
    cases m.lastException <;> rfl

theorem operands (hm : Abreast X N m M) {args : List Operand} (ha : ∀ a ∈ args, a.isImpartial = true) :
    args.map (M.operand (answers.map (·.repooled X.pool))) =
      (args.map (m.operand answers)).map (·.repooled X.pool) := by
  rw [List.map_map]
  exact List.map_congr_left fun a hmem => operand hm (ha a hmem)

/-- A machine that starts over. -/
theorem reset (hm : AtRest X σ N m M) : AtRest X σ N m.reset M.reset := by
  have h := hm.abreast
  obtain ⟨hroot, hplain, hstep⟩ := h.beside.newRoot
  have hlodged : Heap.Lodged N m.reset.heap M.reset.heap [] m.reset.globals :=
    ⟨Nooks.not_hidden.1 hplain, by simp [Machine.reset, Heap.newRoot, Heap.newScope]⟩
  have habreast : Abreast X N m.reset M.reset :=
    { program := h.program, program' := h.program', entries := rfl, sectionIndex := rfl, pc := rfl, env := hroot
      globals := hroot, state := rfl, registry := h.registry, hosts := h.hosts, log := h.log, hostCalls := rfl
      exception := rfl, grounds := hstep.grounds h.grounds, global := hlodged
      lodged := by rw [show X.lodges m.reset.sectionIndex m.reset.pc = [] from X.lodges_zero 0]; exact hlodged
      housed := fun _ he => absurd he List.not_mem_nil, indifferent := h.indifferent }
  exact ⟨habreast, waiting_reset m, hm.room, fun _ => .inl rfl, fun _ => X.lodges_zero 0⟩

/-- What a host does beside a run. -/
theorem beside (hm : AtRest X σ N m M) {h' H' : Heap} (hi : Heap.InStep X.pool N.Hidden m.heap M.heap h' H') :
    AtRest X σ N { m with heap := h' } { M with heap := H' } :=
  ⟨hm.abreast.onHeap hi, ⟨hm.waiting.rests, hm.waiting.hostCalls, hm.waiting.hostFree⟩, hm.room, hm.entrance, hm.lodges⟩

/-- **Operations** keep machines abreast. -/
theorem perform (hm : AtRest X σ N m M) {op : Operation} (hop : op.Impartial) (fuel : Nat) :
    σ.Follows (Concurs X (AtRest X σ) fun _ a b => b = a.repooled X.pool) (m.perform answers (op.fueled fuel))
      (M.perform (answers.map (·.repooled X.pool)) (op.fueled (σ.fuel fuel))) := by
  have hkeep : ∀ {α : Type} (g : α → Answer Value) (a : Except Fault α × Machine), HitsLimit a.1 →
      HitsLimit (a.1.map g) := by
    rintro α g ⟨fault | a, m⟩ h
    · exact h
    · exact h.elim
  cases op with
  | run fuel' | step fuel' =>
    refine (hm.execute _ fuel).map (fun a => hkeep .state a) (fun a => hkeep .state a) fun a b _ _ hab => ?_
    cases hab with
    | ok hm' hR => exact .ok hm' (congrArg Answer.state hR)
    | error fault hm' => exact .error fault hm'
  | call fuel' name args =>
    have hcall := hm.call fuel name (args.map (m.operand answers))
    rw [← operands hm.abreast hop] at hcall
    refine hcall.map (fun a => hkeep .value a) (fun a => hkeep .value a) fun a b _ _ hab => ?_
    cases hab with
    | ok hm' hR => exact .ok hm' (congrArg Answer.value hR)
    | error fault hm' => exact .error fault hm'
  | define name v =>
    have hend := hm.beside (hm.abreast.beside.define (Nooks.not_hidden.2 hm.abreast.global.1) name (m.operand answers v))
    have hheap : (M.defineGlobal name (M.operand (answers.map (·.repooled X.pool)) v)) =
        { M with heap := M.heap.define m.globals name ((m.operand answers v).repooled X.pool) } := by
      rw [← operand hm.abreast hop, ← hm.abreast.globals]
      rfl
    simp only [Operation.fueled, Machine.perform, hheap]
    exact .both (.ok hend rfl)
  | reset => exact .both (.ok hm.reset rfl)
  | add native =>
    have hhosts : (m.addHost native).2.hosts.Indifferent := fun n hn => by
      rcases Array.mem_push.1 hn with hn | rfl
      · exact hm.abreast.indifferent n hn
      · exact hop
    have hadded : AtRest X σ N (m.addHost native).2 (M.addHost native).2 :=
      ⟨{ hm.abreast with hosts := by simp only [Machine.addHost, hm.abreast.hosts], indifferent := hhosts },
        ⟨hm.waiting.rests, hm.waiting.hostCalls, hm.waiting.hostFree⟩, hm.room, hm.entrance, hm.lodges⟩
    have hhandle : (M.addHost native).1 = (m.addHost native).1 := by simp only [Machine.addHost, hm.abreast.hosts]
    simp only [Operation.fueled, Machine.perform, hhandle]
    exact .both (.ok hadded rfl)
  | register name handle =>
    simp only [Operation.fueled, Machine.perform, Machine.register, Registry.register]
    by_cases hname : name.isEmpty = true
    · simp only [if_pos hname]
      exact .both (.error { cause := .native _ } hm)
    · simp only [if_neg hname]
      exact .both (.ok ⟨{ hm.abreast with registry := by simp only [hm.abreast.registry] },
        ⟨hm.waiting.rests, hm.waiting.hostCalls, hm.waiting.hostFree⟩, hm.room, hm.entrance, hm.lodges⟩ rfl)
  | work native args =>
    have hcall := hop.1.call X.pool N.Hidden m.heap M.heap none (args.map (m.operand answers)) X.pool_injective
      hm.abreast.beside
    rw [← operands hm.abreast hop.2] at hcall
    simp only [Operation.fueled, Machine.perform]
    revert hcall
    generalize native.call none (args.map (m.operand answers)) m.heap = made
    simp only [Option.map_none]
    generalize native.call none (args.map (M.operand (answers.map (·.repooled X.pool)))) M.heap = made'
    obtain ⟨result, h', log⟩ := made
    obtain ⟨result', H', log'⟩ := made'
    rintro ⟨hheap, hresult, -⟩
    cases hresult with
    | ok hv => exact .both (.ok (hm.beside hheap) (congrArg Answer.value hv))
    | error c => exact .both (.error { cause := c } (hm.beside hheap))

end AtRest

end Machine

/-! ### Reports -/

/-- What is shown of a value, apart from the number that a pattern has among the constants. -/
def Shown.gist (s : Shown) : Shown := { s with plain := s.plain.map (·.repooled fun _ => 0) }

/-- What is shown of a fault, apart from numbers of constants. -/
def Complaint.gist (c : Complaint) : Complaint := { c with cause := c.cause.map Shown.gist id }

/-- A report apart from the count of instructions and from numbers of constants. -/
def Report.gist (r : Report) : Report where
  result := match r.result with
    | .ok a => .ok (a.map Shown.gist)
    | .error c => .error c.gist
  state := r.state
  depth := r.depth
  cycles := 0
  lines := r.lines
  exception := r.exception.map Shown.gist
  globals name := (r.globals name).map Shown.gist

section Gist

variable {f : Nat → Nat} {hidden : ScopeId → Prop} {h H : Heap}

theorem gist_shown (hb : Heap.Beside f hidden h H) (v : Value) : ((v.repooled f).shown H).gist = (v.shown h).gist := by
  simp only [Value.shown, Shown.gist, Value.kind_repooled, hb.text, hb.inspect, Value.isPortable_repooled]
  split
  · rw [Option.map_some, Option.map_some, Value.repooled_repooled]
    rfl
  · rfl

theorem gist_complaint (hb : Heap.Beside f hidden h H) (fault : Fault) :
    ((fault.repooled f).shown H).gist = (fault.shown h).gist := by
  obtain ⟨c, trace⟩ := fault
  simp only [Fault.shown, Fault.repooled, Complaint.gist, hb.causeMessage]
  cases c with
  | thrown v => simp only [Cause.repooled, Sum.map_inl, gist_shown hb]
  | _ => rfl

end Gist

namespace Machine

/-- Operations, one after the other, that all end within the limits: what a host sees of them, and the machine and the
values in hand that they lead to. -/
inductive Session : Machine → List Value → List Operation → List Report → Machine → List Value → Prop where
  | nil {m answers} : Session m answers [] [] m answers
  | cons {m answers op ops x reports m' answers'} : m.perform answers op = some x → ¬ HitsLimit x.1 →
      Session x.2 (answers ++ [obtained x.1]) ops reports m' answers' →
      Session m answers (op :: ops) (m.report x.1 x.2 :: reports) m' answers'

theorem Session.session {m m' : Machine} {answers answers' : List Value} {ops : List Operation} {reports : List Report}
    (h : Session m answers ops reports m' answers') : m.session answers ops = reports := by
  induction h with
  | nil => rfl
  | cons hx _ _ ih =>
    rw [Machine.session, hx]
    exact congrArg _ ih

/-- More fuel does not change what an operation gives. -/
theorem perform_mono {m : Machine} {answers : List Value} {op : Operation} {n n' : Nat}
    {x : Except Fault (Answer Value) × Machine} (h : m.perform answers (op.fueled n) = some x) (hle : n ≤ n') :
    m.perform answers (op.fueled n') = some x := by
  have hmap : ∀ {α : Type} {mode first} {v : Machine} {f : Except Fault Stop × Machine → α} {a : α},
      (drive mode n first v).map f = some a → (drive mode n' first v).map f = some a := fun ha => by
    obtain ⟨r, hr, rfl⟩ := Option.map_eq_some_iff.1 ha
    rw [drive_mono hr hle, Option.map_some]
  have hexecute : ∀ {mode r}, m.execute mode n = some r → m.execute mode n' = some r := fun hr => by
    unfold Machine.execute at hr ⊢
    split at hr
    · exact hr
    · exact hr
    · exact hmap hr
  have hcall : ∀ {name args r}, m.call n name args = some r → m.call n' name args = some r := fun {name} _ _ hr => by
    unfold Machine.call at hr ⊢
    by_cases herror : m.state = .error
    · rwa [if_pos herror] at hr ⊢
    · rw [if_neg herror] at hr ⊢
      cases hl : m.lookup name with
      | error c => rwa [hl] at hr
      | ok callee =>
        rw [hl] at hr
        cases callee with
        | function id g => exact hmap hr
        | _ => exact hr
  cases op with
  | run | step | call =>
    obtain ⟨r, hr, rfl⟩ := Option.map_eq_some_iff.1 h
    exact Option.map_eq_some_iff.2 ⟨r, by first | exact hexecute hr | exact hcall hr, rfl⟩
  | _ => exact h

theorem Session.mono {m m' : Machine} {answers answers' : List Value} {ops : List Operation} {reports : List Report}
    {n n' : Nat} (h : Session m answers (ops.map (·.fueled n)) reports m' answers') (hle : n ≤ n') :
    Session m answers (ops.map (·.fueled n')) reports m' answers' := by
  induction ops generalizing m answers reports with
  | nil => exact h
  | cons op rest ih =>
    cases h with
    | cons hx hlimit hs => exact .cons (perform_mono hx hle) hlimit (ih hs)

/-- A machine in the midst of an operation, after as many instructions as there is fuel. -/
def underway (m : Machine) (answers : List Value) : Operation → Option Machine
  | .run fuel => if m.Live then afterTicks .run fuel true m.awake else none
  | .step fuel => if m.Live then afterTicks .step fuel true m.awake else none
  | .call fuel name args =>
    if m.state = .error then none
    else
      match m.lookup name with
      | .ok (.function _ g) => afterTicks .run fuel true (m.entered g (args.map (m.operand answers)))
      | _ => none
  | _ => none

namespace Concurs

variable {X : Coupling P Q} {σ : Side} {S : Nooks → Machine → Machine → Prop}

theorem hitsLimit {α β : Type} {R : Machine → α → β → Prop} {a : Except Fault α × Machine} {b : Except Fault β × Machine}
    (h : Concurs X S R a b) : HitsLimit b.1 ↔ HitsLimit a.1 := by
  cases h with
  | ok => exact .rfl
  | error fault =>
    obtain ⟨c, trace⟩ := fault
    cases c <;> exact .rfl

variable {a b : Except Fault (Answer Value) × Machine}

/-- What a host has in hand. -/
theorem obtained (h : Concurs X S (fun _ a b => b = a.repooled X.pool) a b) :
    obtained b.1 = (obtained a.1).repooled X.pool := by
  cases h with
  | @ok _ a _ _ _ _ hR =>
    subst hR
    cases a <;> rfl
  | @error _ fault =>
    obtain ⟨c, trace⟩ := fault
    cases c <;> rfl

/-- What a host sees. -/
theorem gist {before before' : Machine} (hlog : before'.log = before.log)
    (h : Concurs X (AtRest X σ) (fun _ a b => b = a.repooled X.pool) a b) :
    (before'.report b.1 b.2).gist = (before.report a.1 a.2).gist := by
  have hrest : ∀ {N : Nooks} {m M : Machine} {r r' : Except Fault (Answer Value)}, Abreast X N m M →
      (match shownResult M.heap r' with
        | .ok a => .ok (a.map Shown.gist)
        | .error c => .error c.gist : Except Complaint (Answer Shown)) =
      (match shownResult m.heap r with
        | .ok a => .ok (a.map Shown.gist)
        | .error c => .error c.gist) →
      (before'.report r' M).gist = (before.report r m).gist := fun hm hr => by
    simp only [report, Report.gist, hr, hm.state, hm.depth, hm.log, hlog, hm.exception, AtRest.getGlobal? hm,
      Option.map_map, Function.comp_def, gist_shown hm.beside]
  cases h with
  | @ok _ a _ m M hm hR =>
    subst hR
    refine hrest hm.abreast ?_
    cases a with
    | value v => exact congrArg (fun x => Except.ok (Answer.value x)) (gist_shown hm.abreast.beside v)
    | state | nothing => rfl
  | @error _ fault m M hm => exact hrest hm.abreast (congrArg Except.error (gist_complaint hm.abreast.beside fault))

end Concurs

/-! ### Sessions -/

namespace AtRest

variable {X : Coupling P Q} {σ : Side} {N : Nooks} {m M m' M' : Machine} {answers ends : List Value}
  {ops : List Operation} {reports : List Report}

theorem of_concurs {R : Machine → Answer Value → Answer Value → Prop} {a b : Except Fault (Answer Value) × Machine}
    (h : Concurs X (AtRest X σ) R a b) : ∃ N, AtRest X σ N a.2 b.2 := by
  cases h with
  | ok h => exact ⟨_, h⟩
  | error _ h => exact ⟨_, h⟩

/-- **A session** with code for dots that ends, ends with code for brackets as well, and shows the same. The induction
is on its operations. -/
theorem session_dots (hm : AtRest X .dots N m M) (hops : ∀ op ∈ ops, op.Impartial) {fuel : Nat}
    (h : Session m answers (ops.map (·.fueled fuel)) reports m' ends) : ∃ reports' M' N',
      Session M (answers.map (·.repooled X.pool)) (ops.map (·.fueled (4 * fuel))) reports' M'
        (ends.map (·.repooled X.pool)) ∧
      reports'.map Report.gist = reports.map Report.gist ∧ AtRest X .dots N' m' M' := by
  induction ops generalizing N m M answers reports with
  | nil =>
    cases h
    exact ⟨[], M, N, .nil, rfl, hm⟩
  | cons op rest ih =>
    obtain ⟨hop, hrest⟩ := List.forall_mem_cons.1 hops
    cases h with
    | @cons _ _ _ _ a reports _ _ ha hlimit hs =>
      obtain ⟨b, hb, hab⟩ := hm.perform hop fuel a ha hlimit
      obtain ⟨N₁, hm₁⟩ := of_concurs hab
      obtain ⟨reports', M', N', hs', hreports, hend⟩ := ih hm₁ hrest hs
      refine ⟨M.report b.1 b.2 :: reports', M', N', .cons hb (mt hab.hitsLimit.1 hlimit) ?_, ?_, hend⟩
      · rw [hab.obtained]
        simpa using hs'
      · rw [List.map_cons, List.map_cons, hab.gist hm.abreast.log, hreports]

/-- A session with code for brackets that ends, ends with code for dots as well. -/
theorem session_brackets (hm : AtRest X .brackets N m M) (hops : ∀ op ∈ ops, op.Impartial) {fuel : Nat}
    (answers : List Value) {ends' : List Value}
    (h : Session M (answers.map (·.repooled X.pool)) (ops.map (·.fueled fuel)) reports M' ends') :
    ∃ reports' m' N' ends, Session m answers (ops.map (·.fueled fuel)) reports' m' ends ∧
      ends' = ends.map (·.repooled X.pool) ∧ reports'.map Report.gist = reports.map Report.gist ∧
      AtRest X .brackets N' m' M' := by
  induction ops generalizing N m M answers reports with
  | nil =>
    cases h
    exact ⟨[], m, N, answers, .nil, rfl, rfl, hm⟩
  | cons op rest ih =>
    obtain ⟨hop, hrest⟩ := List.forall_mem_cons.1 hops
    cases h with
    | @cons _ _ _ _ b reports _ _ hb hlimit hs =>
      obtain ⟨a, ha, hab⟩ := hm.perform hop fuel b hb hlimit
      obtain ⟨N₁, hm₁⟩ := of_concurs hab
      have hanswers : answers.map (·.repooled X.pool) ++ [obtained b.1] =
          (answers ++ [obtained a.1]).map (·.repooled X.pool) := by
        rw [hab.obtained, List.map_append, List.map_singleton]
      rw [hanswers] at hs
      obtain ⟨reports', m', N', ends, hs', hends, hreports, hend⟩ := ih hm₁ hrest _ hs
      refine ⟨m.report a.1 a.2 :: reports', m', N', ends, .cons ha (mt hab.hitsLimit.2 hlimit) hs', hends, ?_, hend⟩
      rw [List.map_cons, List.map_cons, hab.gist hm.abreast.log, hreports]

/-- **The lines of an operation** that goes on are the same. -/
theorem underway (hm : AtRest X σ N m M) {op : Operation} (hop : op.Impartial) (lines : Array String) :
    σ.Gives (∃ n u, m.underway answers (op.fueled n) = some u ∧ u.log = lines)
      (∃ n U, M.underway (answers.map (·.repooled X.pool)) (op.fueled n) = some U ∧ U.log = lines) := by
  have hstate := hm.abreast.state
  have hnever : ∀ {p q : Prop}, ¬ p → ¬ q → σ.Gives p q := fun hp hq => by
    cases σ
    · exact fun h => absurd h hp
    · exact fun h => absurd h hq
  cases op with
  | run | step =>
    simp only [Operation.fueled, Machine.underway]
    by_cases hlive : m.Live
    · have hlive' : M.Live := by rwa [Live, hstate]
      have hawake : Abreast X N m.awake M.awake := { hm.abreast with state := rfl }
      simp only [if_pos hlive, if_pos hlive']
      exact hawake.afterTicks (hm.entrance hlive) hm.room _ true lines
    · have hlive' : ¬ M.Live := by rwa [Live, hstate]
      simp only [if_neg hlive, if_neg hlive']
      exact hnever (by simp) (by simp)
  | call fuel name args =>
    simp only [Operation.fueled, Machine.underway, hstate]
    by_cases herror : m.state = .error
    · simp only [if_pos herror]
      exact hnever (by simp) (by simp)
    · simp only [if_neg herror]
      have hlookup : Replies X.pool (Value.Repools X.pool) (m.lookup name) (M.lookup name) :=
        hm.abreast.lookup (.inl (hm.lodges herror))
      revert hlookup
      generalize m.lookup name = r, M.lookup name = r'
      intro hlookup
      cases hlookup with
      | error c => exact hnever (by simp) (by simp)
      | @ok callee callee' hcallee =>
        subst hcallee
        cases callee with
        | function id g =>
          have hstart : Abreast X N { m with state := .running, hostCalls := m.hostCalls + 1 }
              { M with state := .running, hostCalls := M.hostCalls + 1 } :=
            { hm.abreast with state := rfl, hostCalls := by simp only [hm.abreast.hostCalls] }
          have hentered := hstart.enterFunction g none (args.map (m.operand answers)) true fun h => Bool.noConfusion h
          rw [← operands hm.abreast hop] at hentered
          exact hentered.afterTicks (.inl rfl) hm.room .run true lines
        | _ => exact hnever (by simp) (by simp)
  | define | reset | add | register | work => exact hnever (by simp [Operation.fueled, Machine.underway]) (by simp [Operation.fueled, Machine.underway])

end AtRest

/-- New machines are abreast. -/
theorem atRest_load (X : Coupling P Q) {σ : Side} {c c' : Config} (hroom : σ.Room c c') :
    AtRest X σ Nooks.empty (load P c {} {}) (load Q c' {} {}) := by
  have hscope : ∀ s, (load P c {} {}).heap.scope s = {} := fun s => by
    simp only [load, Heap.newRoot, Heap.scope_newScope]
    split <;> rfl
  have hnone : ∀ s, ¬ Nooks.empty.Hidden s := fun s => Nooks.not_hidden.2 rfl
  have hbeside : Heap.Beside X.pool Nooks.empty.Hidden (load P c {} {}).heap (load Q c' {} {}).heap :=
    { arrays := Array.map_empty.symm, objects := rfl, cells := Array.map_empty.symm, stamps := rfl, size := rfl
      plain := fun s _ => (hscope s).trans (congrArg (Scope.repooled X.pool) (hscope s)).symm
      parents := fun _ => rfl
      made := fun s hs => absurd hs (hnone s)
      parent := fun s t _ ht => by rw [Heap.parent?, hscope] at ht; cases ht
      fields := fun o => ⟨hnone _, Nat.zero_lt_one⟩ }
  have hlodged : Heap.Lodged Nooks.empty (load P c {} {}).heap (load Q c' {} {}).heap [] ⟨0⟩ :=
    ⟨rfl, Nat.zero_lt_one⟩
  refine ⟨?_, Lasts.load.waiting, hroom, fun _ => .inl rfl, fun _ => X.lodges_zero 0⟩
  exact
    { program := rfl, program' := rfl, entries := rfl, sectionIndex := rfl, pc := rfl, env := rfl, globals := rfl
      state := rfl, registry := rfl, hosts := rfl, log := rfl, hostCalls := rfl, exception := rfl
      grounds := ⟨hbeside, fun hs => absurd hs (Option.some_ne_none _).symm⟩, global := hlodged
      lodged := (X.lodges_zero 0).symm ▸ hlodged, housed := fun _ he => absurd he List.not_mem_nil, indifferent := fun _ hn => absurd hn (Array.not_mem_empty _) }

end Machine

namespace Script

/-- What a host sees of a script in a session, if every operation has the room and the time that it takes to end. -/
def Shows (script : Script) (ops : List Operation) (shown : List Report) : Prop :=
  ∃ program limit fuel reports m answers, script.compile = .ok program ∧
    Machine.Session (Machine.load program { maxStack := limit } {} {}) [] (ops.map (·.fueled fuel)) reports m answers ∧
    reports.map Report.gist = shown

/-- The lines that a script has logged at some moment of an operation, after others that have ended. The operation may
go on for ever. -/
def Tells (script : Script) (ops : List Operation) (op : Operation) (lines : Array String) : Prop :=
  ∃ program limit fuel reports m answers, script.compile = .ok program ∧
    Machine.Session (Machine.load program { maxStack := limit } {} {}) [] (ops.map (·.fueled fuel)) reports m answers ∧
    ∃ n u, m.underway answers (op.fueled n) = some u ∧ u.log = lines

variable {s s' : Script} {ops : List Operation} {op : Operation}

/-- A script compiles unless it has problems. -/
theorem exists_compile_iff (script : Script) : (∃ p, script.compile = .ok p) ↔ script.problems = [] := by
  rw [script.compiles_iff_problems, problems, List.append_eq_nil_iff, List.reverse_eq_nil_iff]

/-- The problems are what the compiler complains about. -/
theorem compile_eq_error_iff (script : Script) (cause : Cause) :
    script.compile = .error cause ↔ script.problems ≠ [] ∧ cause = .compile script.problems := by
  by_cases hproblems : script.problems = []
  · obtain ⟨p, hp⟩ := (exists_compile_iff script).2 hproblems
    simp [hp, hproblems]
  · have hcompile : script.compile = .error (.compile script.problems) :=
      if_neg (by rwa [List.isEmpty_iff])
    simp [hcompile, hproblems, eq_comm]

/-- Machines with the programs of a script with dots and of the script itself, if there are any. -/
theorem exists_atRest (hs : Every (·.SparesOperands) s.nodes) {c d : Config} {σ : Machine.Side} (hroom : σ.Room c d) :
    ((∃ P, s.dotted.compile = .ok P) ↔ ∃ Q, s.compile = .ok Q) ∧
    ∀ {P Q}, s.dotted.compile = .ok P → s.compile = .ok Q → ∃ X : Coupling P Q,
      Machine.AtRest X σ Nooks.empty (Machine.load P c {} {}) (Machine.load Q d {} {}) := by
  refine ⟨by rw [exists_compile_iff, exists_compile_iff, problems_dotted hs], fun hP hQ => ?_⟩
  obtain ⟨X⟩ := exists_coupling hs hP hQ
  exact ⟨X, Machine.atRest_load X hroom⟩

/-- With dots a script shows the same. -/
theorem shows_dotted (hs : Every (·.SparesOperands) s.nodes) (hops : ∀ op ∈ ops, op.Impartial) (shown : List Report) :
    s.dotted.Shows ops shown ↔ s.Shows ops shown := by
  constructor
  · rintro ⟨P, limit, fuel, reports, m, answers, hP, hsession, rfl⟩
    obtain ⟨hcompiles, hload⟩ := exists_atRest hs (c := { maxStack := limit }) (d := { maxStack := limit + 1 })
      (σ := .dots) ⟨rfl, rfl, Nat.lt_succ_self limit⟩
    obtain ⟨Q, hQ⟩ := hcompiles.1 ⟨P, hP⟩
    obtain ⟨X, hm⟩ := hload hP hQ
    obtain ⟨reports', M', -, hsession', hreports, -⟩ := hm.session_dots hops hsession
    exact ⟨Q, limit + 1, 4 * fuel, reports', M', _, hQ, hsession', hreports⟩
  · rintro ⟨Q, limit, fuel, reports, M, answers, hQ, hsession, rfl⟩
    obtain ⟨hcompiles, hload⟩ := exists_atRest hs (c := { maxStack := limit }) (d := { maxStack := limit })
      (σ := .brackets) ⟨rfl, rfl, Nat.le_refl limit⟩
    obtain ⟨P, hP⟩ := hcompiles.2 ⟨Q, hQ⟩
    obtain ⟨X, hm⟩ := hload hP hQ
    obtain ⟨reports', m', -, ends, hsession', -, hreports, -⟩ := hm.session_brackets hops [] hsession
    exact ⟨P, limit, fuel, reports', m', ends, hP, hsession', hreports⟩

/-- What a script shows depends neither on the room nor on the time. -/
theorem shows_unique (hs : Every (·.SparesOperands) s.nodes) (hops : ∀ op ∈ ops, op.Impartial) {shown shown' : List Report}
    (h : s.Shows ops shown) (h' : s.Shows ops shown') : shown' = shown := by
  obtain ⟨Q, limit, fuel, reports, M, answers, hQ, hsession, rfl⟩ := h
  obtain ⟨_, limit', fuel', reports', M', answers', hQ', hsession', rfl⟩ := h'
  cases hQ.symm.trans hQ'
  -- with dots both sessions have the same room, so more time makes them the same
  obtain ⟨hcompiles, hload⟩ := exists_atRest hs (c := { maxStack := max limit limit' }) (d := { maxStack := limit })
    (σ := .brackets) ⟨rfl, rfl, Nat.le_max_left ..⟩
  obtain ⟨-, hload'⟩ := exists_atRest hs (c := { maxStack := max limit limit' }) (d := { maxStack := limit' })
    (σ := .brackets) ⟨rfl, rfl, Nat.le_max_right ..⟩
  obtain ⟨P, hP⟩ := hcompiles.2 ⟨Q, hQ⟩
  obtain ⟨X, hm⟩ := hload hP hQ
  obtain ⟨X', hm'⟩ := hload' hP hQ
  obtain ⟨dotted, _, _, _, hdotted, -, hreports, -⟩ := hm.session_brackets hops [] hsession
  obtain ⟨dotted', _, _, _, hdotted', -, hreports', -⟩ := hm'.session_brackets hops [] hsession'
  obtain rfl : dotted = dotted' :=
    (hdotted.mono (Nat.le_max_left fuel fuel')).session.symm.trans
      (hdotted'.mono (Nat.le_max_right fuel fuel')).session
  rw [← hreports, ← hreports']

/-- With dots a script tells the same. -/
theorem tells_dotted (hs : Every (·.SparesOperands) s.nodes) (hops : ∀ op ∈ ops, op.Impartial) (hop : op.Impartial)
    (lines : Array String) : s.dotted.Tells ops op lines ↔ s.Tells ops op lines := by
  constructor
  · rintro ⟨P, limit, fuel, reports, m, answers, hP, hsession, htells⟩
    obtain ⟨hcompiles, hload⟩ := exists_atRest hs (c := { maxStack := limit }) (d := { maxStack := limit + 1 })
      (σ := .dots) ⟨rfl, rfl, Nat.lt_succ_self limit⟩
    obtain ⟨Q, hQ⟩ := hcompiles.1 ⟨P, hP⟩
    obtain ⟨X, hm⟩ := hload hP hQ
    obtain ⟨reports', M', N', hsession', -, hend⟩ := hm.session_dots hops hsession
    exact ⟨Q, limit + 1, 4 * fuel, reports', M', _, hQ, hsession', hend.underway hop lines htells⟩
  · rintro ⟨Q, limit, fuel, reports, M, answers, hQ, hsession, htells⟩
    obtain ⟨hcompiles, hload⟩ := exists_atRest hs (c := { maxStack := limit }) (d := { maxStack := limit })
      (σ := .brackets) ⟨rfl, rfl, Nat.le_refl limit⟩
    obtain ⟨P, hP⟩ := hcompiles.2 ⟨Q, hQ⟩
    obtain ⟨X, hm⟩ := hload hP hQ
    obtain ⟨reports', m', N', ends, hsession', rfl, -, hend⟩ := hm.session_brackets hops [] hsession
    exact ⟨P, limit, fuel, reports', m', ends, hP, hsession', hend.underway hop lines htells⟩

/-- **Spellings are unobservable.** Take two scripts that differ in nothing but which property accesses with a constant
key they write with a dot. The compiler complains about the same problems. A host that makes the same session of both
sees the same, if every operation has the room and the time that it takes to end: the same results and faults with
their messages and traces, states, depths, lines, exceptions and globals. An operation that goes on has logged the same
lines at its moments. The key `[]` is not among them; no identifier is spelled as a hidden operand and no function
expression is called `parked`. -/
theorem spellings_unobservable (h : s.Respells s') (hs : Every (·.SparesOperands) s.nodes)
    (hs' : Every (·.SparesOperands) s'.nodes) :
    (∀ cause, s'.compile = .error cause ↔ s.compile = .error cause) ∧
    (∀ ops, (∀ op ∈ ops, op.Impartial) → (∀ shown, s'.Shows ops shown ↔ s.Shows ops shown) ∧
      ∀ shown shown', s.Shows ops shown → s'.Shows ops shown' → shown' = shown) ∧
    ∀ ops op, (∀ o ∈ op :: ops, o.Impartial) → ∀ lines, s'.Tells ops op lines ↔ s.Tells ops op lines := by
  have hdotted : s'.dotted = s.dotted := h
  have hshows : ∀ {ops : List Operation}, (∀ op ∈ ops, op.Impartial) → ∀ shown, s'.Shows ops shown ↔ s.Shows ops shown :=
    fun hops shown => by rw [← shows_dotted hs' hops, hdotted, shows_dotted hs hops]
  refine ⟨fun cause => ?_, fun ops hops => ⟨hshows hops, fun shown shown' hshown hshown' => ?_⟩, fun ops op hops lines => ?_⟩
  · rw [compile_eq_error_iff, compile_eq_error_iff, ← problems_dotted hs', hdotted, problems_dotted hs]
  · exact shows_unique hs hops hshown ((hshows hops shown').1 hshown')
  · obtain ⟨hop, hops⟩ := List.forall_mem_cons.1 hops
    rw [← tells_dotted hs' hops hop, hdotted, tells_dotted hs hops hop]

/-! ### Scripts in two spellings -/

/-- A run from the start that ends within the usual limits. -/
theorem exists_shows (s : Script) (fuel : Nat) (state : RunState)
    (h : (s.compile.toOption.bind fun p => ((Machine.load p {} {} {}).perform [] (.run fuel)).map fun x =>
      (decide (Machine.HitsLimit x.1), x.2.state)) = some (false, state)) :
    ∃ report, s.Shows [.run 0] [report] ∧ report.state = state := by
  obtain ⟨p, hp, hran⟩ := Option.bind_eq_some_iff.1 h
  have hc : s.compile = .ok p := by
    cases he : s.compile <;> rw [he] at hp <;> cases hp
    rfl
  obtain ⟨x, hx, hends⟩ := Option.map_eq_some_iff.1 hran
  obtain ⟨hlimit, hstate⟩ := Prod.mk.inj hends
  exact ⟨_, ⟨p, _, fuel, _, _, _, hc, .cons hx (of_decide_eq_false hlimit) .nil, rfl⟩, hstate⟩

/-- An access with brackets around the name. -/
def byKey (object : Expr) (name : String) : ExprKind := .index object (.node .unknown (.string name))

/-- Adds to a property, counts it up, puts it into an array by a method and reads the array. -/
def accesses (access : Expr → String → ExprKind) : Script :=
  let e : ExprKind → Expr := .node .unknown
  let o := e (.ident "o")
  let number := e (.number 0x4000000000000000)
  { body := [
      .node .unknown (.var "o" (some (e (.record [("n", number), ("items", e (.array []))])))),
      .node .unknown (.expr (e (.assign (some .add) (e (access o "n")) number))),
      .node .unknown (.expr (e (.update .increment false (e (access o "n"))))),
      .node .unknown (.expr (e (.call (e (access (e (access o "items")) "push")) [e (access o "n")]))),
      .node .unknown (.var "r" (some (e (access o "items"))))] }

/-- A node with an ordinary name, if it has one. -/
def isOrdinary : Node → Bool
  | .expr (.ident name) => !reserved name
  | .expr (.function name _ _) => name != some "parked"
  | _ => true

theorem every_sparesOperands (h : s.nodes.all isOrdinary = true) : Every (·.SparesOperands) s.nodes := fun n hn => by
  have hordinary := List.all_eq_true.1 h n hn
  show n.SparesOperands
  unfold Node.SparesOperands
  split
  · exact not_isOperand_of_not_reserved (by simpa [isOrdinary] using hordinary)
  · simpa [isOrdinary] using hordinary
  · trivial

/-- The two spellings run to their end and show the same. So they do to a host that has added values of its own. -/
theorem spellings_unobservable_accesses : (accesses .member).Respells (accesses byKey) ∧
    (∃ report, (accesses .member).Shows [.run 0] [report] ∧ (accesses byKey).Shows [.run 0] [report] ∧
      report.state = .done) ∧
    ∀ shown, (accesses byKey).Shows [.add (.echo "echo" (.variadic 0)), .add (.thermostat 0), .run 0] shown ↔
      (accesses .member).Shows [.add (.echo "echo" (.variadic 0)), .add (.thermostat 0), .run 0] shown := by
  have hrespells : (accesses .member).Respells (accesses byKey) := by rfl
  obtain ⟨-, hshows, -⟩ := spellings_unobservable hrespells (every_sparesOperands (by decide))
    (every_sparesOperands (by decide))
  obtain ⟨report, hreport, hstate⟩ := exists_shows (accesses .member) 100 .done (by decide +kernel)
  refine ⟨hrespells, ⟨report, hreport, ((hshows [.run 0] (by simp [Operation.Impartial])).1 _).2 hreport, hstate⟩,
    (hshows _ ?_).1⟩
  simp [Operation.Impartial, Native.indifferent_echo, Native.indifferent_thermostat]

/-- Reads an access into a variable. -/
def reading (e : ExprKind) : Script :=
  { body := [
      .node .unknown (.var "o" (some (.node .unknown (.record [("p", .node .unknown (.number 0x3ff0000000000000))])))),
      .node .unknown (.var "r" (some (.node .unknown e)))] }

/-- Adds to a property. -/
def adding (access : Expr → String → ExprKind) (e : ExprKind) : ExprKind :=
  .assign (some .add) (.node .unknown (access (.node .unknown (.ident "o")) "p")) (.node .unknown e)

/-- A function expression that is called `parked`. -/
def parked : ExprKind := .function (some "parked") [] []

/-- A host that runs two scripts sees a difference. -/
def Differ (s s' : Script) : Prop :=
  ∃ shown shown', s.Shows [.run 0] shown ∧ s'.Shows [.run 0] shown' ∧ shown' ≠ shown

theorem differ_of_state (h : ∃ report, s.Shows [.run 0] [report] ∧ report.state = .error)
    (h' : ∃ report, s'.Shows [.run 0] [report] ∧ report.state = .done) : s.Differ s' := by
  obtain ⟨report, hreport, hstate⟩ := h
  obtain ⟨report', hreport', hstate'⟩ := h'
  refine ⟨_, _, hreport, hreport', fun heq => ?_⟩
  rw [List.head_eq_of_cons_eq heq, hstate] at hstate'
  cases hstate'

/-- The key `[]` makes a difference: with a dot it takes another value from the stack, and there is none. So does an
identifier that is spelled as a hidden operand, and the second of two function expressions that are called `parked`:
with brackets the key is kept under their names. -/
theorem spellings_differ :
    (reading (.member (.node .unknown (.ident "o")) "[]")).Differ (reading (byKey (.node .unknown (.ident "o")) "[]")) ∧
    (reading (adding .member (.ident "@parked#1"))).Differ (reading (adding byKey (.ident "@parked#1"))) ∧
    (reading (.array [.node .unknown parked, .node .unknown (adding .member parked)])).Differ
      (reading (.array [.node .unknown parked, .node .unknown (adding byKey parked)])) := by
  refine ⟨?_, ?_, ?_⟩ <;>
    exact differ_of_state (exists_shows _ 100 .error (by decide +kernel)) (exists_shows _ 100 .done (by decide +kernel))

end Script

end ScriptMachine
