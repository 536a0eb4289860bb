import ScriptMachine.Proofs.Compile.Sections
import ScriptMachine.Proofs.Machine.Activation
import ScriptMachine.Proofs.Machine.Reset

/-!
# Scoping — each remembered scope belongs to its activation

In laid out code the scope of the machine, and every scope in a loop marker, a try region or a frame, belongs to the
activation that was at work when it was put there, as many blocks inside the scope of its call as the layout says
(`Setting.Stands`). One instruction keeps this (`dispatch_abides`), unwinding keeps it (`unwinds_below`), and so every
step of a run does (`tick_places`), along with the history that follows it.
-/

namespace ScriptMachine

open Compile

/-- A program with a layout, its globals, and the activations that wait for a call by the host. -/
structure Setting where
  program : Program
  layout : Nat → Nat → Shape
  laid : Laid program layout
  globals : ScopeId
  hosted : List Activation := []

namespace Setting

variable (E : Setting)

/-- The entries of an activation lie as its slots say. -/
inductive Lies (h : Heap) (x : Nat) (a : Activation) : List Slot → List Entry → Prop where
  | nil : Lies h x a [] []
  | value {v s es} : Lies h x a s es → Lies h x a (.value :: s) (.value v :: es)
  | loop {k env s es} : a.Holds h E.globals k env → Lies h x a s es → Lies h x a (.loop k :: s) (.loop env :: es)
  | region {k r s es} : r.sectionIndex = x → E.layout x r.handlerPc = ⟨k, .value :: s⟩ →
      a.Holds h E.globals k r.env → Lies h x a s es → Lies h x a (.region k :: s) (.region r :: es)

/-- What lies below the entries of an activation: nothing below the script, else the frame of the call, and below it
the entries of the activation that waits. What lies below the frame of a call by the host does not matter. -/
inductive Below (h : Heap) : Nat → Activation → List Activation → List Entry → Prop where
  | script {a} : a.scope = none → Below h 0 a [] []
  | host {x a f rest} : a.scope.isSome = true → E.hosted ≠ [] → f.fromHost = true →
      Below h x a E.hosted (.frame f :: rest)
  | call {x a b as f k s es rest} : a.scope.isSome = true → f.fromHost = false →
      E.layout f.returnSection f.returnPc = ⟨k, .value :: s⟩ → E.Lies h f.returnSection b s es →
      b.Holds h E.globals k f.env → Below h f.returnSection b as rest →
      Below h x a (b :: as) (.frame f :: (es ++ rest))

/-- A stack on which an activation stands at a shape, above those that wait for it. -/
def Stands (h : Heap) (x : Nat) (σ : Shape) (env : ScopeId) (a : Activation) (as : List Activation)
    (entries : List Entry) : Prop :=
  ∃ es rest, entries = es ++ rest ∧ E.Lies h x a σ.slots es ∧ a.Holds h E.globals σ.scopes env ∧
    E.Below h x a as rest

/-- The activation of a machine stands where the layout says. -/
def At (m : Machine) (a : Activation) (as : List Activation) : Prop :=
  E.Stands m.heap m.sectionIndex (E.layout m.sectionIndex m.pc) m.env a as m.stack.entries

variable {E} {h h' : Heap} {may : ScopeId → Prop} {x k : Nat} {s : List Slot} {σ : Shape} {env : ScopeId}
  {a : Activation} {as : List Activation} {t entries es rest : List Entry} {v : Value}

/-! ### The heap may change -/

theorem Lies.spares (hs : Heap.Spares may h h') (hl : E.Lies h x a s es) : E.Lies h' x a s es := by
  induction hl with
  | nil => exact .nil
  | value _ ih => exact .value ih
  | loop hk _ ih => exact .loop (hk.spares hs) ih
  | region hx hT hk _ ih => exact .region hx hT (hk.spares hs) ih

theorem Below.spares (hs : Heap.Spares may h h') (hb : E.Below h x a as rest) : E.Below h' x a as rest := by
  induction hb with
  | script ha => exact .script ha
  | host ha hh hf => exact .host ha hh hf
  | call ha hf hT hl hk _ ih => exact .call ha hf hT (hl.spares hs) (hk.spares hs) ih

theorem Stands.spares (hs : Heap.Spares may h h') (hst : E.Stands h x σ env a as entries) :
    E.Stands h' x σ env a as entries := by
  obtain ⟨es, rest, he, hl, hk, hb⟩ := hst
  exact ⟨es, rest, he, hl.spares hs, hk.spares hs, hb.spares hs⟩

/-! ### Entries on top -/

theorem Stands.pop (hs : E.Stands h x ⟨k, .value :: s⟩ env a as entries) :
    ∃ v t, entries = .value v :: t ∧ E.Stands h x ⟨k, s⟩ env a as t := by
  obtain ⟨es, rest, rfl, hl, hk, hb⟩ := hs
  cases hl with
  | @value v s es hl => exact ⟨v, es ++ rest, rfl, es, rest, rfl, hl, hk, hb⟩

theorem Stands.push (hs : E.Stands h x ⟨k, s⟩ env a as t) :
    E.Stands h x ⟨k, .value :: s⟩ env a as (.value v :: t) := by
  obtain ⟨es, rest, rfl, hl, hk, hb⟩ := hs
  exact ⟨.value v :: es, rest, rfl, .value hl, hk, hb⟩

/-- Arguments are taken together. -/
theorem Stands.popValues {n : Nat} (hs : E.Stands h x ⟨k, values n s⟩ env a as entries) :
    ∃ args t, args.length = n ∧ entries = Machine.pushed args t ∧ E.Stands h x ⟨k, s⟩ env a as t := by
  induction n generalizing entries with
  | zero => exact ⟨[], entries, rfl, rfl, hs⟩
  | succ n ih =>
    obtain ⟨v, t, rfl, ht⟩ := hs.pop
    obtain ⟨args, t, rfl, rfl, hbelow⟩ := ih ht
    exact ⟨args ++ [v], t, by simp, by simp [Machine.pushed], hbelow⟩

theorem Stands.openLoop (hs : E.Stands h x ⟨k, s⟩ env a as t) :
    E.Stands h x ⟨k, .loop k :: s⟩ env a as (.loop env :: t) := by
  obtain ⟨es, rest, rfl, hl, hk, hb⟩ := hs
  exact ⟨.loop env :: es, rest, rfl, .loop hk hl, hk, hb⟩

/-- A loop marker can be taken, and its scope can be gone back to. -/
theorem Stands.closeLoop {j : Nat} (hs : E.Stands h x ⟨k, .loop j :: s⟩ env a as entries) :
    ∃ e t, entries = .loop e :: t ∧ E.Stands h x ⟨k, s⟩ env a as t ∧
      E.Stands h x ⟨j, .loop j :: s⟩ e a as entries := by
  obtain ⟨es, rest, rfl, hl, hk, hb⟩ := hs
  cases hl with
  | @loop j e s es hj hl =>
    exact ⟨e, es ++ rest, rfl, ⟨es, rest, rfl, hl, hk, hb⟩, ⟨.loop e :: es, rest, rfl, .loop hj hl, hj, hb⟩⟩

theorem Stands.openRegion {pc : Nat} {final : Option Nat} (hT : E.layout x pc = ⟨k, .value :: s⟩)
    (hs : E.Stands h x ⟨k, s⟩ env a as t) :
    E.Stands h x ⟨k, .region k :: s⟩ env a as (.region ⟨x, pc, final, env⟩ :: t) := by
  obtain ⟨es, rest, rfl, hl, hk, hb⟩ := hs
  exact ⟨.region ⟨x, pc, final, env⟩ :: es, rest, rfl, .region rfl hT hk hl, hk, hb⟩

theorem Stands.closeRegion {j : Nat} (hs : E.Stands h x ⟨k, .region j :: s⟩ env a as entries) :
    ∃ r t, entries = .region r :: t ∧ E.Stands h x ⟨k, s⟩ env a as t := by
  obtain ⟨es, rest, rfl, hl, hk, hb⟩ := hs
  cases hl with
  | @region j r s es _ _ _ hl => exact ⟨r, es ++ rest, rfl, es, rest, rfl, hl, hk, hb⟩

/-! ### Blocks and calls -/

theorem Lies.opened (hl : E.Lies h x a s es) (new : ScopeId) : E.Lies h x (a.opened new) s es := by
  induction hl with
  | nil => exact .nil
  | value _ ih => exact .value ih
  | loop hk _ ih => exact .loop (hk.opened new) ih
  | region hx hT hk _ ih => exact .region hx hT (hk.opened new) ih

theorem Below.opened (hb : E.Below h x a as rest) (new : ScopeId) : E.Below h x (a.opened new) as rest := by
  cases hb with
  | script ha => exact .script ha
  | host ha hh hf => exact .host ha hh hf
  | call ha hf hT hl hk hb => exact .call ha hf hT hl hk hb

theorem Stands.enterScope {new : ScopeId} (ho : Heap.Opens h h' new env) (hs : E.Stands h x ⟨k, s⟩ env a as t) :
    E.Stands h' x ⟨k + 1, s⟩ new (a.opened new) as t := by
  obtain ⟨es, rest, he, hl, hk, hb⟩ := hs
  exact ⟨es, rest, he, (hl.spares ho.spares).opened new, hk.enterScope ho, (hb.spares ho.spares).opened new⟩

theorem Stands.leaveScope (hs : E.Stands h x ⟨k + 1, s⟩ env a as t) :
    ∃ outer, h.parent? env = some outer ∧ E.Stands h x ⟨k, s⟩ outer a as t := by
  obtain ⟨es, rest, he, hl, hk, hb⟩ := hs
  obtain ⟨-, outer, hp, hk⟩ := hk.leaveScope
  exact ⟨outer, hp, es, rest, he, hl, hk, hb⟩

/-- A call stands on the frame that returns to the activation that waits. -/
theorem Stands.enter {f : Frame} {y : Nat} {new : ScopeId} {receiver : Option ScopeId} (hf : f.fromHost = false)
    (hT : E.layout f.returnSection f.returnPc = ⟨k, .value :: s⟩)
    (hs : E.Stands h f.returnSection ⟨k, s⟩ f.env a as t)
    (ho : Heap.Opens h h' new (receiver.getD E.globals)) :
    E.Stands h' y .empty new ⟨some new, receiver, []⟩ (a :: as) (.frame f :: t) := by
  obtain ⟨es, rest, rfl, hl, hk, hb⟩ := hs.spares ho.spares
  exact ⟨[], _, rfl, .nil, Activation.holds_entered ho, .call rfl hf hT hl hk hb⟩

end Setting

theorem frameCount_pushed (args : List Value) (t : List Entry) : frameCount (Machine.pushed args t) = frameCount t := by
  unfold Machine.pushed
  induction args.reverse with
  | nil => rfl
  | cons v vs ih => exact ih

namespace Machine

variable {E : Setting} {H : History} {m m' : Machine} {i : Instruction}

/-! ### One instruction -/

/-- What becomes of the activations when an instruction goes on. -/
inductive Turns (E : Setting) (H : History) (op : Opcode) (m m' : Machine) : Prop where
  | stays : op ≠ .enterScope → m'.frames = m.frames → E.At m' H.current H.callers → Turns E H op m m'
  | opens : op = .enterScope → m'.frames = m.frames → m.heap.Opens m'.heap m'.env m.env →
      E.At m' (H.current.opened m'.env) H.callers → Turns E H op m m'
  | enters {outer : ScopeId} : m'.frames = m.frames + 1 → m.heap.Opens m'.heap m'.env outer →
      (∀ o, m.receiver? op = some o → (m'.heap.scope m'.env).defines thisName = true) →
      E.At m' (m'.activation (m.receiver? op)) H.active → Turns E H op m m'
  | returns {b : Activation} {as : List Activation} : op ≠ .enterScope → m'.frames + 1 = m.frames →
      H.callers = b :: as → E.At m' b as → Turns E H op m m'

/-- A change of the heap by an instruction: hidden scopes off the chain of the machine are spared. -/
def Minds (m m' : Machine) : Prop := Heap.Spares (· ∈ m.heap.chain m.env) m.heap m'.heap

/-- What an instruction of laid out code leads to. -/
def Abides (E : Setting) (H : History) (op : Opcode) (m : Machine) :
    EStateM.Result Cause Machine (Option Stop) → Prop
  | .ok none m' => Minds m m' ∧ Turns E H op m m'
  | .ok (some .eof) m' => Minds m m' ∧ m'.frames = m.frames
  | .ok (some .breakpoint) m' => Minds m m' ∧ m'.frames = m.frames ∧ E.At m' H.current H.callers
  | .ok (some .hostReturn) m' => Minds m m' ∧ m'.frames + 1 = m.frames ∧ (E.hosted ≠ [] ∧ H.callers = E.hosted) ∧
      ∃ v t, m'.stack.entries = .value v :: t
  | .ok (some .boundary) _ => False
  | .error _ m' => Minds m m' ∧ m'.frames = m.frames ∧
      ∃ σ, E.Stands m'.heap m'.sectionIndex σ m'.env H.current H.callers m'.stack.entries

variable {k : Nat} {s : List Slot} {t : List Entry}

theorem Minds.of_nowhere (hs : Heap.Spares Heap.nowhere m.heap m'.heap) : Minds m m' := Heap.Spares.of_nowhere hs

/-- An instruction that goes on in its activation. -/
theorem abides_stays {u : Machine} {op : Opcode} {τ : Shape} (hop : op ≠ .enterScope) (hminds : Minds m u)
    (hframes : u.frames = m.frames) (hτ : E.layout u.sectionIndex u.pc = τ)
    (hs : E.Stands u.heap u.sectionIndex τ u.env H.current H.callers u.stack.entries) :
    Abides E H op m (.ok none u) := ⟨hminds, .stays hop hframes (by rw [Setting.At, hτ]; exact hs)⟩

/-- An instruction that gives a value, or an error. -/
theorem abides_give {op : Opcode} {top : List Entry} {r : Except Cause Value} (hf : m.heap.Founded) (hop : op ≠ .enterScope)
    (hframes : frameCount t = frameCount top) (hτ : E.layout m.sectionIndex m.pc = ⟨k, .value :: s⟩)
    (hs : E.Stands m.heap m.sectionIndex ⟨k, s⟩ m.env H.current H.callers t) :
    Abides E H op (m.onStack top) (give m t r) := by
  cases r with
  | ok v => exact abides_stays (u := m.onStack (.value v :: t)) hop (.refl hf) hframes hτ hs.push
  | error c => exact ⟨.refl hf, hframes, _, hs⟩

/-- A host value that is called gives a value or an error. -/
theorem abides_native {op : Opcode} {top : List Entry} {handle : NativeHandle} {receiver : Option Value} {args : List Value}
    (hf : m.heap.Founded) (hhosts : m.hosts.Spare) (hop : op ≠ .enterScope) (hframes : frameCount t = frameCount top)
    (hτ : E.layout m.sectionIndex m.pc = ⟨k, .value :: s⟩)
    (hs : E.Stands m.heap m.sectionIndex ⟨k, s⟩ m.env H.current H.callers t) :
    Abides E H op (m.onStack top) (settleNative t (callNative handle receiver args m)) := by
  have hspares := callNative_spares hhosts hf handle receiver args
  have hm : (callNative handle receiver args m).2 = { m with
      heap := (callNative handle receiver args m).2.heap
      log := (callNative handle receiver args m).2.log } := rfl
  generalize callNative handle receiver args m = called at hspares hm
  obtain ⟨r, m₂⟩ := called
  simp only at hspares hm
  rw [hm]
  cases r with
  | ok v =>
    exact abides_stays (m := m.onStack top) (u := ({ m with heap := m₂.heap, log := m₂.log } : Machine).onStack (.value v :: t))
      hop (.of_nowhere hspares) hframes hτ (hs.spares hspares).push
  | error c => exact ⟨hspares.of_nowhere, hframes, _, hs.spares hspares⟩

/-- A function that is entered stands on the frame of its call. -/
theorem abides_enter {op : Opcode} {top : List Entry} {h : Heap} {f : ScriptFunction} {receiver : Option Value}
    {args : List Value} (hspares : m.heap.Spares Heap.nowhere h) (hg : m.globals = E.globals)
    (hglobal : m.globals.index < m.heap.scopes.size)
    (hreceiver : (m.onStack top).receiver? op = receivingObject receiver)
    (hframes : frameCount t = frameCount top) (hτ : E.layout m.sectionIndex m.pc = ⟨k, .value :: s⟩)
    (hs : E.Stands m.heap m.sectionIndex ⟨k, s⟩ m.env H.current H.callers t) :
    Abides E H op (m.onStack top) (.ok none (enterFunction f receiver args false ({ m with heap := h }.onStack t))) := by
  have hopens := opens_enterFunction (m := { m with heap := h }.onStack t) hspares.founded
    (Nat.lt_of_lt_of_le hglobal hspares.size) f receiver args false
  have hfields := fields_enterFunction f receiver args false ({ m with heap := h }.onStack t)
  have hbound : ∀ o, (m.onStack top).receiver? op = some o → _ := fun o ho =>
    defines_enterFunction f (hreceiver.symm.trans ho) args false ({ m with heap := h }.onStack t)
  generalize hm' : enterFunction f receiver args false ({ m with heap := h }.onStack t) = m' at hopens hfields hbound ⊢
  have hafter : Heap.Opens m.heap m'.heap m'.env _ := .after hspares hopens
  have houter : ({ m with heap := h }.onStack t).around (receivingObject receiver) =
      (((m.onStack top).receiver? op).map m'.heap.fields).getD E.globals := by
    rw [hreceiver, ← hg, around]
    cases receivingObject receiver with
    | none => rfl
    | some o => exact (hfields o).symm
  rw [houter] at hopens
  have hstands := (hs.spares hspares).enter (f := ⟨m.sectionIndex, m.pc, m.env, f.name, false⟩) (y := f.sectionIndex) rfl hτ hopens
  refine ⟨.of_nowhere hafter.spares, .enters ?_ hafter hbound ?_⟩
  · subst hm'
    exact congrArg (· + 1) hframes
  · have hlayout : E.layout m'.sectionIndex m'.pc = .empty := by
      subst hm'
      exact E.laid.start _
    rw [Setting.At, hlayout]
    subst hm'
    exact hstands

theorem abides_called {op : Opcode} {top : List Entry} {callee : Value} {receiver : Option Value} {args : List Value}
    (hf : m.heap.Founded) (hhosts : m.hosts.Spare) (hg : m.globals = E.globals)
    (hglobal : m.globals.index < m.heap.scopes.size) (hop : op ≠ .enterScope)
    (hreceiver : (m.onStack top).receiver? op = receivingObject receiver)
    (hframes : frameCount t = frameCount top) (hτ : E.layout m.sectionIndex m.pc = ⟨k, .value :: s⟩)
    (hs : E.Stands m.heap m.sectionIndex ⟨k, s⟩ m.env H.current H.callers t) :
    Abides E H op (m.onStack top) (called m t callee receiver args) := by
  have hfail : ∀ kind, Abides E H op (m.onStack top) (.error (.notCallable kind) (m.onStack t)) := fun _ =>
    ⟨.refl hf, hframes, _, hs⟩
  unfold called
  cases callee with
  | function id f => exact abides_enter (h := m.heap) (.refl hf) hg hglobal hreceiver hframes hτ hs
  | native handle =>
    simp only
    split
    · exact abides_native hf hhosts hop hframes hτ hs
    · exact hfail _
  | _ => exact hfail _

theorem abides_instantiated {op : Opcode} {top : List Entry} {className : String} {args : List Value}
    (hf : m.heap.Founded) (hhosts : m.hosts.Spare) (hg : m.globals = E.globals)
    (hroot : m.heap.parent? m.globals = none) (hglobal : m.globals.index < m.heap.scopes.size)
    (hop : op = .createObject className args.length) (hframes : frameCount t = frameCount top)
    (hτ : E.layout m.sectionIndex m.pc = ⟨k, .value :: s⟩)
    (hs : E.Stands m.heap m.sectionIndex ⟨k, s⟩ m.env H.current H.callers t) :
    Abides E H op (m.onStack top) (instantiated m t className args) := by
  have hne : op ≠ .enterScope := by rw [hop]; exact nofun
  have hfail : Abides E H op (m.onStack top) (.error (.undefinedClass className) (m.onStack t)) :=
    ⟨.refl hf, hframes, _, hs⟩
  unfold instantiated
  cases m.program.classMethods? className with
  | some methods =>
    simp only
    have hmade : m.heap.Spares Heap.nowhere
        (newInstance className m.globals (methodFields (namedMethods className methods)) m.heap).2 :=
      .newInstance hf hroot hglobal
    split
    · refine abides_enter hmade hg hglobal ?_ hframes hτ hs
      rw [hop]
      rfl
    · exact abides_stays (m := m.onStack top) hne (.of_nowhere hmade) hframes hτ (hs.spares hmade).push
  | none =>
    simp only
    split
    · split
      · exact abides_native hf hhosts hne hframes hτ hs
      · exact hfail
    · exact hfail

/-- An instruction that writes a property. -/
theorem abides_write {op : Opcode} {top : List Entry} {target key v : Value} (hf : m.heap.Founded)
    (hhosts : m.hosts.Spare) (hop : op ≠ .enterScope) (hframes : frameCount t = frameCount top)
    (hτ : E.layout m.sectionIndex m.pc = ⟨k, s⟩)
    (hs : E.Stands m.heap m.sectionIndex ⟨k, s⟩ m.env H.current H.callers t) :
    Abides E H op (m.onStack top) (settleWrite t (m.setProperty target key v)) := by
  have hspares := setProperty_spares hhosts hf target key v
  have hm := setProperty_heap m target key v
  generalize m.setProperty target key v = written at hspares hm
  obtain ⟨r, m₂⟩ := written
  simp only at hspares hm
  rw [hm]
  cases r with
  | ok _ =>
    exact abides_stays (m := m.onStack top) (u := ({ m with heap := m₂.heap } : Machine).onStack t) hop (.of_nowhere hspares)
      hframes hτ (hs.spares hspares)
  | error c => exact ⟨.of_nowhere hspares, hframes, _, hs.spares hspares⟩

theorem abides_branch {op : Opcode} {top : List Entry} {pc : Nat} {taken : Bool} (hf : m.heap.Founded)
    (hop : op ≠ .enterScope) (hframes : frameCount t = frameCount top)
    (hτ : E.layout m.sectionIndex m.pc = ⟨k, s⟩) (hT : E.layout m.sectionIndex pc = ⟨k, s⟩)
    (hs : E.Stands m.heap m.sectionIndex ⟨k, s⟩ m.env H.current H.callers t) :
    Abides E H op (m.onStack top) (.ok none ((m.branch taken pc).onStack t)) := by
  cases taken with
  | true => exact abides_stays (m := m.onStack top) (u := ({ m with pc } : Machine).onStack t) hop (.refl hf) hframes hT hs
  | false => exact abides_stays (m := m.onStack top) (u := m.onStack t) hop (.refl hf) hframes hτ hs

/-- A return finds the frame of its call below its value. -/
theorem abides_ret {op : Opcode} (hf : m.heap.Founded) (hop : op = .ret) (hi : i.op = op) (hx : m.sectionIndex ≠ 0)
    (hs : E.Stands m.heap m.sectionIndex ⟨k, [.value]⟩ m.env H.current H.callers m.stack.entries) :
    Abides E H op m (dispatch i m) := by
  obtain ⟨v, t, he, es, rest, ht, hl, -, hb⟩ := hs.pop
  cases hl
  rw [List.nil_append] at ht
  subst ht
  generalize hsec : m.sectionIndex = x at hb
  generalize hcallers : H.callers = as at hb
  cases hb with
  | script => exact absurd hsec hx
  | @host _ _ f _ _ hhosted hfrom =>
    rw [eq_onStack he, dispatch_ret (hi.trans hop), if_pos hfrom]
    exact ⟨.refl hf, rfl, ⟨hhosted, hcallers⟩, v, _, rfl⟩
  | @call _ _ b as f k' s' es rest _ hfrom hT hl hk hb =>
    rw [eq_onStack he, dispatch_ret (hi.trans hop), if_neg (by rw [hfrom]; exact Bool.false_ne_true)]
    have hs : E.Stands m.heap f.returnSection ⟨k', s'⟩ f.env b as (es ++ rest) := ⟨es, rest, rfl, hl, hk, hb⟩
    refine ⟨.refl hf, .returns (by rw [hop]; exact nofun) rfl hcallers ?_⟩
    show E.Stands m.heap f.returnSection (E.layout f.returnSection f.returnPc) f.env b as (.value v :: (es ++ rest))
    rw [hT]
    exact hs.push

/-- **One instruction keeps scopes with their activations.** The place of the machine is already that of the next
instruction. -/
theorem dispatch_abides {pc : Nat} (hpc : m.pc = pc + 1) (hprogram : m.program = E.program) (hhosts : m.hosts.Spare)
    (hg : m.globals = E.globals) (hf : m.heap.Founded) (hroot : m.heap.parent? m.globals = none)
    (hglobal : m.globals.index < m.heap.scopes.size)
    (hi : E.program.instruction? m.sectionIndex pc = some i)
    (hs : E.Stands m.heap m.sectionIndex (E.layout m.sectionIndex pc) m.env H.current H.callers m.stack.entries) :
    Abides E H i.op m (dispatch i m) := by
  obtain ⟨J, hstep, hleads⟩ := E.laid.step hi
  rw [← hpc] at hstep
  generalize hτ : E.layout m.sectionIndex m.pc = τ at hstep
  generalize E.layout m.sectionIndex pc = σ at hstep hs
  generalize hop : i.op = op at hstep ⊢
  have hmark : ∀ l ρ, (l, ρ) ∈ J → ∃ pc', m.program.jumpTarget? l = some pc' ∧ E.layout m.sectionIndex pc' = ρ :=
    fun l ρ hl => by
      obtain ⟨pc', hl, hT, -⟩ := hleads l ρ hl
      exact ⟨pc', by rw [hprogram]; exact hl, hT⟩
  -- every case names the entries that the instruction takes and rewrites with its equation
  cases hstep with
  | nop =>
    rw [dispatch_skip (.inl hop)]
    exact abides_stays nofun (.refl hf) rfl hτ hs
  | label =>
    rw [dispatch_skip (.inr ⟨_, hop⟩)]
    exact abides_stays nofun (.refl hf) rfl hτ hs
  | @const index k s hindex =>
    obtain ⟨v, hv⟩ : ∃ v, m.program.constants[index]? = some v :=
      ⟨_, Array.getElem?_eq_getElem (hprogram ▸ hindex)⟩
    rw [eq_onStack (m := m) rfl, dispatch_const hop hv]
    exact abides_stays nofun (.refl hf) rfl hτ hs.push
  | dup =>
    obtain ⟨v, t, he, ht⟩ := hs.pop
    rw [eq_onStack he, dispatch_dup hop]
    exact abides_stays nofun (.refl hf) rfl hτ ht.push.push
  | pop =>
    obtain ⟨v, t, he, ht⟩ := hs.pop
    rw [eq_onStack he, dispatch_pop hop]
    exact abides_stays nofun (.refl hf) rfl hτ ht
  | fetch =>
    rw [eq_onStack (m := m) rfl, dispatch_fetch hop]
    exact abides_give hf nofun rfl hτ hs
  | fetchProperty hn =>
    obtain ⟨v, t, he, ht⟩ := hs.pop
    rw [eq_onStack he, dispatch_fetchProperty hop hn]
    exact abides_give hf nofun rfl hτ ht
  | fetchElement =>
    obtain ⟨key, t, he, ht₁⟩ := hs.pop
    obtain ⟨target, t, rfl, ht⟩ := ht₁.pop
    rw [eq_onStack he, dispatch_fetchElement hop]
    exact abides_give hf nofun rfl hτ ht
  | @store name k s =>
    obtain ⟨v, t, he, ht⟩ := hs.pop
    rw [eq_onStack he, dispatch_store hop]
    cases hslot : m.heap.slot m.env name with
    | ok slot =>
      have hspares : Heap.Spares (· ∈ m.heap.chain m.env) m.heap (m.heap.define slot name v) :=
        .define hf (.inr (Heap.mem_chain_of_slot hslot))
      exact abides_stays nofun hspares rfl hτ (ht.spares hspares)
    | error c => exact ⟨.refl hf, rfl, _, ht⟩
  | @storeProperty name k s hn =>
    obtain ⟨target, t, he, ht₁⟩ := hs.pop
    obtain ⟨v, t, rfl, ht⟩ := ht₁.pop
    rw [eq_onStack he, dispatch_storeProperty hop hn]
    exact abides_write hf hhosts nofun rfl hτ ht
  | storeElement =>
    obtain ⟨key, t, he, ht₁⟩ := hs.pop
    obtain ⟨target, t, rfl, ht₂⟩ := ht₁.pop
    obtain ⟨v, t, rfl, ht⟩ := ht₂.pop
    rw [eq_onStack he, dispatch_storeElement hop]
    exact abides_write hf hhosts nofun rfl hτ ht
  | @declare name σ =>
    rw [dispatch_declare hop]
    have hspares : Heap.Spares (· ∈ m.heap.chain m.env) m.heap (m.heap.define m.env name .undefined) :=
      .define hf (.inr (Heap.self_mem_chain _ _))
    exact abides_stays nofun hspares rfl hτ (hs.spares hspares)
  | binary =>
    obtain ⟨b, t, he, ht₁⟩ := hs.pop
    obtain ⟨a, t, rfl, ht⟩ := ht₁.pop
    rw [eq_onStack he, dispatch_binary hop]
    exact abides_give hf nofun rfl hτ ht
  | jump hl =>
    obtain ⟨pc', hl, hT⟩ := hmark _ _ hl
    rw [dispatch_jump hop hl]
    exact abides_stays nofun (.refl hf) rfl hT hs
  | jumpTrue hl =>
    obtain ⟨pc', hl, hT⟩ := hmark _ _ hl
    obtain ⟨v, t, he, ht⟩ := hs.pop
    rw [eq_onStack he, dispatch_jumpTrue hop hl]
    exact abides_branch hf nofun rfl hτ hT ht
  | jumpFalse hl =>
    obtain ⟨pc', hl, hT⟩ := hmark _ _ hl
    obtain ⟨v, t, he, ht⟩ := hs.pop
    rw [eq_onStack he, dispatch_jumpFalse hop hl]
    exact abides_branch hf nofun rfl hτ hT ht
  | call =>
    obtain ⟨callee, t, he, ht₁⟩ := hs.pop
    obtain ⟨args, t, rfl, rfl, ht⟩ := ht₁.popValues
    rw [eq_onStack he, dispatch_call hop]
    exact abides_called hf hhosts hg hglobal nofun rfl (frameCount_pushed args t).symm hτ ht
  | callMethod =>
    obtain ⟨callee, t, he, ht₁⟩ := hs.pop
    obtain ⟨receiver, t, rfl, ht₂⟩ := ht₁.pop
    obtain ⟨args, t, rfl, rfl, ht⟩ := ht₂.popValues
    rw [eq_onStack he, dispatch_callMethod hop]
    exact abides_called hf hhosts hg hglobal nofun rfl (frameCount_pushed args t).symm hτ ht
  | ret hscript => exact abides_ret hf rfl hop (by simpa using hscript) hs
  | @enterScope k s =>
    obtain ⟨_, _, _, _, hheld, _⟩ := id hs
    rw [dispatch_enterScope hop]
    have hopens := Heap.opens_newChild hf hheld.lt
    refine ⟨.of_nowhere hopens.spares, .opens rfl rfl hopens ?_⟩
    rw [Setting.At, show E.layout _ _ = _ from hτ]
    exact hs.enterScope hopens
  | leaveScope =>
    obtain ⟨outer, hp, ht⟩ := hs.leaveScope
    rw [dispatch_leaveScope hop hp]
    exact abides_stays nofun (.refl hf) rfl hτ ht
  | loopStart =>
    rw [eq_onStack (m := m) rfl, dispatch_loopStart hop]
    exact abides_stays nofun (.refl hf) rfl hτ hs.openLoop
  | loopEnd =>
    obtain ⟨e, t, he, ht, -⟩ := hs.closeLoop
    rw [eq_onStack he, dispatch_loopEnd hop]
    exact abides_stays nofun (.refl hf) rfl hτ ht
  | loopExit hl =>
    obtain ⟨pc', hl, hT⟩ := hmark _ _ hl
    obtain ⟨e, t, he, -, ht⟩ := hs.closeLoop
    rw [eq_onStack he, dispatch_loopExit hop hl]
    exact abides_stays nofun (.refl hf) rfl hT (he ▸ ht)
  | @tryStart h f k s hl hfinal =>
    obtain ⟨pc', hl, hT⟩ := hmark _ _ hl
    obtain ⟨finalPc, hfinal⟩ : ∃ finalPc : Option Nat, f.map m.program.jumpTarget? = finalPc.map some := by
      cases f with
      | none => exact ⟨none, rfl⟩
      | some l =>
        obtain ⟨pc'', hl', -⟩ := hmark _ _ (hfinal l rfl)
        exact ⟨some pc'', congrArg some hl'⟩
    rw [eq_onStack (m := m) rfl, dispatch_tryStart hop hl hfinal]
    exact abides_stays nofun (.refl hf) rfl hτ (hs.openRegion hT)
  | tryKeep hl =>
    obtain ⟨pc', hl, hT⟩ := hmark _ _ hl
    obtain ⟨v, t, he, ht⟩ := hs.pop
    rw [eq_onStack he, dispatch_tryKeep hop hl]
    exact abides_stays nofun (.refl hf) rfl hτ (ht.openRegion hT).push
  | tryEnd =>
    obtain ⟨r, t, he, ht⟩ := hs.closeRegion
    rw [eq_onStack he, dispatch_tryEnd hop]
    exact abides_stays nofun (.refl hf) rfl hτ ht
  | throw =>
    obtain ⟨v, t, he, ht⟩ := hs.pop
    rw [eq_onStack he, dispatch_throw hop]
    exact ⟨.refl hf, rfl, _, ht⟩
  | createObject =>
    obtain ⟨args, t, rfl, he, ht⟩ := hs.popValues
    rw [eq_onStack he, dispatch_createObject hop]
    exact abides_instantiated hf hhosts hg hroot hglobal rfl (frameCount_pushed args t).symm hτ ht
  | createArray =>
    obtain ⟨items, t, rfl, he, ht⟩ := hs.popValues
    rw [eq_onStack he, dispatch_createArray hop]
    have hspares : Heap.Spares Heap.nowhere m.heap (m.heap.newArray items.toArray).2 := .of_eq hf rfl rfl
    exact abides_stays nofun (.of_nowhere hspares) (frameCount_pushed items t).symm hτ (ht.spares hspares).push
  | @createRecord keys k s =>
    obtain ⟨items, t, hn, he, ht⟩ := hs.popValues
    rw [eq_onStack he, dispatch_createRecord hop hn.symm]
    have hspares : Heap.Spares Heap.nowhere m.heap (newInstance recordClass m.globals (keys.zip items) m.heap).2 :=
      .newInstance hf hroot hglobal
    exact abides_stays nofun (.of_nowhere hspares) (frameCount_pushed items t).symm hτ (ht.spares hspares).push
  | debugger =>
    rw [dispatch_debugger hop]
    split
    · exact abides_stays nofun (.refl hf) rfl hτ hs
    · exact ⟨.refl hf, rfl, by rw [Setting.At, show E.layout _ _ = _ from hτ]; exact hs⟩
  | eof =>
    rw [dispatch_eof hop]
    exact ⟨.refl hf, rfl⟩

/-! ### Unwinding -/

/-- Where unwinding ends among some activations: in one of them, at a handler that finds what it needs, or where the
host called. So many frames are gone as activations. -/
def Landing.Abides (E : Setting) (h : Heap) (active : List Activation) (n : Nat) : Landing → Prop
  | .region r below => ∃ k s dropped b as, active = dropped ++ b :: as ∧ frameCount below + dropped.length = n ∧
      E.layout r.sectionIndex r.handlerPc = ⟨k, .value :: s⟩ ∧ E.Stands h r.sectionIndex ⟨k, s⟩ r.env b as below
  | .host _ below => E.hosted ≠ [] ∧ ∃ dropped, active = dropped ++ E.hosted ∧ frameCount below + dropped.length = n
  | .bottom _ => True

variable {h : Heap} {x n : Nat} {a : Activation} {as : List Activation} {es rest : List Entry} {landing : Landing}

/-- One activation more is over. -/
theorem Landing.Abides.ended (hl : landing.Abides E h as n) (a : Activation) : landing.Abides E h (a :: as) (n + 1) := by
  cases landing with
  | region r below =>
    obtain ⟨k, s, dropped, b, as', rfl, hn, hT, hs⟩ := hl
    exact ⟨k, s, a :: dropped, b, as', rfl, congrArg (· + 1) hn, hT, hs⟩
  | host f below =>
    obtain ⟨hhosted, dropped, rfl, hn⟩ := hl
    exact ⟨hhosted, a :: dropped, rfl, congrArg (· + 1) hn⟩
  | bottom => trivial

/-- Unwinding takes the entries of one activation, or stops at the first try region among them. -/
theorem unwinds_lies (hl : E.Lies h x a s es) (hb : E.Below h x a as rest)
    (hrest : ∀ last, (unwind last rest).1.Abides E h (a :: as) (frameCount rest)) (last : Option Frame) :
    (unwind last (es ++ rest)).1.Abides E h (a :: as) (frameCount (es ++ rest)) := by
  induction hl with
  | nil => exact hrest last
  | value _ ih | loop _ _ ih => exact ih
  | @region k r s es hx hT hk hl ih =>
    subst hx
    exact ⟨k, s, [], a, as, rfl, rfl, hT, es, rest, rfl, hl, hk, hb⟩

theorem unwinds_below (hb : E.Below h x a as rest) (last : Option Frame) :
    (unwind last rest).1.Abides E h (a :: as) (frameCount rest) := by
  induction hb generalizing last with
  | script => trivial
  | @host x a f rest _ hhosted hf =>
    simp only [unwind, hf, if_true]
    exact ⟨hhosted, [a], rfl, rfl⟩
  | @call x a b as f k s es rest _ hf _ hl _ hb ih =>
    simp only [unwind, hf, Bool.false_eq_true, if_false]
    exact (unwinds_lies hl hb ih _).ended a

/-- What routing an error leads to. -/
def Reroutes (E : Setting) (H : History) (m : Machine) : Option Fault × Machine → Prop
  | (none, w) => ∃ dropped b as, H.active = dropped ++ b :: as ∧ w.frames + dropped.length = m.frames ∧ E.At w b as
  | (some _, w) => w.frames ≤ m.frames ∧ (w.state ≠ .error → E.hosted ≠ [] ∧
      ∃ dropped, H.active = dropped ++ E.hosted ∧ w.frames + dropped.length = m.frames)

theorem landed_reroutes {c : Cause} {thrown : Value} {trace : Trace}
    (hl : landing.Abides E m.heap H.active m.frames) : Reroutes E H m (landed m c thrown trace landing) := by
  cases landing with
  | region r below =>
    obtain ⟨k, s, dropped, b, as, hactive, hn, hT, hs⟩ := hl
    refine ⟨dropped, b, as, hactive, hn, ?_⟩
    show E.Stands m.heap r.sectionIndex (E.layout r.sectionIndex r.handlerPc) r.env b as (.value thrown :: below)
    rw [hT]
    exact hs.push
  | host f below =>
    obtain ⟨hhosted, dropped, hactive, hn⟩ := hl
    have hn : frameCount below + dropped.length = m.frames := hn
    exact ⟨show frameCount below ≤ m.frames by omega, fun _ => ⟨hhosted, dropped, hactive, hn⟩⟩
  | bottom last => exact ⟨Nat.zero_le _, fun hne => absurd rfl hne⟩

/-- **Routing an error keeps scopes with their activations.** -/
theorem handle_reroutes (c : Cause) (span : Span) {σ : Shape} (hf : m.heap.Founded)
    (hs : E.Stands m.heap m.sectionIndex σ m.env H.current H.callers m.stack.entries) :
    Reroutes E H m (m.handle c span) ∧ Heap.Spares Heap.nowhere m.heap (m.handle c span).2.heap := by
  by_cases hc : c.isCatchable = true
  · have hspares : Heap.Spares Heap.nowhere m.heap (thrownValue c m.heap).2 := by
      unfold thrownValue
      split
      · exact .refl hf
      · exact .of_eq hf rfl rfl
    obtain ⟨es, rest, he, hl, -, hb⟩ := hs.spares hspares
    have hlanding := unwinds_lies hl hb (unwinds_below hb) none
    rw [← he] at hlanding
    rw [handle_catchable hc]
    refine ⟨landed_reroutes (m := { m with heap := (thrownValue c m.heap).2 }) hlanding, ?_⟩
    cases (unwind none m.stack.entries).1 with
    | region | host => exact hspares
    | bottom last => cases last <;> exact hspares
  · unfold handle
    rw [if_pos (by simpa using hc)]
    exact ⟨⟨Nat.le_refl _, fun hne => absurd rfl hne⟩, .refl hf⟩

/-! ### One step of a run -/

/-- A machine at an instruction, with its history. -/
structure Placed (E : Setting) (H : History) (m : Machine) : Prop where
  program : m.program = E.program
  globals : m.globals = E.globals
  hosts : m.hosts.Spare
  census : Census m.heap E.globals H.all
  /-- An activation waits for each call under way. -/
  frames : H.callers.length = m.frames
  stands : E.At m H.current H.callers

variable {v u : Machine}

/-- An instruction that goes on takes the history along. -/
theorem Placed.follow (hv : Placed E H v) (hi : v.program.instruction? v.sectionIndex v.pc = some i)
    (hsteady : Steady v.fetching u) (hminds : Minds v.fetching u) (ht : Turns E H i.op v.fetching u) :
    Placed E (H.follow v u) u := by
  have hprogram : u.program = E.program := hsteady.program.trans hv.program
  have hglobals : u.globals = E.globals := hsteady.globals.trans hv.globals
  have hhosts : u.hosts.Spare := by rw [hsteady.hosts]; exact hv.hosts
  have hcensus : Census u.heap E.globals H.all := hv.census.spares hminds
  cases ht with
  | stays hop hframes hat =>
    rw [History.follow_leave (n := 0) hi hop hframes]
    exact ⟨hprogram, hglobals, hhosts, hcensus, hv.frames.trans hframes.symm, hat⟩
  | opens hop hframes hopens hat =>
    rw [History.follow_opens hi hop hframes]
    exact ⟨hprogram, hglobals, hhosts, hv.census.opened hopens, hv.frames.trans hframes.symm, hat⟩
  | enters hframes hopens hbound hat =>
    rw [History.follow_enter hi hframes]
    refine ⟨hprogram, hglobals, hhosts, hv.census.entered hopens fun r hr => ?_, ?_, hat⟩
    · obtain ⟨o, ho, rfl⟩ := Option.map_eq_some_iff.1 hr
      exact ⟨⟨o, rfl⟩, hbound o ho⟩
    · exact (congrArg (· + 1) hv.frames).trans hframes.symm
  | @returns b as hop hframes hcallers hat =>
    have hactive : H.active = [H.current] ++ b :: as := by rw [History.active, hcallers]; rfl
    have hleave := History.leave_eq hactive
    have hperm := H.all_leave [H.current].length
    rw [hleave] at hperm
    rw [History.follow_leave (n := 1) hi hop hframes, show H.leave 1 = _ from hleave]
    refine ⟨hprogram, hglobals, hhosts, hcensus.perm hperm.symm, ?_, hat⟩
    have hlen : H.callers.length = v.frames := hv.frames
    have hframes : u.frames + 1 = v.frames := hframes
    rw [hcallers, List.length_cons] at hlen
    show as.length = u.frames
    omega

/-- How a run ends, with its history. -/
structure Concludes (E : Setting) (H : History) (r : Except Fault Stop) (u : Machine) : Prop where
  program : u.program = E.program
  globals : u.globals = E.globals
  hosts : u.hosts.Spare
  census : Census u.heap E.globals H.all
  result : match r with
    | .ok .eof => H.callers.length = u.frames
    | .ok .breakpoint | .ok .boundary => Placed E H u
    | .ok .hostReturn => (E.hosted ≠ [] ∧ H.active = E.hosted) ∧ ∃ v t, u.stack.entries = .value v :: t
    | .error _ => u.state ≠ .error → E.hosted ≠ [] ∧ H.active = E.hosted

/-- What a step of a run leads to. The history takes it in if the instruction was executed. -/
def Tick.Places (E : Setting) (H : History) (v : Machine) (fetched : Bool) : Tick → Prop
  | .next u => fetched = true ∧ Placed E (H.follow v u) u
  | .stop reason u => Concludes E (if fetched then H.follow v u else H) (.ok reason) u
  | .fault f u => Concludes E (if fetched then H.follow v u else H) (.error f) u

theorem globals_handle (m : Machine) (c : Cause) (span : Span) : (m.handle c span).2.globals = m.globals := by
  by_cases hc : c.isCatchable = true
  · rw [handle_catchable hc]
    cases (unwind none m.stack.entries).1 with
    | region | host => rfl
    | bottom last => cases last <;> rfl
  · unfold handle
    rw [if_pos (by simpa using hc)]
    rfl

/-- Routing an error takes the history along. -/
theorem Placed.reroute (hv : Placed E H v) (hi : v.program.instruction? v.sectionIndex v.pc = some i)
    (hop : i.op ≠ .enterScope) (hsteady : Steady v.fetching m) (hminds : Minds v.fetching m)
    (hframes : m.frames = v.frames) {c : Cause} {σ : Shape}
    (hs : E.Stands m.heap m.sectionIndex σ m.env H.current H.callers m.stack.entries) :
    (m.routed c i.span).Places E H v true ∧
      Heap.Spares (fun _ => True) v.heap (m.routed c i.span).machine.heap := by
  have hfounded : m.heap.Founded := hminds.founded
  obtain ⟨hroutes, hspares⟩ := handle_reroutes c i.span hfounded hs
  obtain ⟨hkept, hkeptHosts, -⟩ := handle_keeps m c i.span
  have htotal : Heap.Spares (fun _ => True) v.heap (m.handle c i.span).2.heap :=
    (hminds.mono fun _ _ => trivial).trans hspares.of_nowhere fun _ _ h => h
  have hcensus : Census (m.handle c i.span).2.heap E.globals H.all := hv.census.spares htotal
  have hprogram : (m.handle c i.span).2.program = E.program := hkept.trans (hsteady.program.trans hv.program)
  have hglobals : (m.handle c i.span).2.globals = E.globals :=
    (globals_handle m c i.span).trans (hsteady.globals.trans hv.globals)
  have hhosts : (m.handle c i.span).2.hosts.Spare := by
    rw [hkeptHosts, hsteady.hosts]
    exact hv.hosts
  unfold routed
  generalize m.handle c i.span = handled at hroutes htotal hcensus hprogram hglobals hhosts
  obtain ⟨fault, w⟩ := handled
  cases fault with
  | none =>
    obtain ⟨dropped, b, as, hactive, hn, hat⟩ := hroutes
    have hfollow : H.follow v w = H.leave dropped.length := History.follow_leave hi hop (hn.trans hframes)
    have hperm := H.all_leave dropped.length
    refine ⟨⟨rfl, ?_⟩, htotal⟩
    rw [History.leave_eq hactive] at hfollow hperm
    rw [hfollow]
    refine ⟨hprogram, hglobals, hhosts, hcensus.perm hperm.symm, ?_, hat⟩
    have hlen := congrArg List.length hactive
    have hcallers := hv.frames
    rw [History.active, List.length_cons, List.length_append, List.length_cons] at hlen
    show as.length = w.frames
    omega
  | some fault =>
    obtain ⟨hle, hhost⟩ := hroutes
    have hfollow : H.follow v w = H.leave (v.frames - w.frames) := History.follow_leave hi hop (by omega)
    refine ⟨?_, htotal⟩
    show Concludes E (H.follow v w) (.error fault) w
    rw [hfollow]
    refine ⟨hprogram, hglobals, hhosts, hcensus.perm (H.all_leave _).symm, fun hne => ?_⟩
    obtain ⟨hhosted, dropped, hactive, hn⟩ := hhost hne
    obtain ⟨b, as, hb⟩ := List.exists_cons_of_ne_nil hhosted
    rw [show v.frames - w.frames = dropped.length by omega, History.leave_eq (hactive.trans (by rw [hb]))]
    exact ⟨hhosted, hb.symm⟩

/-- What the instruction at the place of a machine does to its heap and to its activations. -/
theorem Placed.dispatch (hv : Placed E H v) (hi : v.program.instruction? v.sectionIndex v.pc = some i) :
    Abides E H i.op v.fetching (dispatch i v.fetching) :=
  have hroot : v.heap.parent? v.globals = none := by rw [hv.globals]; exact hv.census.root
  have hexist : v.globals.index < v.heap.scopes.size := by rw [hv.globals]; exact hv.census.exist
  dispatch_abides (m := v.fetching) rfl hv.program hv.hosts hv.globals hv.census.founded hroot hexist
    (hv.program ▸ hi) hv.stands

/-- An instruction that stops the run takes the history along. -/
theorem Placed.stop (hv : Placed E H v) (hi : v.program.instruction? v.sectionIndex v.pc = some i)
    (hop : i.op ≠ .enterScope) (hsteady : Steady v.fetching u) {reason : Stop}
    (habides : Abides E H i.op v.fetching (.ok (some reason) u)) :
    Concludes E (H.follow v u) (.ok reason) u ∧ Minds v.fetching u := by
  have hprogram : u.program = E.program := hsteady.program.trans hv.program
  have hglobals : u.globals = E.globals := hsteady.globals.trans hv.globals
  have hhosts : u.hosts.Spare := by rw [hsteady.hosts]; exact hv.hosts
  cases reason with
  | eof =>
    obtain ⟨hminds, hframes⟩ := habides
    rw [History.follow_leave (n := 0) hi hop hframes]
    exact ⟨⟨hprogram, hglobals, hhosts, hv.census.spares hminds, hv.frames.trans hframes.symm⟩, hminds⟩
  | breakpoint =>
    obtain ⟨hminds, hframes, hat⟩ := habides
    have hcensus := hv.census.spares hminds
    rw [History.follow_leave (n := 0) hi hop hframes]
    exact ⟨⟨hprogram, hglobals, hhosts, hcensus,
      hprogram, hglobals, hhosts, hcensus, hv.frames.trans hframes.symm, hat⟩, hminds⟩
  | boundary => exact habides.elim
  | hostReturn =>
    obtain ⟨hminds, hframes, ⟨hhosted, hcallers⟩, hvalue⟩ := habides
    obtain ⟨b, as, hb⟩ := List.exists_cons_of_ne_nil hhosted
    have hactive : H.active = [H.current] ++ b :: as := by rw [History.active, hcallers, hb]; rfl
    have hleave : H.leave 1 = _ := History.leave_eq hactive
    rw [History.follow_leave (n := 1) hi hop hframes]
    refine ⟨⟨hprogram, hglobals, hhosts, (hv.census.spares hminds).perm (H.all_leave 1).symm, ⟨hhosted, ?_⟩, hvalue⟩,
      hminds⟩
    rw [hleave, hb]
    rfl

/-- **One step of a run keeps scopes with their activations**, and takes the history along. -/
theorem tick_places (hv : Placed E H v) (mode : Mode) (first : Bool) :
    (v.tick mode first).Places E H v (v.fetches mode first) ∧
      Heap.Spares (fun _ => True) v.heap (v.tick mode first).machine.heap := by
  have hself : Heap.Spares (fun _ => True) v.heap v.heap := .refl hv.census.founded
  rcases tick_cases mode first v with ⟨-, -, ht, hfetch, -⟩ | ⟨ht, hfetch⟩
  · rw [ht, hfetch]
    exact ⟨⟨hv.program, hv.globals, hv.hosts, hv.census, hv⟩, hself⟩
  rw [ht, hfetch]
  by_cases hrun : v.fetches .run true = true
  · obtain ⟨i, hi, ht⟩ := instruction_of_fetches hrun
    have habides := hv.dispatch hi
    have hsteady := steady_dispatch i v.fetching
    -- a scope is opened without stopping or failing
    have hop : (∀ u, dispatch i v.fetching ≠ .ok none u) → i.op ≠ .enterScope := fun hne hop =>
      hne _ (dispatch_enterScope hop)
    rw [ht, hrun]
    cases hd : Machine.dispatch i v.fetching with
    | ok reason u =>
      rw [hd] at habides hsteady hop
      cases reason with
      | none =>
        obtain ⟨hminds, hturns⟩ := habides
        exact ⟨⟨rfl, hv.follow hi hsteady hminds hturns⟩, Heap.Spares.mono hminds fun _ _ => trivial⟩
      | some reason =>
        obtain ⟨hconcludes, hminds⟩ := hv.stop hi (hop fun _ he => nomatch he) hsteady habides
        exact ⟨hconcludes, Heap.Spares.mono hminds fun _ _ => trivial⟩
    | error c u =>
      rw [hd] at habides hsteady hop
      obtain ⟨hminds, hframes, σ, hs⟩ := habides
      exact hv.reroute hi (hop fun _ he => nomatch he) hsteady hminds hframes hs
  · obtain ⟨fault, hfault, -⟩ := tick_of_not_fetches (Bool.eq_false_iff.2 hrun)
    rw [hfault, Bool.eq_false_iff.2 hrun]
    exact ⟨⟨hv.program, hv.globals, hv.hosts, hv.census, fun hne => absurd rfl hne⟩, hself⟩

end Machine

end ScriptMachine
