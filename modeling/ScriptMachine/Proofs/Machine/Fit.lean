import ScriptMachine.Proofs.Compile.Sections
import ScriptMachine.Proofs.Machine.Guard
import ScriptMachine.Proofs.Machine.Regime

/-!
# Fit — machines that run laid out code

`Stands` relates a stack to the layout of a program: the entries above the topmost frame are those of
the shape at the current instruction, a try region remembers where its handler begins and what lies
below it, and every frame returns to a place whose shape is one value more than what lies below the
frame. One instruction keeps this (`dispatch_settles`), and so does unwinding (`handle_settles`).
-/

namespace ScriptMachine

open Compile

/-- The scope some number of scopes further out. -/
def Heap.climb (h : Heap) : Nat → ScopeId → Option ScopeId
  | 0, s => some s
  | n + 1, s => (h.parent? s).bind (h.climb n)

theorem Heap.Extends.climb {h h' : Heap} (he : h.Extends h') {n : Nat} {s t : ScopeId}
    (hc : h.climb n s = some t) : h'.climb n s = some t := by
  induction n generalizing s with
  | zero => exact hc
  | succ n ih =>
    obtain ⟨p, hp, hc⟩ := Option.bind_eq_some_iff.1 hc
    exact Option.bind_eq_some_iff.2 ⟨p, he s p hp, ih hc⟩

/-- A program with a layout, run under a regime. -/
structure Ground where
  regime : Regime
  program : Program
  layout : Nat → Nat → Shape
  laid : Laid program layout

namespace Ground

variable (G : Ground)

/-- There is an instruction at a place. -/
def InRange (x pc : Nat) : Prop := (G.program.instruction? x pc).isSome = true

/-- A section that an allowed function runs. -/
def Enters (x : Nat) : Prop := ∃ f, G.regime.allows f ∧ f.sectionIndex = x

/-- Under a strict regime, some scope lies a number of scopes further out. -/
def Tracks (h : Heap) (k : Nat) (env base : ScopeId) : Prop :=
  G.regime.strict → h.climb k env = some base

/-- The entries of a running body lie as its slots say. -/
inductive Lies (h : Heap) (x : Nat) (base : ScopeId) : List Slot → List Entry → Prop where
  | nil : Lies h x base [] []
  | value {v s es} : G.regime.Admits v → Lies h x base s es →
      Lies h x base (.value :: s) (.value v :: es)
  | loop {k env s es} : G.Tracks h k env base → Lies h x base s es →
      Lies h x base (.loop k :: s) (.loop env :: es)
  | region {k r s es} : r.sectionIndex = x → G.layout x r.handlerPc = ⟨k, .value :: s⟩ →
      G.InRange x r.handlerPc → G.Tracks h k r.env base → Lies h x base s es →
      Lies h x base (.region k :: s) (.region r :: es)

/-- What lies below the entries of a running body: nothing below the script, else the frame of the
call, and below the frame of a call by the host anything. -/
inductive Below (h : Heap) (hosted : Bool) : Nat → List Entry → Prop where
  | bottom : hosted = false → Below h hosted 0 []
  | host {x f below} : hosted = true → f.fromHost = true → G.Enters x →
      Below h hosted x (.frame f :: below)
  | call {x f k s base es rest} : f.fromHost = false → G.Enters x →
      G.layout f.returnSection f.returnPc = ⟨k, .value :: s⟩ →
      G.InRange f.returnSection f.returnPc → G.Lies h f.returnSection base s es →
      G.Tracks h k f.env base → Below h hosted f.returnSection rest →
      Below h hosted x (.frame f :: (es ++ rest))

/-- A stack below which a body of section `x` stands at a shape. -/
def Stands (h : Heap) (hosted : Bool) (x : Nat) (σ : Shape) (env : ScopeId) (entries : List Entry) : Prop :=
  ∃ base es rest, entries = es ++ rest ∧ G.Lies h x base σ.slots es ∧ G.Tracks h σ.scopes env base ∧
    G.Below h hosted x rest

variable {G} {h h' : Heap} {hosted : Bool} {x k : Nat} {s : List Slot} {σ : Shape} {env base : ScopeId}
  {t entries : List Entry} {v : Value}

/-! ### The heap may change -/

theorem Tracks.passage (hp : G.regime.Passage h h') (ht : G.Tracks h k env base) :
    G.Tracks h' k env base := fun hs => (hp.keeps hs).climb (ht hs)

theorem Lies.passage (hp : G.regime.Passage h h') {es : List Entry} (hl : G.Lies h x base s es) :
    G.Lies h' x base s es := by
  induction hl with
  | nil => exact .nil
  | value hv _ ih => exact .value hv ih
  | loop ht _ ih => exact .loop (ht.passage hp) ih
  | region hx hT hr ht _ ih => exact .region hx hT hr (ht.passage hp) ih

theorem Below.passage (hp : G.regime.Passage h h') {rest : List Entry} (hb : G.Below h hosted x rest) :
    G.Below h' hosted x rest := by
  induction hb with
  | bottom hh => exact .bottom hh
  | host hh hf hx => exact .host hh hf hx
  | call hf hx hT hr hl ht _ ih => exact .call hf hx hT hr (hl.passage hp) (ht.passage hp) ih

theorem Stands.passage (hp : G.regime.Passage h h') (hs : G.Stands h hosted x σ env entries) :
    G.Stands h' hosted x σ env entries := by
  obtain ⟨base, es, rest, he, hl, ht, hb⟩ := hs
  exact ⟨base, es, rest, he, hl.passage hp, ht.passage hp, hb.passage hp⟩

/-! ### Entries on top -/

theorem Stands.pop (hs : G.Stands h hosted x ⟨k, .value :: s⟩ env entries) :
    ∃ v t, entries = .value v :: t ∧ G.regime.Admits v ∧ G.Stands h hosted x ⟨k, s⟩ env t := by
  obtain ⟨base, es, rest, rfl, hl, ht, hb⟩ := hs
  cases hl with
  | @value v s es hv hl => exact ⟨v, es ++ rest, rfl, hv, base, es, rest, rfl, hl, ht, hb⟩

theorem Stands.push (hv : G.regime.Admits v) (hs : G.Stands h hosted x ⟨k, s⟩ env t) :
    G.Stands h hosted x ⟨k, .value :: s⟩ env (.value v :: t) := by
  obtain ⟨base, es, rest, rfl, hl, ht, hb⟩ := hs
  exact ⟨base, .value v :: es, rest, rfl, .value hv hl, ht, hb⟩

/-- Arguments are taken together. -/
theorem Stands.popValues {n : Nat} (hs : G.Stands h hosted x ⟨k, values n s⟩ env entries) :
    ∃ args t, args.length = n ∧ entries = Machine.pushed args t ∧ (∀ v ∈ args, G.regime.Admits v) ∧
      G.Stands h hosted x ⟨k, s⟩ env t := by
  induction n generalizing entries with
  | zero => exact ⟨[], entries, rfl, rfl, nofun, hs⟩
  | succ n ih =>
    obtain ⟨v, t, rfl, hv, hs⟩ := hs.pop
    obtain ⟨args, t, rfl, rfl, ha, hs⟩ := ih hs
    refine ⟨args ++ [v], t, by simp, by simp [Machine.pushed], fun w hw => ?_, hs⟩
    rcases List.mem_append.1 hw with hw | hw
    · exact ha w hw
    · rw [List.mem_singleton.1 hw]
      exact hv

theorem Stands.openLoop (hs : G.Stands h hosted x ⟨k, s⟩ env t) :
    G.Stands h hosted x ⟨k, .loop k :: s⟩ env (.loop env :: t) := by
  obtain ⟨base, es, rest, rfl, hl, ht, hb⟩ := hs
  exact ⟨base, .loop env :: es, rest, rfl, .loop ht hl, ht, hb⟩

/-- A loop marker can be taken, and its scope can be gone back to. -/
theorem Stands.closeLoop {j : Nat} (hs : G.Stands h hosted x ⟨k, .loop j :: s⟩ env entries) :
    ∃ e t, entries = .loop e :: t ∧ G.Stands h hosted x ⟨k, s⟩ env t ∧
      G.Stands h hosted x ⟨j, .loop j :: s⟩ e entries := by
  obtain ⟨base, es, rest, rfl, hl, ht, hb⟩ := hs
  cases hl with
  | @loop j e s es hj hl =>
    exact ⟨e, es ++ rest, rfl, ⟨base, es, rest, rfl, hl, ht, hb⟩,
      ⟨base, .loop e :: es, rest, rfl, .loop hj hl, hj, hb⟩⟩

theorem Stands.openRegion {pc : Nat} {final : Option Nat} (hT : G.layout x pc = ⟨k, .value :: s⟩)
    (hr : G.InRange x pc) (hs : G.Stands h hosted x ⟨k, s⟩ env t) :
    G.Stands h hosted x ⟨k, .region k :: s⟩ env (.region ⟨x, pc, final, env⟩ :: t) := by
  obtain ⟨base, es, rest, rfl, hl, ht, hb⟩ := hs
  exact ⟨base, .region ⟨x, pc, final, env⟩ :: es, rest, rfl, .region rfl hT hr ht hl, ht, hb⟩

theorem Stands.closeRegion {j : Nat} (hs : G.Stands h hosted x ⟨k, .region j :: s⟩ env entries) :
    ∃ r t, entries = .region r :: t ∧ G.Stands h hosted x ⟨k, s⟩ env t := by
  obtain ⟨base, es, rest, rfl, hl, ht, hb⟩ := hs
  cases hl with
  | @region j r s es _ _ _ _ hl => exact ⟨r, es ++ rest, rfl, base, es, rest, rfl, hl, ht, hb⟩

/-- The entries of a body are of the kinds of its slots. -/
theorem Lies.kinds {es : List Entry} (hl : G.Lies h x base s es) :
    es.map Entry.kind = s.map Slot.kind := by
  induction hl with
  | nil => rfl
  | value _ _ ih | loop _ _ ih | region _ _ _ _ _ ih =>
    rw [List.map_cons, List.map_cons, ih]
    rfl

theorem Lies.unframed {es : List Entry} (hl : G.Lies h x base s es) :
    ∀ e ∈ es, (e.kind != .frame) = true := by
  intro e he
  obtain ⟨slot, -, hkind⟩ := List.mem_map.1 (hl.kinds ▸ List.mem_map_of_mem he)
  rw [← hkind]
  cases slot <;> rfl

/-- The kinds of the entries above the topmost frame are those of the slots. -/
theorem Stands.kinds (hs : G.Stands h hosted x σ env entries) :
    (entries.takeWhile fun e => e.kind != .frame).map Entry.kind = σ.slots.map Slot.kind := by
  obtain ⟨base, es, rest, rfl, hl, -, hb⟩ := hs
  have hrest : rest.takeWhile (fun e => e.kind != .frame) = [] := by
    cases hb <;> rfl
  rw [List.takeWhile_append_of_pos hl.unframed, hrest, List.append_nil, hl.kinds]

end Ground

namespace Machine

variable {G : Ground} {hosted : Bool} {m m' : Machine} {i : Instruction}

/-- A machine at an instruction of laid out code, whose heap comes from an earlier one. -/
structure Goes (G : Ground) (hosted : Bool) (h : Heap) (m : Machine) : Prop where
  stands : G.Stands m.heap hosted m.sectionIndex (G.layout m.sectionIndex m.pc) m.env m.stack.entries
  place : m.pc = 0 ∨ G.InRange m.sectionIndex m.pc
  passage : G.regime.Passage h m.heap

/-- A machine whose stack can be unwound. -/
def Falls (G : Ground) (hosted : Bool) (h : Heap) (m : Machine) : Prop :=
  G.regime.Passage h m.heap ∧ ∃ σ, G.Stands m.heap hosted m.sectionIndex σ m.env m.stack.entries

/-- What an instruction of laid out code leads to. -/
def Settles (G : Ground) (hosted : Bool) (h : Heap) :
    EStateM.Result Cause Machine (Option Stop) → Prop
  | .ok none m' => Goes G hosted h m'
  | .ok (some .eof) m' => G.regime.Passage h m'.heap ∧ m'.sectionIndex = 0 ∧
      ∃ k, G.Stands m'.heap hosted m'.sectionIndex ⟨k, []⟩ m'.env m'.stack.entries
  | .ok (some .breakpoint) m' => Goes G hosted h m' ∧ m'.hostCalls = 0
  | .ok (some .hostReturn) m' => G.regime.Passage h m'.heap ∧ hosted = true ∧
      ∃ v t, m'.stack.entries = .value v :: t
  | .ok (some .boundary) _ => False
  | .error c m' => G.regime.Tame c ∧ Falls G hosted h m'

theorem Goes.of {h : Heap} {τ : Shape} (hτ : G.layout m.sectionIndex m.pc = τ)
    (hr : G.InRange m.sectionIndex m.pc)
    (hs : G.Stands m.heap hosted m.sectionIndex τ m.env m.stack.entries)
    (hp : G.regime.Passage h m.heap) : Goes G hosted h m := ⟨hτ ▸ hs, .inr hr, hp⟩

theorem Goes.after {h₀ h : Heap} (hg : Goes G hosted h m) (hp : G.regime.Passage h₀ h) :
    Goes G hosted h₀ m := ⟨hg.stands, hg.place, hp.trans hg.passage⟩

/-! ### One instruction -/

/-- An instruction that gives a value, or an error. -/
theorem settles_give {m₁ : Machine} {k : Nat} {s : List Slot} {t : List Entry}
    {r : Except Cause Value} (hg : G.regime.Gives r)
    (hτ : G.layout m₁.sectionIndex m₁.pc = ⟨k, .value :: s⟩)
    (hr : G.InRange m₁.sectionIndex m₁.pc)
    (hs : G.Stands m₁.heap hosted m₁.sectionIndex ⟨k, s⟩ m₁.env t)
    (hh : G.regime.Holds m₁.heap) : Settles G hosted m₁.heap (give m₁ t r) := by
  cases r with
  | ok v => exact Goes.of hτ hr (hs.push hg) (.refl hh)
  | error c => exact ⟨hg, .refl hh, _, hs⟩

/-- A function that is entered stands on the frame of its call. -/
theorem goes_enterFunction {m₁ : Machine} {k : Nat} {s : List Slot} {f : ScriptFunction}
    {receiver : Option Value} {args : List Value} (hsound : G.regime.Sound m₁)
    (hf : G.regime.allows f) (ha : ∀ v ∈ args, G.regime.Admits v)
    (hτ : G.layout m₁.sectionIndex m₁.pc = ⟨k, .value :: s⟩)
    (hr : G.InRange m₁.sectionIndex m₁.pc)
    (hs : G.Stands m₁.heap hosted m₁.sectionIndex ⟨k, s⟩ m₁.env m₁.stack.entries) :
    Goes G hosted m₁.heap (enterFunction f receiver args false m₁) := by
  have hp := Regime.enterFunction_passage hsound f receiver ha false
  obtain ⟨base, es, rest, he, hl, ht, hb⟩ := hs.passage hp
  refine ⟨?_, .inl rfl, hp⟩
  have hstack : (enterFunction f receiver args false m₁).stack.entries =
      .frame ⟨m₁.sectionIndex, m₁.pc, m₁.env, f.name, false⟩ :: (es ++ rest) := by
    rw [← he]
    rfl
  have hlayout : G.layout (enterFunction f receiver args false m₁).sectionIndex
      (enterFunction f receiver args false m₁).pc = .empty := G.laid.start _
  rw [hlayout, hstack]
  exact ⟨(enterFunction f receiver args false m₁).env, [], _, rfl, .nil, fun _ => rfl,
    .call rfl ⟨f, hf, rfl⟩ hτ hr hl ht hb⟩

/-- A host value that is called gives a value or an error. -/
theorem settles_native {m₁ : Machine} {k : Nat} {s : List Slot} {t : List Entry}
    {handle : NativeHandle} {receiver : Option Value} {args : List Value} (hsound : G.regime.Sound m₁)
    (hrec : ∀ v, receiver = some v → G.regime.Admits v) (ha : ∀ v ∈ args, G.regime.Admits v)
    (hτ : G.layout m₁.sectionIndex m₁.pc = ⟨k, .value :: s⟩)
    (hr : G.InRange m₁.sectionIndex m₁.pc)
    (hs : G.Stands m₁.heap hosted m₁.sectionIndex ⟨k, s⟩ m₁.env t) :
    Settles G hosted m₁.heap (settleNative t (callNative handle receiver args m₁)) := by
  obtain ⟨hp, hg⟩ := Regime.callNative_passage hsound handle hrec ha
  have hm : (callNative handle receiver args m₁).2 = { m₁ with
      heap := (callNative handle receiver args m₁).2.heap
      log := (callNative handle receiver args m₁).2.log } := rfl
  generalize callNative handle receiver args m₁ = called at hp hg hm
  obtain ⟨r, m₂⟩ := called
  simp only at hp hg hm
  have hs := hs.passage hp
  rw [hm]
  cases r with
  | ok v => exact Goes.of hτ hr (hs.push hg) hp
  | error c => exact ⟨hg, hp, _, hs⟩

theorem settles_called {m₁ : Machine} {k : Nat} {s : List Slot} {t : List Entry} {callee : Value}
    {receiver : Option Value} {args : List Value} (hsound : G.regime.Sound m₁)
    (hc : G.regime.Admits callee) (hrec : ∀ v, receiver = some v → G.regime.Admits v)
    (ha : ∀ v ∈ args, G.regime.Admits v)
    (hτ : G.layout m₁.sectionIndex m₁.pc = ⟨k, .value :: s⟩)
    (hr : G.InRange m₁.sectionIndex m₁.pc)
    (hs : G.Stands m₁.heap hosted m₁.sectionIndex ⟨k, s⟩ m₁.env t) :
    Settles G hosted m₁.heap (called m₁ t callee receiver args) := by
  have hfail : ∀ kind, Settles G hosted m₁.heap (.error (.notCallable kind) (m₁.onStack t)) := fun kind =>
    ⟨Regime.tame_of nofun nofun, .refl hsound.heap, _, hs⟩
  unfold called
  cases callee with
  | function id f =>
    have hsound : G.regime.Sound (m₁.onStack t) := hsound.of_heap rfl rfl hsound.heap
    exact goes_enterFunction hsound (hc id f rfl) ha hτ hr hs
  | native handle =>
    simp only
    split
    · exact settles_native hsound hrec ha hτ hr hs
    · exact hfail _
  | _ => exact hfail _

theorem allows_namedMethods {R : Regime} (hsound : R.Sound m) {className : String}
    {methods : List (Nat × ScriptFunction)} (hm : m.program.classMethods? className = some methods)
    {entry : String × Nat × ScriptFunction} (he : entry ∈ namedMethods className methods) :
    R.allows entry.2.2 := by
  obtain ⟨indices, -, rfl⟩ := Option.map_eq_some_iff.1 hm
  obtain ⟨⟨j, f⟩, hj, hname⟩ := List.mem_filterMap.1 he
  obtain ⟨n, -, rfl⟩ := Option.map_eq_some_iff.1 hname
  obtain ⟨j', -, hf⟩ := List.mem_filterMap.1 hj
  obtain ⟨f', hf', heq⟩ := Option.map_eq_some_iff.1 hf
  cases heq
  exact hsound.functions _ (Array.mem_iff_getElem?.2 ⟨_, hf'⟩)

theorem settles_instantiated {m₁ : Machine} {k : Nat} {s : List Slot} {t : List Entry}
    {className : String} {args : List Value} (hsound : G.regime.Sound m₁)
    (ha : ∀ v ∈ args, G.regime.Admits v)
    (hτ : G.layout m₁.sectionIndex m₁.pc = ⟨k, .value :: s⟩)
    (hr : G.InRange m₁.sectionIndex m₁.pc)
    (hs : G.Stands m₁.heap hosted m₁.sectionIndex ⟨k, s⟩ m₁.env t) :
    Settles G hosted m₁.heap (instantiated m₁ t className args) := by
  have hfail : Settles G hosted m₁.heap (.error (.undefinedClass className) (m₁.onStack t)) :=
    ⟨Regime.tame_of nofun nofun, .refl hsound.heap, _, hs⟩
  unfold instantiated
  cases hm : m₁.program.classMethods? className with
  | some methods =>
    simp only
    have hallows : ∀ entry ∈ namedMethods className methods, G.regime.allows entry.2.2 := fun _ he =>
      allows_namedMethods hsound hm he
    have hfields : ∀ b ∈ methodFields (namedMethods className methods), G.regime.Admits b.2 := by
      intro b hb
      obtain ⟨entry, hentry, rfl⟩ := List.mem_map.1 hb
      intro id f he
      cases he
      exact hallows entry hentry
    have hp := Regime.passage_newInstance hsound.heap className m₁.globals hfields
    have hs := hs.passage hp
    split
    · rename_i f hfind
      have hf := hallows _ (List.mem_reverse.1 (List.mem_of_find?_eq_some hfind))
      have hsound₂ : G.regime.Sound ({ m₁ with heap := _ }.onStack t) :=
        hsound.of_heap rfl rfl hp.holds
      exact (goes_enterFunction hsound₂ hf ha hτ hr hs).after hp
    · exact Goes.of hτ hr (hs.push (Regime.admits_of nofun)) hp
  | none =>
    simp only
    split
    · split
      · exact settles_native hsound nofun ha hτ hr hs
      · exact hfail
    · exact hfail

/-- An instruction that writes a property. -/
theorem settles_write {k : Nat} {s : List Slot} {t : List Entry} {target key v : Value}
    (hsound : G.regime.Sound m) (hv : G.regime.Admits v)
    (hτ : G.layout m.sectionIndex m.pc = ⟨k, s⟩) (hr : G.InRange m.sectionIndex m.pc)
    (hs : G.Stands m.heap hosted m.sectionIndex ⟨k, s⟩ m.env t) :
    Settles G hosted m.heap (settleWrite t (m.setProperty target key v)) := by
  obtain ⟨hp, hm, hc⟩ := Regime.setProperty_passage hsound target key hv
  generalize m.setProperty target key v = written at hp hm hc
  obtain ⟨r, m₂⟩ := written
  simp only at hp hm hc
  have hs := hs.passage hp
  rw [hm]
  cases r with
  | ok _ => exact Goes.of hτ hr hs hp
  | error c => exact ⟨hc c rfl, hp, _, hs⟩

theorem goes_branch {k pc : Nat} {s : List Slot} {t : List Entry} {taken : Bool}
    (hτ : G.layout m.sectionIndex m.pc = ⟨k, s⟩) (hr : G.InRange m.sectionIndex m.pc)
    (hT : G.layout m.sectionIndex pc = ⟨k, s⟩) (hr' : G.InRange m.sectionIndex pc)
    (hs : G.Stands m.heap hosted m.sectionIndex ⟨k, s⟩ m.env t) (hh : G.regime.Holds m.heap) :
    Goes G hosted m.heap ((m.branch taken pc).onStack t) := by
  cases taken with
  | true => exact .of hT hr' hs (.refl hh)
  | false => exact .of hτ hr hs (.refl hh)

/-- A return finds the frame of its call below its value. -/
theorem settles_ret {k : Nat} (hop : i.op = .ret) (hx : m.sectionIndex ≠ 0)
    (hs : G.Stands m.heap hosted m.sectionIndex ⟨k, [.value]⟩ m.env m.stack.entries)
    (hh : G.regime.Holds m.heap) : Settles G hosted m.heap (dispatch i m) := by
  obtain ⟨v, t, he, hv, base, es, rest, ht, hl, -, hb⟩ := hs.pop
  cases hl
  rw [List.nil_append] at ht
  subst ht
  generalize hsec : m.sectionIndex = x at hb
  cases hb with
  | bottom => exact absurd hsec hx
  | host hhosted hf _ =>
    rw [eq_onStack he, dispatch_ret hop, if_pos hf]
    exact ⟨.refl hh, hhosted, v, _, rfl⟩
  | @call _ f k' s' base' es rest hf _ hT hr hl ht hb =>
    rw [eq_onStack he, dispatch_ret hop, if_neg (by rw [hf]; exact Bool.false_ne_true)]
    have hs : G.Stands m.heap hosted f.returnSection ⟨k', s'⟩ f.env (es ++ rest) :=
      ⟨base', es, rest, rfl, hl, ht, hb⟩
    exact Goes.of hT hr (hs.push hv) (.refl hh)

theorem stands_enterScope {h : Heap} {x k : Nat} {s : List Slot} {env : ScopeId} {t : List Entry}
    (hs : G.Stands h hosted x ⟨k, s⟩ env t) (hp : G.regime.Passage h (h.newChild env).2) :
    G.Stands (h.newChild env).2 hosted x ⟨k + 1, s⟩ (h.newChild env).1 t := by
  obtain ⟨base, es, rest, he, hl, ht, hb⟩ := hs.passage hp
  refine ⟨base, es, rest, he, hl, fun hstrict => ?_, hb⟩
  have hparent : (h.newChild env).2.parent? (h.newChild env).1 = some env := by
    rw [Heap.newChild, Regime.parent?_push]
    exact if_pos rfl
  exact Option.bind_eq_some_iff.2 ⟨env, hparent, ht hstrict⟩

/-- Under a strict regime there is a scope to leave to. -/
theorem settles_leaveScope {k : Nat} {s : List Slot} (hop : i.op = .leaveScope)
    (hτ : G.layout m.sectionIndex m.pc = ⟨k, s⟩) (hr : G.InRange m.sectionIndex m.pc)
    (hs : G.Stands m.heap hosted m.sectionIndex ⟨k + 1, s⟩ m.env m.stack.entries)
    (hh : G.regime.Holds m.heap) : Settles G hosted m.heap (dispatch i m) := by
  obtain ⟨base, es, rest, he, hl, ht, hb⟩ := hs
  cases hp : m.heap.parent? m.env with
  | none =>
    rw [dispatch_leaveRoot hop hp]
    refine ⟨⟨nofun, fun hstrict => ?_⟩, .refl hh, _, base, es, rest, he, hl, ht, hb⟩
    have hclimb := ht hstrict
    simp [Heap.climb, hp] at hclimb
  | some outer =>
    rw [dispatch_leaveScope hop hp]
    refine Goes.of hτ hr ⟨base, es, rest, he, hl, fun hstrict => ?_, hb⟩ (.refl hh)
    have hclimb := ht hstrict
    simpa [Heap.climb, hp] using hclimb

/-- **One instruction keeps the layout**: it finds on the stack what it needs, and leaves there what
the next instruction needs. The place of the machine is already that of the next instruction. -/
theorem dispatch_settles {pc : Nat} (hpc : m.pc = pc + 1) (hprogram : m.program = G.program)
    (hsound : G.regime.Sound m) (hi : G.program.instruction? m.sectionIndex pc = some i)
    (hs : G.Stands m.heap hosted m.sectionIndex (G.layout m.sectionIndex pc) m.env m.stack.entries) :
    Settles G hosted m.heap (dispatch i m) := by
  obtain ⟨J, hstep, hleads⟩ := G.laid.step hi
  have hnext := G.laid.next hi
  have hh := hsound.heap
  rw [← hpc] at hstep hnext
  generalize hτ : G.layout m.sectionIndex m.pc = τ at hstep
  generalize G.layout m.sectionIndex pc = σ at hstep hs
  generalize hop : i.op = op at hstep
  have hr : op ≠ .ret → op ≠ .eof → G.InRange m.sectionIndex m.pc := hop ▸ hnext
  have hmark : ∀ l ρ, (l, ρ) ∈ J → ∃ pc', m.program.jumpTarget? l = some pc' ∧
      G.layout m.sectionIndex pc' = ρ ∧ G.InRange m.sectionIndex pc' := hprogram ▸ hleads
  -- every case names the entries that the instruction takes and rewrites with its equation
  cases hstep with
  | nop =>
    rw [dispatch_skip (.inl hop)]
    exact .of hτ (hr nofun nofun) hs (.refl hh)
  | label =>
    rw [dispatch_skip (.inr ⟨_, hop⟩)]
    exact .of hτ (hr nofun nofun) hs (.refl hh)
  | @const index k s hindex =>
    obtain ⟨v, hv⟩ : ∃ v, m.program.constants[index]? = some v :=
      ⟨_, Array.getElem?_eq_getElem (hprogram ▸ hindex)⟩
    have hadmits := hsound.constants v (Array.mem_iff_getElem?.2 ⟨_, hv⟩)
    rw [eq_onStack (m := m) rfl, dispatch_const hop hv]
    exact .of hτ (hr nofun nofun) (hs.push hadmits) (.refl hh)
  | dup =>
    obtain ⟨v, t, he, hv, ht⟩ := hs.pop
    rw [eq_onStack he, dispatch_dup hop]
    exact .of hτ (hr nofun nofun) ((ht.push hv).push hv) (.refl hh)
  | pop =>
    obtain ⟨v, t, he, hv, ht⟩ := hs.pop
    rw [eq_onStack he, dispatch_pop hop]
    exact .of hτ (hr nofun nofun) ht (.refl hh)
  | fetch =>
    rw [eq_onStack (m := m) rfl, dispatch_fetch hop]
    exact settles_give (Regime.gives_lookup hsound _) hτ (hr nofun nofun) hs hh
  | fetchProperty hn =>
    obtain ⟨v, t, he, hv, ht⟩ := hs.pop
    rw [eq_onStack he, dispatch_fetchProperty hop hn]
    exact settles_give (Regime.gives_property hsound _ _) hτ (hr nofun nofun) ht hh
  | fetchElement =>
    obtain ⟨key, t, he, -, ht⟩ := hs.pop
    obtain ⟨target, t, rfl, -, ht⟩ := ht.pop
    rw [eq_onStack he, dispatch_fetchElement hop]
    exact settles_give (Regime.gives_property hsound _ _) hτ (hr nofun nofun) ht hh
  | @store name k s =>
    obtain ⟨v, t, he, hv, ht⟩ := hs.pop
    rw [eq_onStack he, dispatch_store hop]
    cases hslot : m.heap.slot m.env name with
    | ok slot =>
      have hp := Regime.passage_define hh hv slot name
      exact .of hτ (hr nofun nofun) (ht.passage hp) hp
    | error c =>
      have hc : c = .undefinedVariable name := by
        unfold Heap.slot at hslot
        split at hslot <;> cases hslot
        rfl
      rw [hc]
      exact ⟨Regime.tame_of nofun nofun, .refl hh, _, ht⟩
  | @storeProperty name k s hn =>
    obtain ⟨target, t, he, -, ht⟩ := hs.pop
    obtain ⟨v, t, rfl, hv, ht⟩ := ht.pop
    rw [eq_onStack he, dispatch_storeProperty hop hn]
    exact settles_write hsound hv hτ (hr nofun nofun) ht
  | storeElement =>
    obtain ⟨key, t, he, -, ht⟩ := hs.pop
    obtain ⟨target, t, rfl, -, ht⟩ := ht.pop
    obtain ⟨v, t, rfl, hv, ht⟩ := ht.pop
    rw [eq_onStack he, dispatch_storeElement hop]
    exact settles_write hsound hv hτ (hr nofun nofun) ht
  | @declare name σ =>
    rw [dispatch_declare hop]
    have hp := Regime.passage_define hh (Regime.admits_of nofun : G.regime.Admits .undefined) m.env name
    exact .of hτ (hr nofun nofun) (hs.passage hp) hp
  | binary =>
    obtain ⟨b, t, he, -, ht⟩ := hs.pop
    obtain ⟨a, t, rfl, -, ht⟩ := ht.pop
    rw [eq_onStack he, dispatch_binary hop]
    exact settles_give (Regime.gives_apply _ _ _ _) hτ (hr nofun nofun) ht hh
  | jump hl =>
    obtain ⟨pc', hl, hT, hr'⟩ := hmark _ _ hl
    rw [dispatch_jump hop hl]
    exact .of hT hr' hs (.refl hh)
  | jumpTrue hl =>
    obtain ⟨pc', hl, hT, hr'⟩ := hmark _ _ hl
    obtain ⟨v, t, he, -, ht⟩ := hs.pop
    rw [eq_onStack he, dispatch_jumpTrue hop hl]
    exact goes_branch hτ (hr nofun nofun) hT hr' ht hh
  | jumpFalse hl =>
    obtain ⟨pc', hl, hT, hr'⟩ := hmark _ _ hl
    obtain ⟨v, t, he, -, ht⟩ := hs.pop
    rw [eq_onStack he, dispatch_jumpFalse hop hl]
    exact goes_branch hτ (hr nofun nofun) hT hr' ht hh
  | call =>
    obtain ⟨callee, t, he, hc, ht⟩ := hs.pop
    obtain ⟨args, t, rfl, rfl, ha, ht⟩ := ht.popValues
    rw [eq_onStack he, dispatch_call hop]
    exact settles_called hsound hc nofun ha hτ (hr nofun nofun) ht
  | callMethod =>
    obtain ⟨callee, t, he, hc, ht⟩ := hs.pop
    obtain ⟨receiver, t, rfl, hrec, ht⟩ := ht.pop
    obtain ⟨args, t, rfl, rfl, ha, ht⟩ := ht.popValues
    rw [eq_onStack he, dispatch_callMethod hop]
    exact settles_called hsound hc (fun v hv => Option.some.inj hv ▸ hrec) ha hτ (hr nofun nofun) ht
  | ret hscript => exact settles_ret hop (by simpa using hscript) hs hh
  | @enterScope k s =>
    rw [dispatch_enterScope hop]
    have hp := Regime.passage_newScope hh { parent := some m.env } rfl
    exact .of hτ (hr nofun nofun) (stands_enterScope hs hp) hp
  | leaveScope => exact settles_leaveScope hop hτ (hr nofun nofun) hs hh
  | loopStart =>
    rw [eq_onStack (m := m) rfl, dispatch_loopStart hop]
    exact .of hτ (hr nofun nofun) hs.openLoop (.refl hh)
  | loopEnd =>
    obtain ⟨e, t, he, ht, -⟩ := hs.closeLoop
    rw [eq_onStack he, dispatch_loopEnd hop]
    exact .of hτ (hr nofun nofun) ht (.refl hh)
  | loopExit hl =>
    obtain ⟨pc', hl, hT, hr'⟩ := hmark _ _ hl
    obtain ⟨e, t, he, -, ht⟩ := hs.closeLoop
    rw [eq_onStack he, dispatch_loopExit hop hl]
    exact .of hT hr' (he ▸ ht) (.refl hh)
  | @tryStart h f k s hl hf =>
    obtain ⟨pc', hl, hT, hr'⟩ := hmark _ _ hl
    obtain ⟨finalPc, hfinal⟩ : ∃ finalPc : Option Nat,
        f.map m.program.jumpTarget? = finalPc.map some := by
      cases f with
      | none => exact ⟨none, rfl⟩
      | some l =>
        obtain ⟨pc'', hl', -⟩ := hmark _ _ (hf l rfl)
        exact ⟨some pc'', congrArg some hl'⟩
    rw [eq_onStack (m := m) rfl, dispatch_tryStart hop hl hfinal]
    exact .of hτ (hr nofun nofun) (hs.openRegion hT hr') (.refl hh)
  | tryKeep hl =>
    obtain ⟨pc', hl, hT, hr'⟩ := hmark _ _ hl
    obtain ⟨v, t, he, hv, ht⟩ := hs.pop
    rw [eq_onStack he, dispatch_tryKeep hop hl]
    exact .of hτ (hr nofun nofun) ((ht.openRegion hT hr').push hv) (.refl hh)
  | tryEnd =>
    obtain ⟨r, t, he, ht⟩ := hs.closeRegion
    rw [eq_onStack he, dispatch_tryEnd hop]
    exact .of hτ (hr nofun nofun) ht (.refl hh)
  | throw =>
    obtain ⟨v, t, he, hv, ht⟩ := hs.pop
    rw [eq_onStack he, dispatch_throw hop]
    exact ⟨⟨fun w hw => Cause.thrown.inj hw ▸ hv, fun _ => nofun⟩, .refl hh, _, ht⟩
  | createObject =>
    obtain ⟨args, t, rfl, he, ha, ht⟩ := hs.popValues
    rw [eq_onStack he, dispatch_createObject hop]
    exact settles_instantiated hsound ha hτ (hr nofun nofun) ht
  | createArray =>
    obtain ⟨items, t, rfl, he, ha, ht⟩ := hs.popValues
    rw [eq_onStack he, dispatch_createArray hop]
    have hp := Regime.passage_newArray hh fun v hv => ha v (List.mem_toArray.1 hv)
    exact .of hτ (hr nofun nofun) ((ht.passage hp).push (Regime.admits_of nofun)) hp
  | @createRecord keys k s =>
    obtain ⟨items, t, hn, he, ha, ht⟩ := hs.popValues
    rw [eq_onStack he, dispatch_createRecord hop hn.symm]
    have hfields : ∀ b ∈ keys.zip items, G.regime.Admits b.2 := fun b hb =>
      ha _ (List.of_mem_zip hb).2
    have hp := Regime.passage_newInstance hh recordClass m.globals hfields
    exact .of hτ (hr nofun nofun) ((ht.passage hp).push (Regime.admits_of nofun)) hp
  | debugger =>
    rw [dispatch_debugger hop]
    split
    · exact .of hτ (hr nofun nofun) hs (.refl hh)
    · rename_i hcalls
      exact ⟨.of hτ (hr nofun nofun) hs (.refl hh), Nat.eq_zero_of_not_pos hcalls⟩
  | eof hscript =>
    rw [dispatch_eof hop]
    exact ⟨.refl hh, by simpa using hscript, _, hs⟩

/-! ### Unwinding -/

/-- Where unwinding ends: at a handler that finds what it needs, or at the bottom of the activations. -/
def Landing.Fits (G : Ground) (h : Heap) (hosted : Bool) : Landing → Prop
  | .region r below => ∃ k s, G.layout r.sectionIndex r.handlerPc = ⟨k, .value :: s⟩ ∧
      G.InRange r.sectionIndex r.handlerPc ∧ G.Stands h hosted r.sectionIndex ⟨k, s⟩ r.env below
  | .host _ _ => hosted = true
  | .bottom _ => hosted = false

/-- Unwinding takes the entries of one body, or stops at the first try region among them. -/
theorem unwind_lies {h : Heap} {x : Nat} {base : ScopeId} {s : List Slot} {es rest : List Entry}
    (hl : G.Lies h x base s es) (hb : G.Below h hosted x rest)
    (hrest : ∀ last, (unwind last rest).1.Fits G h hosted) (last : Option Frame) :
    (unwind last (es ++ rest)).1.Fits G h hosted := by
  induction hl with
  | nil => exact hrest last
  | value _ _ ih | loop _ _ ih => exact ih
  | @region k r s es hx hT hr ht hl ih =>
    subst hx
    exact ⟨k, s, hT, hr, base, es, rest, rfl, hl, ht, hb⟩

theorem unwind_below {h : Heap} {x : Nat} {rest : List Entry} (hb : G.Below h hosted x rest)
    (last : Option Frame) : (unwind last rest).1.Fits G h hosted := by
  induction hb generalizing last with
  | bottom hh => exact hh
  | host hh hf _ =>
    simp only [unwind, hf, if_true]
    exact hh
  | call hf _ _ _ hl _ hb ih =>
    simp only [unwind, hf, Bool.false_eq_true, if_false]
    exact unwind_lies hl hb ih _

/-- What routing an error leads to. -/
def Routes (G : Ground) (hosted : Bool) (h : Heap) : Option Fault × Machine → Prop
  | (none, m') => Goes G hosted h m'
  | (some fault, m') => G.regime.Passage h m'.heap ∧ (hosted = false → m'.state = .error) ∧
      (G.regime.strict → ∀ b, fault.cause ≠ .invariant b)

theorem surfacedCause_kept {h : Heap} {v : Value} {c : Cause} (hc : ∀ b, c ≠ .invariant b) :
    ∀ b, surfacedCause h v c ≠ .invariant b := by
  intro b
  cases c with
  | invariant b' => exact absurd rfl (hc b')
  | _ => exact nofun

/-- **Routing an error keeps the layout**: a handler finds the exception above what lay below its
region. -/
theorem handle_routes {h : Heap} {c : Cause} (hc : G.regime.Tame c) (hf : Falls G hosted h m)
    (span : Span) : Routes G hosted h (m.handle c span) := by
  obtain ⟨hpass, σ, hs⟩ := hf
  have hh := hpass.holds
  unfold handle
  by_cases hcatch : c.isCatchable = true
  · have hkept : ∀ b, c ≠ .invariant b := fun b he => by rw [he] at hcatch; cases hcatch
    obtain ⟨hv, hp⟩ : G.regime.Admits (thrownValue c m.heap).1 ∧
        G.regime.Passage m.heap (thrownValue c m.heap).2 := by
      unfold thrownValue
      split
      · exact ⟨hc.thrown _ rfl, .refl hh⟩
      · exact ⟨Regime.admits_of nofun, Regime.passage_newError hh _⟩
    obtain ⟨base, es, rest, he, hl, -, hb⟩ := hs.passage hp
    have hland := unwind_lies hl hb (unwind_below hb) none
    rw [← he] at hland
    simp only [hcatch, Bool.not_true, Bool.false_eq_true, if_false, onHeap_eq]
    cases hu : unwind none m.stack.entries with
    | mk landing frames =>
      rw [hu] at hland
      cases landing with
      | region r below =>
        obtain ⟨k, s, hT, hr, hs⟩ := hland
        exact .of hT hr (hs.push hv) (hpass.trans hp)
      | host f below =>
        have hhosted : hosted = true := hland
        refine ⟨hpass.trans hp, fun hfalse => ?_, fun _ => surfacedCause_kept hkept⟩
        rw [hfalse] at hhosted
        cases hhosted
      | bottom last =>
        refine ⟨?_, fun _ => rfl, fun _ => surfacedCause_kept hkept⟩
        cases last <;> exact hpass.trans hp
  · have hcatch : c.isCatchable = false := Bool.eq_false_iff.2 hcatch
    simp only [hcatch, Bool.not_false, if_true]
    exact ⟨hpass, fun _ => rfl, hc.kept⟩

/-! ### One step of a run -/

/-- A machine of the ground that fetches an instruction. -/
structure Fits (G : Ground) (hosted : Bool) (m : Machine) : Prop where
  program : m.program = G.program
  sound : G.regime.Sound m
  stands : G.Stands m.heap hosted m.sectionIndex (G.layout m.sectionIndex m.pc) m.env m.stack.entries
  place : m.pc = 0 ∨ G.InRange m.sectionIndex m.pc

/-- What a step leaves alone, besides the layout. -/
structure Preserves (G : Ground) (m m' : Machine) : Prop where
  program : m'.program = m.program
  hosts : m'.hosts = m.hosts
  hostCalls : m'.hostCalls = m.hostCalls
  passage : G.regime.Passage m.heap m'.heap

theorem Preserves.refl (hs : G.regime.Sound m) : Preserves G m m := ⟨rfl, rfl, rfl, .refl hs.heap⟩

theorem Preserves.trans {m₁ m₂ m₃ : Machine} (h : Preserves G m₁ m₂) (h' : Preserves G m₂ m₃) :
    Preserves G m₁ m₃ :=
  ⟨h'.program.trans h.program, h'.hosts.trans h.hosts, h'.hostCalls.trans h.hostCalls,
    h.passage.trans h'.passage⟩

theorem Preserves.sound (h : Preserves G m m') (hs : G.regime.Sound m) : G.regime.Sound m' :=
  hs.of_heap h.program h.hosts h.passage.holds

/-- How a step of a run may end it. -/
def Ends (G : Ground) (hosted : Bool) (mode : Mode) (m m' : Machine) : Stop → Prop
  | .eof => m'.sectionIndex = 0 ∧
      ∃ k, G.Stands m'.heap hosted m'.sectionIndex ⟨k, []⟩ m'.env m'.stack.entries
  | .breakpoint => Fits G hosted m' ∧ m.hostCalls = 0
  | .boundary => mode = .step ∧ m' = m
  | .hostReturn => hosted = true ∧ ∃ v t, m'.stack.entries = .value v :: t

/-- What a step of a run leads to. -/
def Tick.Fits (G : Ground) (hosted : Bool) (mode : Mode) (m : Machine) : Tick → Prop
  | .next m' => Preserves G m m' ∧ Machine.Fits G hosted m'
  | .stop reason m' => Preserves G m m' ∧ Ends G hosted mode m m' reason
  | .fault f m' => Preserves G m m' ∧ (hosted = false → m'.state = .error) ∧
      (G.regime.strict → ∀ b, f.cause ≠ .invariant b)

/-- Routing an error leaves the program, the host values and the count of host calls alone. -/
theorem handle_keeps (m : Machine) (c : Cause) (span : Span) :
    (m.handle c span).2.program = m.program ∧ (m.handle c span).2.hosts = m.hosts ∧
      (m.handle c span).2.hostCalls = m.hostCalls := by
  unfold handle
  split
  · exact ⟨rfl, rfl, rfl⟩
  · simp only [onHeap_eq]
    cases unwind none m.stack.entries with
    | mk landing frames =>
      cases landing with
      | region r below => exact ⟨rfl, rfl, rfl⟩
      | host f below => exact ⟨rfl, rfl, rfl⟩
      | bottom last => cases last <;> exact ⟨rfl, rfl, rfl⟩

theorem Fits.of_goes {h : Heap} (hf : Fits G hosted m) (hp : Preserves G m m')
    (hg : Goes G hosted h m') : Fits G hosted m' :=
  ⟨hp.program.trans hf.program, hp.sound hf.sound, hg.stands, hg.place⟩

/-- **One step of a run keeps the layout.** Under a strict regime the place of the machine has to be
in range, and then the step reports no broken promise. -/
theorem tick_fits (hf : Fits G hosted m) (hrange : G.regime.strict → G.InRange m.sectionIndex m.pc)
    (mode : Mode) (first : Bool) : (m.tick mode first).Fits G hosted mode m := by
  have hself : ∀ state, Preserves G m { m with state } := fun _ =>
    ⟨rfl, rfl, rfl, .refl hf.sound.heap⟩
  unfold tick
  split
  · exact ⟨hself _, fun _ => rfl, fun _ => nofun⟩
  · split
    · rename_i hnone
      refine ⟨hself _, fun _ => rfl, fun hstrict => ?_⟩
      have hsome := hrange hstrict
      rw [Ground.InRange, ← hf.program, hnone] at hsome
      cases hsome
    · rename_i i hi
      split
      · rename_i hstep
        exact ⟨hself m.state, hstep.1, rfl⟩
      · have hset := @dispatch_settles G hosted { m with cycles := m.cycles + 1, pc := m.pc + 1 } i m.pc
          rfl hf.program (hf.sound.of_heap rfl rfl hf.sound.heap) (hf.program ▸ hi) hf.stands
        have hsteady := steady_dispatch i { m with cycles := m.cycles + 1, pc := m.pc + 1 }
        split <;> rename_i hd <;> rw [hd] at hset hsteady
        · have hp : Preserves G m _ := ⟨hsteady.program, hsteady.hosts, hsteady.hostCalls, hset.passage⟩
          exact ⟨hp, hf.of_goes hp hset⟩
        · rename_i reason m'
          have hp : G.regime.Passage m.heap m'.heap → Preserves G m m' := fun h =>
            ⟨hsteady.program, hsteady.hosts, hsteady.hostCalls, h⟩
          cases reason with
          | eof => exact ⟨hp hset.1, hset.2⟩
          | breakpoint =>
            exact ⟨hp hset.1.passage, hf.of_goes (hp hset.1.passage) hset.1,
              hsteady.hostCalls.symm.trans hset.2⟩
          | boundary => exact hset.elim
          | hostReturn => exact ⟨hp hset.1, hset.2⟩
        · rename_i c m'
          have hroute := handle_routes hset.1 hset.2 i.span
          obtain ⟨hprogram, hhosts, hcalls⟩ := handle_keeps m' c i.span
          have hp : ∀ m'', (m'.handle c i.span).2 = m'' → G.regime.Passage m.heap m''.heap →
              Preserves G m m'' := fun m'' he h => by
            subst he
            exact ⟨hprogram.trans hsteady.program, hhosts.trans hsteady.hosts,
              hcalls.trans hsteady.hostCalls, h⟩
          split <;> rename_i hhandle <;> rw [hhandle] at hroute hp
          · have hp := hp _ rfl hroute.passage
            exact ⟨hp, hf.of_goes hp hroute⟩
          · exact ⟨hp _ rfl hroute.1, hroute.2⟩

end Machine

end ScriptMachine
