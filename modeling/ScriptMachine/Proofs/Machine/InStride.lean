import ScriptMachine.Proofs.Machine.Abreast
import ScriptMachine.Proofs.Machine.Relocation
import ScriptMachine.Proofs.Value.Hidden

/-!
# InStride — instructions that two machines have in common

An operation that stands for itself in coupled programs (`Compile.Neutral`) does the same on machines that stand
abreast, up to numbers of constants and places in code: names, properties, calls and markers first, then
`tracks_dispatch` for the instruction. After it the machines are at a place where a run can go on.
-/

namespace ScriptMachine

open Compile

variable {P Q : Program} {f : Nat → Nat}

/-! ### Programs and keys -/

namespace Coupling

theorem function? (X : Coupling P Q) (name : String) : Q.function? name = P.function? name := by
  have hvalue : Q.functionValue? = P.functionValue? := by
    funext i
    rw [Program.functionValue?, Program.functionValue?, X.functions]
  rw [Program.function?, Program.function?, Program.functionIndex?, Program.functionIndex?, X.functions, hvalue]

theorem classMethods? (X : Coupling P Q) (className : String) : Q.classMethods? className = P.classMethods? className := by
  rw [Program.classMethods?, Program.classMethods?, X.functions, X.classes]

/-- Places in a section where an instruction stands inside given hidden scopes. -/
def Amid (X : Coupling P Q) (x : Nat) (Γ : List Lodge) (y pc : Nat) : Prop :=
  y = x ∧ X.Inside y pc ∧ X.lodges y pc = Γ

/-- A label that names corresponding places in the two programs. -/
def Leads (X : Coupling P Q) (x l t : Nat) : Prop :=
  P.jumpTarget? l = some t ∧ Q.jumpTarget? l = some (X.place x t)

variable {X : Coupling P Q} {x pc l : Nat} {Γ : List Lodge} {cell : Cell}

theorem Amid.entrance {y : Nat} (h : X.Amid x Γ y pc) : X.Entrance y pc := .inr h.2.1

/-- A label that an instruction names stands inside the hidden scopes that are known of it. -/
theorem leads (X : Coupling P Q) (hcell : (X.sheet x)[pc]? = some cell) (hl : l ∈ cell.instruction.op.targets)
    (hΓ : X.ledger.labels[l]? = some Γ) : ∃ t, X.Leads x l t ∧ X.Amid x Γ x t := by
  obtain ⟨t, goal, ht, ht', hgoal, hop⟩ := X.target hcell hl
  have hknown := (((X.strand x).couple hgoal).of_label hop).2
  rw [hΓ] at hknown
  exact ⟨t, ⟨ht, ht'⟩, rfl, (List.getElem?_eq_some_iff.1 hgoal).1, (Option.some.inj hknown).symm⟩

end Coupling

namespace Heap.Beside

variable {hidden : ScopeId → Prop} {h H : Heap}

theorem keyName (hb : Beside f hidden h H) (key : Value) : (key.repooled f).keyName H = key.keyName h := hb.text key

theorem element? (hb : Beside f hidden h H) (a : ArrayId) (i : Nat) :
    H.element? a i = (h.element? a i).map (·.repooled f) := by
  rw [Heap.element?, hb.elements, Array.getElem?_map]
  rfl

end Heap.Beside

/-- Whether a script has only paused. -/
def Stop.pauses : Stop → Bool
  | .breakpoint | .boundary => true
  | .eof | .hostReturn => false

namespace Machine

theorem method_repooled (methods : List Builtin) (name : String) :
    (Builtin.method methods name).repooled f = Builtin.method methods name := by
  unfold Builtin.method
  split <;> rfl

theorem positional_repooled (key : Value) {elementAt elementAt' : Nat → Option Value}
    (hitem : ∀ i, elementAt' i = (elementAt i).map (·.repooled f)) (length : Nat) (methods : List Builtin) :
    positional (key.repooled f) elementAt' length methods = (positional key elementAt length methods).repooled f := by
  unfold positional
  rw [Value.readPosition?_repooled]
  cases key.readPosition? with
  | some i =>
    simp only [hitem]
    cases elementAt i <;> rfl
  | none =>
    cases key with
    | string name =>
      simp only [Value.repooled_string]
      split
      · rfl
      · exact (method_repooled _ _).symm
    | _ => rfl

theorem place_repooled (i : Nat) (v : Value) (items : Array Value) :
    Heap.place i (v.repooled f) (items.map (·.repooled f)) = (Heap.place i v items).map (·.repooled f) := by
  simp only [Heap.place, Array.size_map]
  split
  · simp
  · simp

theorem bindParams_repooled (params : List String) (args : List Value) :
    bindParams params (args.map (·.repooled f)) = (bindParams params args).map (Prod.map id (·.repooled f)) := by
  induction params generalizing args with
  | nil => rfl
  | cons p ps ih =>
    cases args with
    | nil => exact congrArg (_ :: ·) (ih [])
    | cons v vs => exact congrArg (_ :: ·) (ih vs)

theorem unwindLoop_across (X : Coupling P Q) (entries : List Entry) :
    unwindLoop (entries.map (·.across X)) = match unwindLoop entries with
      | .ok (env, rest) => .ok (env, rest.map (·.across X))
      | .error (found, rest) => .error (found.map (·.across X), rest.map (·.across X)) := by
  induction entries with
  | nil => rfl
  | cons e rest ih =>
    cases e with
    | value v => exact ih
    | _ => rfl

/-- The loop that is left has its marker on the stack. -/
theorem unwindLoop_mem {entries rest : List Entry} {env : ScopeId} (h : unwindLoop entries = .ok (env, rest)) :
    Entry.loop env ∈ entries := by
  induction entries with
  | nil => cases h
  | cons e tail ih =>
    cases e with
    | value v => exact List.mem_cons_of_mem _ (ih h)
    | loop env' =>
      cases h
      exact List.mem_cons_self
    | _ => cases h

namespace Abreast

variable {X : Coupling P Q} {N : Nooks} {A B : Nat → Nat → Prop} {m M : Machine} {x : Nat} {Γ Δ : List Lodge}

/-! ### Names -/

theorem resolve? (hm : Abreast X N m M) {name : String}
    (h : X.lodges m.sectionIndex m.pc = [] ∨ ¬ IsOperand name) :
    M.heap.resolve? M.env name = (m.heap.resolve? m.env name).map (·.repooled X.pool) := by
  rw [hm.env]
  refine hm.grounds.resolve? (h.imp_left fun hΓ => ?_)
  have hlodged := hm.lodged
  rw [hΓ] at hlodged
  exact hlodged.1

/-- A name means the same. -/
theorem lookup (hm : Abreast X N m M) {name : String} (h : X.lodges m.sectionIndex m.pc = [] ∨ ¬ IsOperand name) :
    Replies X.pool (Value.Repools X.pool) (m.lookup name) (M.lookup name) := by
  unfold Machine.lookup
  rw [hm.resolve? h, hm.program', X.function?, hm.program, hm.registry]
  cases m.heap.resolve? m.env name with
  | some v => exact .ok rfl
  | none =>
    cases hf : P.function? name with
    | some v =>
      obtain ⟨index, -, hindex⟩ := Option.bind_eq_some_iff.1 hf
      obtain ⟨g, -, rfl⟩ := Option.map_eq_some_iff.1 hindex
      exact .ok rfl
    | none =>
      cases m.registry.get? name with
      | some handle => exact .ok rfl
      | none => exact .fails rfl

theorem tracks_fetch {name : String} (h : ∀ y pc, A y pc → X.lodges y pc = [] ∨ ¬ IsOperand name) :
    Tracks X N (At A) (Mirrors X.pool A) (readsOrFails (·.lookup name)) (readsOrFails (·.lookup name)) :=
  tracks_readsOrFails fun _ _ hm hA => (hm.lookup (h _ _ hA)).mono fun _ _ hv => ⟨hA, hv⟩

/-! ### Jumps -/

theorem tracks_resolve {l t : Nat} (hl : X.Leads x l t) :
    Tracks X N (At A) (fun m _ a b => A m.sectionIndex m.pc ∧ a = t ∧ b = X.place x t) (Machine.resolve l)
      (Machine.resolve l) :=
  tracks_readsOrFails fun m M hm hA => by
    rw [hm.program, hm.program', hl.1, hl.2]
    exact .ok ⟨hA, rfl, rfl⟩

theorem tracks_jump {l t : Nat} (hl : X.Leads x l t) (ht : X.Amid x Γ x t) :
    Tracks X N (At fun y pc => y = x ∧ X.lodges y pc = Γ) (Equal (X.Amid x Γ)) (jump l) (jump l) := by
  refine (tracks_resolve hl).bind fun a b => tracks_change fun m M hm ⟨⟨hx, hΓ⟩, ha, hb⟩ => ?_
  subst ha
  subst hb
  have hlodged := hm.lodged
  rw [hΓ, ← ht.2.2] at hlodged
  exact ⟨{ hm with pc := by rw [hx], lodged := by rw [hx]; exact hlodged }, ⟨hx, hx ▸ ht.2⟩, rfl⟩

/-! ### Properties -/

/-- A property reads the same. -/
theorem property (hm : Abreast X N m M) (target key : Value) :
    Replies X.pool (Value.Repools X.pool) (m.property target key)
      (M.property (target.repooled X.pool) (key.repooled X.pool)) := by
  have hb := hm.beside
  unfold Machine.property
  cases target with
  | object o =>
    simp only [Value.repooled_object, hb.keyName, hb.eq_fields, hb.getLocal? (hb.fields o).1]
    refine .ok ?_
    cases m.heap.getLocal? (m.heap.fields o) (key.keyName m.heap) <;> rfl
  | array a =>
    simp only [Value.repooled_array, hb.elements, Array.size_map]
    exact .ok (positional_repooled key (fun i => hb.element? a i) _ _)
  | string s =>
    exact .ok (positional_repooled key (fun i => by cases s.toList[i]? <;> rfl) _ _)
  | regex id p =>
    simp only [Value.repooled_regex, hb.keyName]
    refine .ok ?_
    split
    · rfl
    · exact (method_repooled _ _).symm
  | error id message =>
    cases key with
    | string name =>
      refine .ok ?_
      split <;> rfl
    | _ => exact .ok rfl
  | native handle =>
    simp only [Value.repooled_native, hb.keyName, hm.hosts]
    exact (hm.indifferent.find handle).read X.pool N.Hidden m.heap M.heap _ X.pool_injective hb
  | undefined | null | bool | number | function =>
    simp only [Value.repooled_undefined, Value.repooled_null, Value.repooled_bool, Value.repooled_number,
      Value.repooled_function, Value.kind, hb.keyName]
    exact .fails rfl

/-- A property is written the same way. -/
theorem setProperty (hm : Abreast X N m M) (target key v : Value) :
    Abreast X N (m.setProperty target key v).2
        (M.setProperty (target.repooled X.pool) (key.repooled X.pool) (v.repooled X.pool)).2 ∧
      Replies X.pool Eq (m.setProperty target key v).1
        (M.setProperty (target.repooled X.pool) (key.repooled X.pool) (v.repooled X.pool)).1 := by
  have hb := hm.beside
  unfold Machine.setProperty
  cases target with
  | object o =>
    obtain ⟨hslot, hplain⟩ := hb.fieldSlot (hb.fields o).1 (key.keyName m.heap)
    simp only [Value.repooled_object, hb.keyName, hb.eq_fields, hslot]
    exact ⟨hm.onHeap (hb.define hplain _ v), .ok rfl⟩
  | array a =>
    simp only [Value.repooled_array, Value.toPosition?_repooled, hb.keyName]
    cases key.toPosition? with
    | none => exact ⟨hm, .fails rfl⟩
    | some i =>
      simp only [Heap.checkIndex]
      split
      · rename_i hindex
        split at hindex
        · cases hindex
        · exact ⟨hm.onHeap (hb.modifyArray a fun items => place_repooled i v items), .ok rfl⟩
      · rename_i hindex
        split at hindex
        · cases hindex
          exact ⟨hm, .fails rfl⟩
        · cases hindex
  | native handle =>
    simp only [Value.repooled_native, hb.keyName, hm.hosts]
    obtain ⟨hstep, hanswer⟩ := (hm.indifferent.find handle).write X.pool N.Hidden m.heap M.heap
      (key.keyName m.heap) v X.pool_injective hb
    exact ⟨hm.onHeap hstep, hanswer⟩
  | undefined | null | bool | number | string | function | error | regex =>
    simp only [Value.repooled_undefined, Value.repooled_null, Value.repooled_bool, Value.repooled_number,
      Value.repooled_string, Value.repooled_function, Value.repooled_error, Value.repooled_regex, Value.kind, hb.keyName]
    exact ⟨hm, .fails rfl⟩

/-! ### Calls -/

/-- The scope of a call. -/
theorem callScope {h H : Heap} {hidden : ScopeId → Prop} (hb : Heap.Beside f hidden h H) {globals : ScopeId}
    (hglobals : ¬ hidden globals) (hmade : globals.index < h.scopes.size) (receiver : Option Value) :
    (Machine.callScope globals (receiver.map (·.repooled f)) H).1 = (Machine.callScope globals receiver h).1 ∧
      ¬ hidden (Machine.callScope globals receiver h).1 ∧
      (Machine.callScope globals receiver h).1.index < (Machine.callScope globals receiver h).2.scopes.size ∧
      Heap.InStep f hidden h H (Machine.callScope globals receiver h).2
        (Machine.callScope globals (receiver.map (·.repooled f)) H).2 := by
  have hchild : ∀ {s}, ¬ hidden s → s.index < h.scopes.size → (H.newChild s).1 = (h.newChild s).1 ∧
      ¬ hidden (h.newChild s).1 ∧ (h.newChild s).1.index < (h.newChild s).2.scopes.size ∧
      Heap.InStep f hidden h H (h.newChild s).2 (H.newChild s).2 := fun hs hlt => by
    obtain ⟨hscope, hplain, hstep⟩ := hb.newChild hs hlt
    refine ⟨hscope, hplain, ?_, hstep⟩
    rw [Heap.size_newChild, Heap.index_newChild]
    exact Nat.lt_succ_self _
  cases receiver with
  | none => exact hchild hglobals hmade
  | some v =>
    cases v with
    | object o =>
      obtain ⟨hscope, hplain, hlt, hstep⟩ := hchild (hb.fields o).1 (hb.fields o).2
      have hthis := hstep.beside.define hplain thisName (.object o)
      simp only [Machine.callScope, Option.map_some, Value.repooled_object, hb.eq_fields, hscope]
      exact ⟨trivial, hplain, Nat.lt_of_lt_of_le hlt hthis.size, hstep.trans hthis⟩
    | _ => exact hchild hglobals hmade

/-- A function is entered the same way. -/
theorem enterFunction (hm : Abreast X N m M) (g : ScriptFunction) (receiver : Option Value) (args : List Value)
    (fromHost : Bool) (hinside : fromHost = false → X.Inside m.sectionIndex m.pc) :
    Abreast X N (Machine.enterFunction g receiver args fromHost m)
      (Machine.enterFunction g (receiver.map (·.repooled X.pool)) (args.map (·.repooled X.pool)) fromHost M) := by
  obtain ⟨hscope, hplain, hlt, hstep⟩ := callScope hm.beside (Nooks.not_hidden.2 hm.global.1) hm.global.2 receiver
  have hall := hstep.beside.defineAll hplain (bindParams g.params args)
  have hframe : Housed X N m.heap M.heap (.frame ⟨m.sectionIndex, m.pc, m.env, g.name, fromHost⟩) :=
    ⟨hm.lodged, hinside⟩
  have hpushed := (hm.pushed hframe).onHeap (hstep.trans hall)
  have hacross : (Frame.mk m.sectionIndex m.pc m.env g.name fromHost).across X =
      ⟨M.sectionIndex, M.pc, M.env, g.name, fromHost⟩ := by
    simp only [Frame.across, hm.sectionIndex, hm.pc, hm.env]
  simp only [Entry.across, hacross] at hpushed
  simp only [Machine.enterFunction, onHeap_eq, hm.globals, hscope, bindParams_repooled]
  refine { hpushed with sectionIndex := rfl, pc := rfl, env := rfl, globals := rfl, lodged := ?_ }
  simp only [X.lodges_zero]
  exact ⟨Nooks.not_hidden.1 hplain, Nat.lt_of_lt_of_le hlt hall.size⟩

/-- A host value is called the same way. -/
theorem callNative (hm : Abreast X N m M) (handle : NativeHandle) (receiver : Option Value) (args : List Value) :
    Abreast X N (Machine.callNative handle receiver args m).2
        (Machine.callNative handle (receiver.map (·.repooled X.pool)) (args.map (·.repooled X.pool)) M).2 ∧
      Replies X.pool (Value.Repools X.pool) (Machine.callNative handle receiver args m).1
        (Machine.callNative handle (receiver.map (·.repooled X.pool)) (args.map (·.repooled X.pool)) M).1 := by
  have hcall := (hm.indifferent.find handle).call X.pool N.Hidden m.heap M.heap receiver args X.pool_injective hm.beside
  simp only [Machine.callNative, onHeap_eq, hm.hosts]
  exact ⟨{ hm.onHeap hcall.heap with hosts := rfl, log := by simp only [hm.log, hcall.log] }, hcall.result⟩

theorem tracks_callNative (handle : NativeHandle) (receiver : Option Value) (args : List Value) :
    Tracks X N (At A) (Mirrors X.pool A) (changeOrFail (Machine.callNative handle receiver args))
      (changeOrFail (Machine.callNative handle (receiver.map (·.repooled X.pool)) (args.map (·.repooled X.pool)))) :=
  tracks_changeOrFail fun m M hm hA => by
    obtain ⟨hm', hanswers⟩ := hm.callNative handle receiver args
    exact ⟨hm', hanswers.mono fun _ _ hv => ⟨hA, hv⟩⟩

/-- A function that is entered begins at its first instruction. -/
theorem tracks_enterFunction (g : ScriptFunction) (receiver : Option Value) (args : List Value)
    (hA : ∀ y pc, A y pc → X.Inside y pc) :
    Tracks X N (At A) (Equal X.Entrance) (change (Machine.enterFunction g receiver args false))
      (change (Machine.enterFunction g (receiver.map (·.repooled X.pool)) (args.map (·.repooled X.pool)) false)) :=
  tracks_change fun _ _ hm hm' => ⟨hm.enterFunction g receiver args false fun _ => hA _ _ hm', .inl rfl, rfl⟩

theorem tracks_callValue (callee : Value) (receiver : Option Value) (args : List Value)
    (hA : ∀ y pc, A y pc → X.Inside y pc) :
    Tracks X N (At A) (Equal X.Entrance) (callValue callee receiver args)
      (callValue (callee.repooled X.pool) (receiver.map (·.repooled X.pool)) (args.map (·.repooled X.pool))) := by
  cases callee with
  | function id g => exact tracks_enterFunction g receiver args hA
  | native handle =>
    simp only [Value.repooled_native, callValue]
    split
    · exact (tracks_callNative handle receiver args).bind fun _ _ =>
        tracks_push.weaken (fun _ _ h => h) fun _ _ _ _ h => ⟨.inr (hA _ _ h.1), h.2⟩
    · exact tracks_throw rfl
  | _ => exact tracks_throw rfl

/-! ### Objects -/

/-- An object is made the same way. -/
theorem newInstance {h H : Heap} {hidden : ScopeId → Prop} (hb : Heap.Beside f hidden h H) {globals : ScopeId}
    (hglobals : ¬ hidden globals) (hmade : globals.index < h.scopes.size) (className : String)
    (vars : List (String × Value)) :
    (Machine.newInstance className globals (vars.map (Prod.map id (·.repooled f))) H).1 =
        (Machine.newInstance className globals vars h).1 ∧
      Heap.InStep f hidden h H (Machine.newInstance className globals vars h).2
        (Machine.newInstance className globals (vars.map (Prod.map id (·.repooled f))) H).2 := by
  obtain ⟨hobject, hstep⟩ := hb.newObject className hglobals hmade
  have hall := hstep.beside.defineAll (hstep.beside.fields (h.newObject className globals).1).1 vars
  simp only [Machine.newInstance, hobject, hstep.beside.eq_fields]
  exact ⟨trivial, hstep.trans hall⟩

/-- A new object, as a result. -/
theorem tracks_newInstance (className : String) (vars : List (String × Value)) {s : ScopeId} :
    Tracks X N (fun m M => At A m M ∧ m.globals = s) (Equal A) (allocate (Machine.newInstance className s vars))
      (allocate (Machine.newInstance className s (vars.map (Prod.map id (·.repooled X.pool))))) := by
  rintro m M hm ⟨hA, rfl⟩
  obtain ⟨hobject, hstep⟩ := newInstance hm.beside (Nooks.not_hidden.2 hm.global.1) hm.global.2 className vars
  exact .ok (hm.onHeap hstep) ⟨hA, hobject⟩

/-- Going on with the scope of globals. -/
theorem Tracks.onGlobals {γ δ : Type} {S : Machine → Machine → γ → δ → Prop} {p : ScopeId → Exec γ}
    {q : ScopeId → Exec δ} (hp : ∀ s, Tracks X N (fun m M => At A m M ∧ m.globals = s) S (p s) (q s)) :
    Tracks X N (At A) S (reads (·.globals) >>= p) (reads (·.globals) >>= q) := by
  intro m M hm hA
  rw [exec_bind, exec_bind]
  show Ended X N S (p m.globals m) (q M.globals M)
  rw [hm.globals]
  exact hp m.globals m M hm ⟨hA, rfl⟩

theorem methodFields_repooled (named : List (String × Nat × ScriptFunction)) :
    (methodFields named).map (Prod.map id (·.repooled f)) = methodFields named := by
  simp [methodFields]

/-- A value that is pushed where a run can go on. -/
theorem tracks_pushOn (hA : ∀ y pc, A y pc → X.Inside y pc) (v : Value) :
    Tracks X N (At A) (Equal X.Entrance) (push v) (push (v.repooled X.pool)) :=
  tracks_push.weaken (fun _ _ h => ⟨h, rfl⟩) fun _ _ _ _ h => ⟨.inr (hA _ _ h.1), h.2⟩

theorem tracks_instantiate (className : String) (args : List Value) (hA : ∀ y pc, A y pc → X.Inside y pc) :
    Tracks X N (At A) (Equal X.Entrance) (instantiate className args)
      (instantiate className (args.map (·.repooled X.pool))) := by
  have hclass : Tracks X N (At A) (Equal A) (reads (·.program.classMethods? className))
      (reads (·.program.classMethods? className)) :=
    tracks_reads fun m M hm hA => ⟨hA, by rw [hm.program, hm.program', X.classMethods?]⟩
  refine hclass.onEqual fun methods => ?_
  cases methods with
  | some methods =>
    refine Tracks.onGlobals fun globals => ?_
    have hmade := tracks_newInstance (X := X) (N := N) (A := A) className
      (methodFields (namedMethods className methods)) (s := globals)
    rw [methodFields_repooled] at hmade
    refine hmade.onEqual fun object => ?_
    split
    · exact tracks_enterFunction _ (some (.object object)) args hA
    · exact tracks_pushOn hA (.object object)
  | none =>
    have hhandle : Tracks X N (At A) (Equal A) (reads (·.registry.get? className)) (reads (·.registry.get? className)) :=
      tracks_reads fun m M hm hA => ⟨hA, by rw [hm.registry]⟩
    refine hhandle.onEqual fun handle => ?_
    cases handle with
    | some handle =>
      simp only
      split
      · exact (tracks_callNative handle none args).onValue fun v => tracks_pushOn hA v
      · exact tracks_throw rfl
    | none => exact tracks_throw rfl

theorem tracks_createRecord (keys : List String) (hA : ∀ y pc, A y pc → X.Inside y pc) :
    Tracks X N (At A) (Equal X.Entrance) (createRecord keys) (createRecord keys) := by
  refine (tracks_popArgs keys.length).onValues fun values => Tracks.onGlobals fun globals => ?_
  have hmade := tracks_newInstance (X := X) (N := N) (A := A) recordClass (keys.zip values) (s := globals)
  rw [List.zip_map_right.symm] at hmade
  exact hmade.onEqual fun object => tracks_pushOn hA (.object object)

/-! ### Markers -/

/-- A marker of its kind is taken off the stack. -/
theorem tracks_takeMarker (action : String) (kind : EntryKind) {p : Option Entry → Exec (Option Stop)}
    (hp : ∀ e, p e = Pure.pure none ∧ p (e.map (·.across X)) = Pure.pure none ∨
      p e = unexpected action kind e ∧ p (e.map (·.across X)) = unexpected action kind (e.map (·.across X))) :
    Tracks X N (At A) (Equal A) (popEntry >>= p) (popEntry >>= p) := by
  refine tracks_popEntry.bind fun e e' m M hm ⟨hA, he', _⟩ => ?_
  subst he'
  rcases hp e with ⟨he, he'⟩ | ⟨he, he'⟩
  · rw [he, he']
    exact .ok hm ⟨hA, rfl⟩
  · rw [he, he']
    exact tracks_unexpected (I := At A) action kind e m M hm hA

/-- Leaving a loop or starting its next round. -/
theorem tracks_exitLoop {l t : Nat} (hl : X.Leads x l t) (ht : X.Amid x [] x t) :
    Tracks X N (At (X.Amid x [])) (Equal (X.Amid x [])) (exitLoop l) (exitLoop l) := by
  intro m M hm hA
  have hunwind := unwindLoop_across X m.stack.entries
  rw [← hm.entries] at hunwind
  cases hu : unwindLoop m.stack.entries with
  | ok found =>
    obtain ⟨env, rest⟩ := found
    rw [hu] at hunwind
    rw [exitLoop_ok hu, exitLoop_ok hunwind]
    have hsub := (unwindLoop_subset m.stack.entries rest).1 env hu
    have henv : Heap.Lodged N m.heap M.heap (X.lodges m.sectionIndex m.pc) env :=
      hA.2.2.symm ▸ hm.housed _ (unwindLoop_mem hu)
    have hkept : Abreast X N { m with stack := .ofList rest } { M with stack := .ofList (rest.map (·.across X)) } :=
      hm.onEntries rfl fun e he => hm.housed e (hsub he)
    exact tracks_jump hl ht _ _ { hkept with env := rfl, lodged := henv } ⟨hA.1, hA.2.2⟩
  | error found =>
    obtain ⟨found, rest⟩ := found
    rw [hu] at hunwind
    rw [exitLoop_error hu, exitLoop_error hunwind]
    have hsub := (unwindLoop_subset m.stack.entries rest).2 found hu
    exact tracks_unexpected (I := At (X.Amid x [])) "LOOP_EXIT" .loop found _ _
      (hm.onEntries rfl fun e he => hm.housed e (hsub he)) hA

/-- An instruction that neither ends the script nor returns to the host leads to a place where a run can go on. -/
def Resumes (X : Coupling P Q) : Machine → Machine → Option Stop → Option Stop → Prop :=
  fun m _ a b => b = a ∧ (a.all Stop.pauses = true → X.Entrance m.sectionIndex m.pc)

/-- A return leads to the place that the frame holds. -/
theorem tracks_returnToFrame :
    Tracks X N (fun _ _ => True) (Resumes X) returnToFrame returnToFrame := by
  refine (tracks_pop.weaken (J := At fun _ _ => True) (fun _ _ _ => trivial) fun _ _ _ _ h => h).onValue fun v => ?_
  refine tracks_popEntry.bind fun e e' m M hm ⟨hA, he', hhoused⟩ => ?_
  subst he'
  cases e with
  | none => exact tracks_unexpected (I := At fun _ _ => True) "RETURN" .frame none m M hm hA
  | some e =>
    cases e with
    | frame f =>
      obtain ⟨hlodged, hinside⟩ := hhoused _ rfl
      have hback : Abreast X N (m.atFrame f) (M.atFrame (f.across X)) :=
        { hm with sectionIndex := rfl, pc := rfl, env := rfl, lodged := hlodged }
      have hend := hback.pushed (e := .value v) trivial
      refine .ok hend ⟨rfl, fun hpauses => .inr (hinside ?_)⟩
      by_contra hhost
      rw [if_pos (by simpa using hhost)] at hpauses
      cases hpauses
    | value v => exact tracks_unexpected (I := At fun _ _ => True) "RETURN" .frame (some (.value v)) m M hm hA
    | region r => exact tracks_unexpected (I := At fun _ _ => True) "RETURN" .frame (some (.region r)) m M hm hA
    | loop env => exact tracks_unexpected (I := At fun _ _ => True) "RETURN" .frame (some (.loop env)) m M hm hA

/-- A region with its handler, and with what follows it, at corresponding places. -/
theorem tracks_markRegion {t : Nat} (ht : X.Amid x [] x t) (finalPc : Option Nat) (held : Option Value) :
    Tracks X N (At (X.Amid x [])) (Equal (X.Amid x [])) (markRegion t finalPc held)
      (markRegion (X.place x t) (finalPc.map (X.place x)) (held.map (·.repooled X.pool))) := by
  have hpush : Tracks X N (At (X.Amid x [])) (Equal (X.Amid x []))
      (change fun m => { m with stack := m.stack.push (.region ⟨m.sectionIndex, t, finalPc, m.env⟩) })
      (change fun m => { m with
        stack := m.stack.push (.region ⟨m.sectionIndex, X.place x t, finalPc.map (X.place x), m.env⟩) }) :=
    tracks_change fun m M hm ⟨hx, hinside, hΓ⟩ => by
      have hlodged := hm.lodged
      rw [hΓ] at hlodged
      have hregion := hm.pushed (e := .region ⟨m.sectionIndex, t, finalPc, m.env⟩)
        ⟨hlodged, by rw [hx]; exact ht.2.2, by rw [hx]; exact ht.2.1⟩
      have hacross : (Entry.region ⟨m.sectionIndex, t, finalPc, m.env⟩).across X =
          .region ⟨M.sectionIndex, X.place x t, finalPc.map (X.place x), M.env⟩ := by
        rw [hm.sectionIndex, hm.env, ← hx]
        rfl
      rw [hacross] at hregion
      exact ⟨hregion, ⟨hx, hinside, hΓ⟩, rfl⟩
  refine hpush.onEqual fun _ => ?_
  cases held with
  | none => exact tracks_pure fun _ _ _ hA => ⟨hA, rfl⟩
  | some v => exact tracks_push.weaken (fun _ _ h => ⟨h, rfl⟩) fun _ _ _ _ h => h

theorem tracks_openRegion {handler t : Nat} {final : Option Nat} (keep : Bool) (hl : X.Leads x handler t)
    (ht : X.Amid x [] x t) (hfinal : ∀ l, final = some l → ∃ u, X.Leads x l u) :
    Tracks X N (At (X.Amid x [])) (Equal (X.Amid x [])) (openRegion handler final keep) (openRegion handler final keep) := by
  refine tracks_popIf keep fun held => (tracks_resolve hl).bind fun a b m M hm ⟨hA, ha, hb⟩ => ?_
  subst ha
  subst hb
  -- the region goes below the operand that is kept
  have hmark : ∀ finalPc finalPc', Tracks X N
      (fun m M => X.Amid x [] m.sectionIndex m.pc ∧ finalPc' = finalPc.map (X.place x)) (Equal (X.Amid x []))
      (markRegion a finalPc held) (markRegion (X.place x a) finalPc' (held.map (·.repooled X.pool))) :=
    fun finalPc _ m M hm ⟨hA, he⟩ => he ▸ tracks_markRegion ht finalPc held m M hm hA
  cases final with
  | none => exact (tracks_pure fun _ _ _ hA => ⟨hA, rfl⟩).bind hmark m M hm hA
  | some l =>
    obtain ⟨u, hu⟩ := hfinal l rfl
    have hresolved : Tracks X N (At (X.Amid x [])) (fun m _ finalPc finalPc' => X.Amid x [] m.sectionIndex m.pc ∧
        finalPc' = finalPc.map (X.place x)) (some <$> Machine.resolve l) (some <$> Machine.resolve l) :=
      (tracks_resolve hu).map fun _ _ _ _ h => ⟨h.1, by rw [h.2.1, h.2.2]; rfl⟩
    exact hresolved.bind hmark m M hm hA

/-! ### Scopes -/

/-- A scope that is made outside of hidden scopes is plain. -/
theorem enterScope (hm : Abreast X N m M) (hΓ : X.lodges m.sectionIndex m.pc = []) :
    Abreast X N { m with env := (m.heap.newChild m.env).1, heap := (m.heap.newChild m.env).2 }
      { M with env := (M.heap.newChild M.env).1, heap := (M.heap.newChild M.env).2 } := by
  have hlodged := hm.lodged
  rw [hΓ] at hlodged
  obtain ⟨hscope, hplain, hstep⟩ := hm.beside.newChild (Nooks.not_hidden.2 hlodged.1) hlodged.2
  rw [hm.env, hscope]
  refine { hm.onHeap hstep with env := rfl, lodged := ?_ }
  simp only [hΓ]
  exact ⟨Nooks.not_hidden.1 hplain, by rw [Heap.size_newChild, Heap.index_newChild]; exact Nat.lt_succ_self _⟩

/-- The scope around a plain one is plain. -/
theorem leaveScope (hm : Abreast X N m M) (hΓ : X.lodges m.sectionIndex m.pc = []) {outer : ScopeId}
    (ho : m.heap.parent? m.env = some outer) : Abreast X N { m with env := outer } { M with env := outer } := by
  have hlodged := hm.lodged
  rw [hΓ] at hlodged
  obtain ⟨hplain, hlt⟩ := hm.beside.parent _ _ (Nooks.not_hidden.2 hlodged.1) ho
  refine { hm with env := rfl, lodged := ?_ }
  simp only [hΓ]
  exact ⟨Nooks.not_hidden.1 hplain, hlt⟩

/-! ### Instructions -/

theorem Tracks.resumes {I : Machine → Machine → Prop} {p q : Exec (Option Stop)} (hp : Tracks X N I (Equal A) p q)
    (hA : ∀ y pc, A y pc → X.Entrance y pc) : Tracks X N I (Resumes X) p q :=
  hp.weaken (fun _ _ h => h) fun _ _ _ _ h => ⟨h.2, fun _ => hA _ _ h.1⟩

/-- A step that goes on. -/
theorem Tracks.goes {α : Type} {I : Machine → Machine → Prop} {p q : Exec α} (hp : Tracks X N I (Equal A) p q)
    (hA : ∀ y pc, A y pc → X.Entrance y pc) (stop : Option Stop) :
    Tracks X N I (Resumes X) (do let _ ← p; return stop) (do let _ ← q; return stop) :=
  (hp.next (fun _ _ _ _ h => h.1) stop).resumes hA

/-! ### Steps of instructions -/

theorem tracks_property (target key : Value) :
    Tracks X N (At A) (Mirrors X.pool A) (readsOrFails (·.property target key))
      (readsOrFails (·.property (target.repooled X.pool) (key.repooled X.pool))) :=
  tracks_readsOrFails fun _ _ hm hA => (hm.property target key).mono fun _ _ hv => ⟨hA, hv⟩

theorem tracks_setProperty (target key v : Value) :
    Tracks X N (At A) (Equal A) (changeOrFail (·.setProperty target key v))
      (changeOrFail (·.setProperty (target.repooled X.pool) (key.repooled X.pool) (v.repooled X.pool))) :=
  tracks_changeOrFail fun m M hm hA => by
    obtain ⟨hm', hanswers⟩ := hm.setProperty target key v
    exact ⟨hm', hanswers.mono fun _ _ h => ⟨by rw [setProperty_heap]; exact hA, h.symm⟩⟩

/-- Assigning to a name that is not hidden. -/
theorem tracks_store {name : String} (h : ∀ y pc, A y pc → X.lodges y pc = [] ∨ ¬ IsOperand name) (v : Value) :
    Tracks X N (At A) (Equal A)
      (do
        let slot ← readsOrFails fun m => m.heap.slot m.env name
        change fun m => m.mapHeap (·.define slot name v)
        return (none : Option Stop))
      (do
        let slot ← readsOrFails fun m => m.heap.slot m.env name
        change fun m => m.mapHeap (·.define slot name (v.repooled X.pool))
        return none) := by
  have hslot : Tracks X N (At A) (fun m _ slot slot' => A m.sectionIndex m.pc ∧ slot' = slot ∧ N slot = none)
      (readsOrFails fun m => m.heap.slot m.env name) (readsOrFails fun m => m.heap.slot m.env name) :=
    tracks_readsOrFails fun m M hm hA => by
      have hs : N m.env = none ∨ ¬ IsOperand name := (h _ _ hA).imp_left fun hΓ => by
        have hlodged := hm.lodged
        rw [hΓ] at hlodged
        exact hlodged.1
      obtain ⟨hslot, hplain⟩ := hm.grounds.slot hs
      rw [hm.env, hslot]
      cases hd : m.heap.slot m.env name with
      | ok slot => exact .ok ⟨hA, rfl, hplain hd⟩
      | error c =>
        unfold Heap.slot at hd
        split at hd
        · cases hd
        · cases hd
          exact .fails rfl
  refine hslot.bind fun slot _ => Tracks.bind (R := Equal A) (tracks_change fun m M hm ⟨hA, he, hplain⟩ => ?_)
    fun _ _ => tracks_pure fun _ _ _ h => ⟨h.1, rfl⟩
  subst he
  exact ⟨hm.onHeap (hm.beside.define (Nooks.not_hidden.2 hplain) name v), hA, rfl⟩

/-- A name that is declared outside of hidden scopes. -/
theorem tracks_declare (name : String) :
    Tracks X N (At (X.Amid x [])) (Equal (X.Amid x []))
      (do
        let env ← reads (·.env)
        change fun m => m.mapHeap (·.define env name .undefined)
        return (none : Option Stop))
      (do
        let env ← reads (·.env)
        change fun m => m.mapHeap (·.define env name .undefined)
        return none) := by
  intro m M hm hA
  have hlodged := hm.lodged
  rw [hA.2.2] at hlodged
  have hend := hm.onHeap (hm.beside.define (Nooks.not_hidden.2 hlodged.1) name .undefined)
  refine .ok (b := none) ?_ ⟨hA, rfl⟩
  show Abreast X N { m with heap := m.heap.define m.env name .undefined }
    { M with heap := M.heap.define M.env name .undefined }
  rw [hm.env] at hend ⊢
  exact hend

theorem answers_apply (op : BinaryOp) (h : Heap) (v w : Value) :
    Replies f (Value.Repools f) (op.apply h v w) (op.apply h v w) := by
  unfold BinaryOp.apply
  split
  · exact .ok rfl
  · exact .ok rfl
  · refine .ok ?_
    unfold BinaryOp.onNumbers
    split <;> rfl
  · exact .ok rfl
  · exact .ok rfl
  · exact .fails rfl

theorem tracks_apply (op : BinaryOp) (v w : Value) :
    Tracks X N (At A) (Mirrors X.pool A) (readsOrFails fun m => op.apply m.heap v w)
      (readsOrFails fun m => op.apply m.heap (v.repooled X.pool) (w.repooled X.pool)) :=
  tracks_readsOrFails fun m M hm hA => by
    rw [hm.beside.apply X.pool_injective]
    exact (answers_apply op m.heap v w).mono fun _ _ hv => ⟨hA, hv⟩

theorem tracks_jumpFrom {l t : Nat} (hl : X.Leads x l t) (ht : X.Amid x Γ x t) :
    Tracks X N (At (X.Amid x Γ)) (Equal (X.Amid x Γ)) (jump l) (jump l) :=
  (tracks_jump hl ht).weaken (fun _ _ h => ⟨h.1, h.2.2⟩) fun _ _ _ _ h => h

theorem tracks_newArray (items : List Value) :
    Tracks X N (At A) (Equal A)
      (do push (.array (← allocate (·.newArray items.toArray))); return none : Exec (Option Stop))
      (do push (.array (← allocate (·.newArray (items.map (·.repooled X.pool)).toArray))); return none) := by
  have hmade : Tracks X N (At A) (Equal A) (allocate (·.newArray items.toArray))
      (allocate (·.newArray (items.map (·.repooled X.pool)).toArray)) := fun m M hm hA => by
    obtain ⟨harray, hstep⟩ := hm.beside.newArray items.toArray
    rw [← List.map_toArray]
    exact .ok (hm.onHeap hstep) ⟨hA, harray⟩
  have hpush : ∀ a, Tracks X N (At A) (Equal A) (push (.array a)) (push (.array a)) := fun a =>
    tracks_push.weaken (fun _ _ h => ⟨h, rfl⟩) fun _ _ _ _ h => h
  exact hmade.onEqual fun a => (hpush a).next (fun _ _ _ _ h => h.1) none

/-! ### Instructions -/

variable {i : Instruction} {cell : Cell} {pc : Nat}

/-- **An instruction that stands for itself** does the same on machines that stand abreast, behind its place. -/
theorem tracks_dispatch (hn : Neutral X.ledger Γ i.op) (hjump : ∀ l ∈ i.op.targets, ∀ {Δ},
    X.ledger.labels[l]? = some Δ → ∃ t, X.Leads x l t ∧ X.Amid x Δ x t) :
    Tracks X N (At fun y pc => y = x ∧ X.lodges y pc = Γ ∧ (i.op.isLast = false → X.Inside y pc)) (Resumes X)
      (dispatch i) (dispatch i) := by
  have hamid : i.op.isLast = false → ∀ {p : Exec (Option Stop)}, Tracks X N (At (X.Amid x Γ)) (Resumes X) p p →
      Tracks X N (At fun y pc => y = x ∧ X.lodges y pc = Γ ∧ (i.op.isLast = false → X.Inside y pc))
        (Resumes X) p p := fun hgoes _ hp =>
    hp.weaken (fun _ _ h => ⟨h.1, h.2.2 hgoes, h.2.1⟩) fun _ _ _ _ h => h
  have hentrance : ∀ y pc, X.Amid x Γ y pc → X.Entrance y pc := fun _ _ h => h.entrance
  have hinside : ∀ y pc, X.Amid x Γ y pc → X.Inside y pc := fun _ _ h => h.2.1
  have hoperand : ∀ {name : String}, Γ = [] ∨ ¬ IsOperand name → ∀ y pc, X.Amid x Γ y pc →
      X.lodges y pc = [] ∨ ¬ IsOperand name := fun h y pc hA => h.imp_left fun hΓ => hA.2.2.trans hΓ
  unfold dispatch
  generalize i.op = op at hn hjump hamid ⊢
  cases op with
  | nop | label => exact hamid rfl ((tracks_pure fun _ _ _ hA => ⟨hA, rfl⟩).resumes hentrance)
  | const => exact hn.elim
  | dup => exact hamid rfl (tracks_peek.give.resumes hentrance)
  | pop => exact hamid rfl ((tracks_pop.next (fun _ _ _ _ h => h.1) none).resumes hentrance)
  | fetch name => exact hamid rfl ((tracks_fetch (hoperand hn)).give.resumes hentrance)
  | fetchProperty name =>
    refine hamid rfl ((tracks_propertyKey name).onValue fun key => tracks_pop.onValue fun target => ?_)
    exact (tracks_property target key).give.resumes hentrance
  | store name =>
    refine hamid rfl (tracks_pop.onValue fun v => ?_)
    exact (tracks_store (hoperand hn) v).resumes hentrance
  | storeProperty name =>
    refine hamid rfl ((tracks_propertyKey name).onValue fun key => tracks_pop.onValue fun target =>
      tracks_pop.onValue fun v => ?_)
    exact (tracks_setProperty target key v).goes hentrance none
  | declare name =>
    obtain rfl : Γ = [] := hn
    exact hamid rfl ((tracks_declare name).resumes hentrance)
  | binary op =>
    refine hamid rfl (tracks_pop.onValue fun w => tracks_pop.onValue fun v => ?_)
    exact (tracks_apply op v w).give.resumes hentrance
  | jump l =>
    obtain ⟨t, hl, ht⟩ := hjump l (List.mem_singleton.2 rfl) hn
    exact hamid rfl ((tracks_jumpFrom hl ht).goes hentrance none)
  | jumpTrue l | jumpFalse l =>
    obtain ⟨t, hl, ht⟩ := hjump l (List.mem_singleton.2 rfl) hn
    refine hamid rfl (tracks_pop.onValue fun v => ?_)
    rw [Value.isTruthy_repooled]
    split
    · exact (tracks_jumpFrom hl ht).goes hentrance none
    · exact (tracks_pure fun _ _ _ hA => ⟨hA, rfl⟩).resumes hentrance
  | call argc isMethod =>
    refine hamid rfl (tracks_pop.onValue fun callee => tracks_popIf isMethod fun receiver =>
      (tracks_popArgs argc).onValues fun args => ?_)
    exact (tracks_callValue callee receiver args hinside).goes (fun _ _ h => h) none
  | ret => exact tracks_returnToFrame.weaken (fun _ _ _ => trivial) fun _ _ _ _ h => h
  | enterScope =>
    obtain rfl : Γ = [] := hn
    refine hamid rfl fun m M hm hA => ?_
    exact .ok (hm.enterScope hA.2.2) ⟨rfl, fun _ => hentrance _ _ hA⟩
  | leaveScope =>
    obtain rfl : Γ = [] := hn
    refine hamid rfl ?_
    have houter : Tracks X N (At (X.Amid x [])) (fun m _ outer outer' => X.Amid x [] m.sectionIndex m.pc ∧
        outer' = outer ∧ outer = m.heap.parent? m.env) (reads fun m => m.heap.parent? m.env)
        (reads fun m => m.heap.parent? m.env) :=
      tracks_reads fun m M hm hA => ⟨hA, by rw [hm.env, hm.beside.parents], rfl⟩
    refine houter.bind fun _ outer m M hm ⟨hA, he, ho⟩ => ?_
    subst he
    cases outer with
    | some outer => exact .ok (hm.leaveScope hA.2.2 ho.symm) ⟨rfl, fun _ => hentrance _ _ hA⟩
    | none => exact tracks_throw (I := At (X.Amid x [])) (c := .invariant .leaveRoot) rfl m M hm hA
  | loopStart =>
    obtain rfl : Γ = [] := hn
    refine hamid rfl (Tracks.goes (tracks_change fun m M hm hA => ?_) hentrance none)
    have hlodged := hm.lodged
    rw [hA.2.2] at hlodged
    have hloop := hm.pushed (e := .loop m.env) hlodged
    rw [show (Entry.loop m.env).across X = .loop M.env by rw [hm.env]; rfl] at hloop
    exact ⟨hloop, hA, rfl⟩
  | loopEnd =>
    refine hamid rfl ((tracks_takeMarker "LOOP_END" .loop fun e => ?_).resumes hentrance)
    rcases e with _ | (_ | _ | _ | _)
    all_goals first | exact .inl ⟨rfl, rfl⟩ | exact .inr ⟨rfl, rfl⟩
  | loopExit l =>
    obtain ⟨rfl, hl⟩ := hn
    obtain ⟨t, hl, ht⟩ := hjump l (List.mem_singleton.2 rfl) hl
    exact hamid rfl ((tracks_exitLoop hl ht).goes hentrance none)
  | tryStart handler final keep =>
    obtain ⟨rfl, hl, hf⟩ := hn
    obtain ⟨t, hl, ht⟩ := hjump handler (by cases final <;> simp [Opcode.targets, Opcode.jumpTarget?]) hl
    refine hamid rfl ((tracks_openRegion keep hl ht fun l he => ?_).goes hentrance none)
    subst he
    obtain ⟨u, hu, -⟩ := hjump l (by simp [Opcode.targets]) (hf l rfl)
    exact ⟨u, hu⟩
  | tryEnd =>
    refine hamid rfl ((tracks_takeMarker "END_TRY" .region fun e => ?_).resumes hentrance)
    rcases e with _ | (_ | _ | _ | _)
    all_goals first | exact .inl ⟨rfl, rfl⟩ | exact .inr ⟨rfl, rfl⟩
  | throw => exact hamid rfl (tracks_pop.onValue fun v m M hm _ => .error (c := .thrown v) hm)
  | createObject className argc =>
    refine hamid rfl ((tracks_popArgs argc).onValues fun args => ?_)
    exact (tracks_instantiate className args hinside).goes (fun _ _ h => h) none
  | createArray count =>
    refine hamid rfl ((tracks_popArgs count).onValues fun items => ?_)
    exact (tracks_newArray items).resumes hentrance
  | createRecord keys => exact hamid rfl ((tracks_createRecord keys hinside).goes (fun _ _ h => h) none)
  | debugger =>
    refine hamid rfl ?_
    have hcalls : Tracks X N (At (X.Amid x Γ)) (Equal (X.Amid x Γ)) (reads (·.hostCalls)) (reads (·.hostCalls)) :=
      tracks_reads fun m M hm hA => ⟨hA, hm.hostCalls⟩
    refine hcalls.onEqual fun calls => ?_
    split
    · exact (tracks_pure fun _ _ _ hA => ⟨hA, rfl⟩).resumes hentrance
    · refine Tracks.goes (tracks_change fun m M hm hA => ?_) hentrance (some .breakpoint)
      have hlocation : M.location i.span = m.location i.span := by
        rw [location, location, hm.program, hm.program', hm.sectionIndex, X.sectionName]
      exact ⟨{ hm with log := by rw [hlocation, hm.log] }, hA, rfl⟩
  | eof => exact tracks_pure fun _ _ _ _ => ⟨rfl, fun hpauses => by cases hpauses⟩

end Abreast

end Machine

end ScriptMachine
