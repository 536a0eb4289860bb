import ScriptMachine.Proofs.Machine.Exec

/-!
# Regime — what the host puts into a machine

A script can only call functions that its program declares or that the host hands in, inside values
or through host values. A `Regime` says which functions these may be, and whether the host is held to
two promises: a scope keeps the scope around it, and host values never report a broken promise of the
machine. What a machine does by itself keeps to every regime.
-/

namespace ScriptMachine

/-- What a host may do. -/
structure Regime where
  /-- The functions that values may hold. -/
  allows : ScriptFunction → Prop
  /-- Whether scopes stay in their places and host values break no promise. -/
  strict : Prop

/-- A scope stays inside the scope in which it was made. -/
def Heap.Extends (h h' : Heap) : Prop := ∀ s p, h.parent? s = some p → h'.parent? s = some p

namespace Regime

variable {R : Regime} {h h' : Heap}

/-- A value whose function, if it is one, is allowed. -/
def Admits (R : Regime) (v : Value) : Prop := ∀ id f, v = .function id f → R.allows f

/-- A cause that brings no function in and, under a strict regime, reports no broken promise. -/
structure Tame (R : Regime) (c : Cause) : Prop where
  thrown : ∀ v, c = .thrown v → R.Admits v
  kept : R.strict → ∀ b, c ≠ .invariant b

/-- A heap with allowed functions only. -/
structure Holds (R : Regime) (h : Heap) : Prop where
  arrays : ∀ a ∈ h.arrays, ∀ v ∈ a, R.Admits v
  scopes : ∀ s ∈ h.scopes, ∀ b ∈ s.vars, R.Admits b.2
  cells : ∀ v ∈ h.cells, R.Admits v

/-- A change of the heap within a regime. -/
structure Passage (R : Regime) (h h' : Heap) : Prop where
  holds : R.Holds h'
  keeps : R.strict → h.Extends h'

theorem Passage.refl (hh : R.Holds h) : R.Passage h h := ⟨hh, fun _ _ _ hp => hp⟩

theorem Passage.trans {h₁ h₂ h₃ : Heap} (p : R.Passage h₁ h₂) (q : R.Passage h₂ h₃) : R.Passage h₁ h₃ :=
  ⟨q.holds, fun hs s p' hp => q.keeps hs s p' (p.keeps hs s p' hp)⟩

/-- A plain value is admitted by every regime. -/
theorem admits_of {v : Value} (hv : ∀ id f, v ≠ .function id f) : R.Admits v :=
  fun id f he => absurd he (hv id f)

/-- An error that throws no value and reports no broken promise is tame. -/
theorem tame_of {c : Cause} (hthrown : ∀ v, c ≠ .thrown v) (hkept : ∀ b, c ≠ .invariant b) : R.Tame c :=
  ⟨fun v he => absurd he (hthrown v), fun _ => hkept⟩

/-! ### Operations of the heap -/

theorem mem_modify {α : Type} {xs : Array α} {i : Nat} {f : α → α} {a : α} (h : a ∈ xs.modify i f) :
    a ∈ xs ∨ ∃ b ∈ xs, a = f b := by
  obtain ⟨j, hj⟩ := Array.mem_iff_getElem?.1 h
  rw [Array.getElem?_modify] at hj
  by_cases hi : i = j
  · rw [if_pos hi] at hj
    obtain ⟨b, hb, rfl⟩ := Option.map_eq_some_iff.1 hj
    exact .inr ⟨b, Array.mem_iff_getElem?.2 ⟨j, hb⟩, rfl⟩
  · rw [if_neg hi] at hj
    exact .inl (Array.mem_iff_getElem?.2 ⟨j, hj⟩)

theorem mem_insertBinding {name : String} {v : Value} {vars : List (String × Value)} {b : String × Value}
    (hb : b ∈ insertBinding name v vars) : b = (name, v) ∨ b ∈ vars := by
  induction vars with
  | nil => exact .inl (List.mem_singleton.1 hb)
  | cons first rest ih =>
    obtain ⟨n, w⟩ := first
    unfold insertBinding at hb
    by_cases hn : n = name
    · rw [if_pos hn] at hb
      exact (List.mem_cons.1 hb).imp id (List.mem_cons_of_mem _)
    · rw [if_neg hn] at hb
      rcases List.mem_cons.1 hb with rfl | hb
      · exact .inr List.mem_cons_self
      · exact (ih hb).imp id (List.mem_cons_of_mem _)

theorem parent?_push (h : Heap) (new : Scope) (s : ScopeId) :
    (h.newScope new).2.parent? s = if s.index = h.scopes.size then new.parent else h.parent? s := by
  simp only [Heap.newScope, Heap.parent?, Heap.scope, Array.getD_eq_getD_getElem?, Array.getElem?_push]
  split
  · rfl
  · rfl

theorem parent?_lt {s p : ScopeId} (hp : h.parent? s = some p) : s.index < h.scopes.size := by
  by_contra hge
  simp [Heap.parent?, Heap.scope, hge] at hp

theorem passage_newScope (hh : R.Holds h) (new : Scope) (hv : new.vars = []) :
    R.Passage h (h.newScope new).2 := by
  refine ⟨⟨hh.arrays, fun s hs b hb => ?_, hh.cells⟩, fun _ s p hp => ?_⟩
  · rcases Array.mem_push.1 hs with hs | rfl
    · exact hh.scopes s hs b hb
    · rw [hv] at hb
      cases hb
  · rw [parent?_push, if_neg (Nat.ne_of_lt (parent?_lt hp)), hp]

theorem parent?_define (h : Heap) (s t : ScopeId) (name : String) (v : Value) :
    (h.define s name v).parent? t = h.parent? t := by
  simp only [Heap.parent?, Heap.scope, Heap.define, Array.getD_eq_getD_getElem?, Array.getElem?_modify]
  split
  · cases h.scopes[t.index]? <;> rfl
  · rfl

theorem passage_define (hh : R.Holds h) {v : Value} (hv : R.Admits v) (s : ScopeId) (name : String) :
    R.Passage h (h.define s name v) := by
  refine ⟨⟨hh.arrays, fun t ht b hb => ?_, hh.cells⟩, fun _ t p hp => by rw [parent?_define, hp]⟩
  have ht : t ∈ h.scopes.modify s.index (·.define name v) := ht
  rcases mem_modify ht with ht | ⟨t', ht', rfl⟩
  · exact hh.scopes t ht b hb
  · rcases mem_insertBinding hb with rfl | hb
    · exact hv
    · exact hh.scopes t' ht' b hb

theorem passage_defineAll (hh : R.Holds h) (s : ScopeId) {vars : List (String × Value)}
    (hv : ∀ b ∈ vars, R.Admits b.2) : R.Passage h (h.defineAll s vars) := by
  induction vars generalizing h with
  | nil => exact .refl hh
  | cons b rest ih =>
    have hdefine := passage_define hh (hv b List.mem_cons_self) s b.1
    exact hdefine.trans (ih hdefine.holds fun b' hb' => hv b' (List.mem_cons_of_mem _ hb'))

theorem passage_newObject (hh : R.Holds h) (className : String) (parent : ScopeId) :
    R.Passage h (h.newObject className parent).2 := by
  have hscope := passage_newScope hh { parent := some parent, owner := some ⟨h.objects.size⟩ } rfl
  exact ⟨⟨hscope.holds.arrays, hscope.holds.scopes, hscope.holds.cells⟩, hscope.keeps⟩

theorem passage_newArray (hh : R.Holds h) {items : Array Value} (hv : ∀ v ∈ items, R.Admits v) :
    R.Passage h (h.newArray items).2 := by
  refine ⟨⟨fun a ha => ?_, hh.scopes, hh.cells⟩, fun _ _ _ hp => hp⟩
  rcases Array.mem_push.1 ha with ha | rfl
  · exact hh.arrays a ha
  · exact hv

theorem passage_modifyArray (hh : R.Holds h) (a : ArrayId) {f : Array Value → Array Value}
    (hf : ∀ items, (∀ v ∈ items, R.Admits v) → ∀ v ∈ f items, R.Admits v) :
    R.Passage h (h.modifyArray a f) := by
  refine ⟨⟨fun b hb => ?_, hh.scopes, hh.cells⟩, fun _ _ _ hp => hp⟩
  rcases mem_modify hb with hb | ⟨b', hb', rfl⟩
  · exact hh.arrays b hb
  · exact hf b' (hh.arrays b' hb')

theorem passage_newError (hh : R.Holds h) (message : String) : R.Passage h (h.newError message).2 :=
  ⟨⟨hh.arrays, hh.scopes, hh.cells⟩, fun _ _ _ hp => hp⟩

/-! ### Reading the heap -/

theorem admits_getLocal? (hh : R.Holds h) {s : ScopeId} {name : String} {v : Value}
    (hv : h.getLocal? s name = some v) : R.Admits v := by
  unfold Heap.getLocal? Scope.get? at hv
  cases hl : (h.scope s).vars.lookup name with
  | none =>
    rw [hl] at hv
    simp only at hv
    split at hv
    · obtain ⟨o, -, rfl⟩ := Option.map_eq_some_iff.1 hv
      exact admits_of nofun
    · cases hv
  | some w =>
    rw [hl] at hv
    cases hv
    have hmem : (name, v) ∈ (h.scope s).vars := by
      obtain ⟨before, after, he, -⟩ := List.lookup_eq_some_iff.1 hl
      rw [he]
      simp
    cases hs : h.scopes[s.index]? with
    | none => simp [Heap.scope, Array.getD_eq_getD_getElem?, hs] at hmem
    | some t =>
      have ht : h.scope s = t := by simp [Heap.scope, Array.getD_eq_getD_getElem?, hs]
      rw [ht] at hmem
      exact hh.scopes t (Array.mem_iff_getElem?.2 ⟨_, hs⟩) _ hmem

theorem admits_resolve? (hh : R.Holds h) {s : ScopeId} {name : String} {v : Value}
    (hv : h.resolve? s name = some v) : R.Admits v := by
  obtain ⟨t, -, ht⟩ := List.exists_of_findSome?_eq_some hv
  exact admits_getLocal? hh ht

theorem admits_elements (hh : R.Holds h) (a : ArrayId) : ∀ v ∈ h.elements a, R.Admits v := by
  intro v hv
  unfold Heap.elements at hv
  rw [Array.getD_eq_getD_getElem?] at hv
  cases ha : h.arrays[a.index]? with
  | none => simp [ha] at hv
  | some items =>
    rw [ha] at hv
    exact hh.arrays items (Array.mem_iff_getElem?.2 ⟨_, ha⟩) v hv

/-! ### Host values -/

/-- What reading something gives under a regime. -/
def Gives (R : Regime) : Except Cause Value → Prop
  | .ok v => R.Admits v
  | .error c => R.Tame c

/-- A host value that keeps to a regime. -/
structure Trusts (R : Regime) (n : Native) : Prop where
  read : ∀ name h, R.Holds h → R.Gives (n.read name h)
  write : ∀ name v h, R.Admits v → R.Holds h →
    R.Passage h (n.write name v h).2 ∧ ∀ c, (n.write name v h).1 = .error c → R.Tame c
  call : ∀ this args h, (∀ v, this = some v → R.Admits v) → (∀ v ∈ args, R.Admits v) → R.Holds h →
    R.Passage h (n.call this args h).heap ∧ R.Gives (n.call this args h).result

theorem trusts_refusing (typeName label : String) (callable : Bool) :
    R.Trusts { typeName, label, callable } where
  read _ _ _ := tame_of nofun nofun
  write _ _ _ _ hh := ⟨.refl hh, fun c hc => by cases hc; exact tame_of nofun nofun⟩
  call _ _ _ _ _ hh := ⟨.refl hh, tame_of nofun nofun⟩

theorem trusts_function {name : String} {arity : Arity}
    {body : Option Value → List Value → Heap → CallResult}
    (hb : ∀ this args h, (∀ v, this = some v → R.Admits v) → (∀ v ∈ args, R.Admits v) → R.Holds h →
      R.Passage h (body this args h).heap ∧ R.Gives (body this args h).result) :
    R.Trusts (Native.function name arity body) where
  read property _ _ := by
    show R.Admits (if property = "name" then .string name else .undefined)
    split <;> exact admits_of nofun
  write _ _ _ _ hh := ⟨.refl hh, fun c hc => by cases hc; exact tame_of nofun nofun⟩
  call this args h hthis hargs hh := by
    simp only [Native.function]
    split
    · exact hb this args h hthis hargs hh
    · exact ⟨.refl hh, tame_of nofun nofun⟩

/-- A computation whose only failures are messages. -/
def Complains {α : Type} (r : Except Cause α) : Prop := ∀ c, r = .error c → ∃ text, c = .native text

theorem complains_ok {α : Type} (a : α) : Complains (.ok a) := fun _ h => nomatch h

theorem complains_native {α : Type} (text : String) : Complains (.error (.native text) : Except Cause α) :=
  fun c h => ⟨text, by cases h; rfl⟩

theorem Complains.bind {α β : Type} {r : Except Cause α} {f : α → Except Cause β} (hr : Complains r)
    (hf : ∀ a, Complains (f a)) : Complains (r >>= f) := by
  cases r with
  | ok a => exact hf a
  | error c =>
    obtain ⟨text, rfl⟩ := hr c rfl
    exact complains_native text

theorem Complains.gives {α : Type} {r : Except Cause α} {f : α → Except Cause Value} (hr : Complains r)
    (hf : ∀ a, R.Gives (f a)) : R.Gives (r >>= f) := by
  cases r with
  | ok a => exact hf a
  | error c =>
    obtain ⟨text, rfl⟩ := hr c rfl
    exact tame_of nofun nofun

theorem complains_thisArray (b : Builtin) (this : Option Value) : Complains (b.thisArray this) := by
  unfold Builtin.thisArray
  split
  · exact complains_ok _
  · exact complains_native _

theorem complains_thisString (b : Builtin) (this : Option Value) : Complains (b.thisString this) := by
  unfold Builtin.thisString
  split
  · exact complains_ok _
  · exact complains_native _

theorem complains_thisRegex (b : Builtin) (this : Option Value) : Complains (b.thisRegex this) := by
  unfold Builtin.thisRegex
  split
  · exact complains_ok _
  · exact complains_native _

theorem complains_stringArg (b : Builtin) (arg : Option Value) : Complains (b.stringArg arg) := by
  unfold Builtin.stringArg
  split
  · exact complains_ok _
  · exact complains_native _
  · exact complains_native _

theorem complains_positionArg (b : Builtin) (n : Nat) (arg : Option Value) :
    Complains (b.positionArg n arg) := by
  unfold Builtin.positionArg
  split
  · exact complains_ok _
  · exact complains_ok _
  · exact complains_ok _
  · exact complains_native _

theorem complains_parts (b : Builtin) (text : String) (arg : Option Value) :
    Complains (b.parts text arg) := by
  unfold Builtin.parts
  split
  · exact complains_ok _
  · exact complains_ok _
  · exact complains_ok _
  · exact (complains_stringArg b _).bind fun _ => complains_ok _

/-- Every builtin keeps to every regime. -/
theorem builtin_call (b : Builtin) (this : Option Value) (args : List Value) (h : Heap)
    (hargs : ∀ v ∈ args, R.Admits v) (hh : R.Holds h) :
    R.Passage h (b.body this args h).heap ∧ R.Gives (b.body this args h).result := by
  have hstring : ∀ s : String, R.Gives (.ok (.string s)) := fun s => admits_of nofun
  have hposition : ∀ n, R.Gives (.ok (Builtin.positionValue n)) := fun n => by
    cases n <;> exact admits_of nofun
  cases b with
  | print => exact ⟨.refl hh, admits_of nofun⟩
  | makeError =>
    exact ⟨passage_newError hh ((args.head?.map (·.message h)).getD ""), admits_of nofun⟩
  | makeRegex =>
    unfold Builtin.body
    simp only
    split
    · exact ⟨.refl hh, admits_of nofun⟩
    · unfold Heap.newRegex
      cases Pattern.compile (args.headD .undefined |>.text h) with
      | ok pattern => exact ⟨⟨⟨hh.arrays, hh.scopes, hh.cells⟩, fun _ _ _ hp => hp⟩, admits_of nofun⟩
      | error refusal => exact ⟨.refl hh, tame_of nofun nofun⟩
  | typeOf => exact ⟨.refl hh, hstring _⟩
  | arrayPush =>
    unfold Builtin.body
    have hc := complains_thisArray .arrayPush this
    cases ht : Builtin.thisArray .arrayPush this with
    | error c =>
      obtain ⟨text, rfl⟩ := hc c ht
      exact ⟨.refl hh, tame_of nofun nofun⟩
    | ok a =>
      refine ⟨passage_modifyArray hh a fun items hitems v hv => ?_, admits_of nofun⟩
      have hv : v ∈ items ∨ v ∈ args := by
        rw [Array.mem_def, Array.toList_appendList, List.mem_append] at hv
        simpa using hv
      exact hv.elim (hitems v) (hargs v)
  | arrayPop =>
    unfold Builtin.body
    have hc := complains_thisArray .arrayPop this
    cases ht : Builtin.thisArray .arrayPop this with
    | error c =>
      obtain ⟨text, rfl⟩ := hc c ht
      exact ⟨.refl hh, tame_of nofun nofun⟩
    | ok a =>
      refine ⟨passage_modifyArray hh a fun items hitems v hv => hitems v ?_, ?_⟩
      · obtain ⟨i, hi⟩ := Array.mem_iff_getElem?.1 hv
        rw [Array.getElem?_pop] at hi
        split at hi
        · exact Array.mem_iff_getElem?.2 ⟨i, hi⟩
        · cases hi
      show R.Admits ((h.elements a).back?.getD .undefined)
      cases hb : (h.elements a).back? with
      | none => exact admits_of nofun
      | some v => exact admits_elements hh a v (Array.mem_of_back? hb)
  | arrayIndexOf => exact ⟨.refl hh, (complains_thisArray _ this).gives fun a => hposition _⟩
  | arrayJoin =>
    refine ⟨.refl hh, (complains_thisArray _ this).gives fun a => ?_⟩
    simp only
    split
    · exact hstring _
    · exact hstring _
    · exact (complains_stringArg _ _).gives fun _ => hstring _
  | stringUpper => exact ⟨.refl hh, (complains_thisString _ this).gives fun s => hstring _⟩
  | stringLower => exact ⟨.refl hh, (complains_thisString _ this).gives fun s => hstring _⟩
  | stringIndexOf =>
    exact ⟨.refl hh, (complains_thisString _ this).gives fun s =>
      (complains_stringArg _ _).gives fun t => hposition _⟩
  | stringSubstring =>
    exact ⟨.refl hh, (complains_thisString _ this).gives fun s =>
      (complains_positionArg _ _ _).gives fun i => (complains_positionArg _ _ _).gives fun j => hstring _⟩
  | stringSplit =>
    unfold Builtin.body
    have hc : Complains (do Builtin.parts .stringSplit (← Builtin.thisString .stringSplit this) args.head? :
        Except Cause (List String)) :=
      (complains_thisString _ this).bind fun s => complains_parts _ _ _
    cases hp : (do Builtin.parts .stringSplit (← Builtin.thisString .stringSplit this) args.head? :
        Except Cause (List String)) with
    | error c =>
      obtain ⟨text, rfl⟩ := hc c hp
      simp only
      exact ⟨.refl hh, tame_of nofun nofun⟩
    | ok parts =>
      simp only
      refine ⟨passage_newArray hh fun v hv => ?_, admits_of nofun⟩
      obtain ⟨s, -, rfl⟩ := List.mem_map.1 (List.mem_toArray.1 hv)
      exact admits_of nofun
  | regexTest =>
    exact ⟨.refl hh, (complains_thisRegex _ this).gives fun p =>
      (complains_stringArg _ _).gives fun s => admits_of nofun⟩
  | regexMatch =>
    refine ⟨.refl hh, (complains_thisRegex _ this).gives fun p =>
      (complains_stringArg _ _).gives fun s => ?_⟩
    show R.Admits (((p.find? s).map Value.string).getD .null)
    cases p.find? s <;> exact admits_of nofun

theorem trusts_builtin (b : Builtin) : R.Trusts b.native :=
  trusts_function fun this args h _ hargs hh => builtin_call b this args h hargs hh

/-- The host values of a machine keep to a regime. -/
def Employs (R : Regime) (hosts : Hosts) : Prop := ∀ n ∈ hosts.table, R.Trusts n

theorem Employs.find {hosts : Hosts} (hh : R.Employs hosts) (handle : NativeHandle) :
    R.Trusts (hosts.find handle) := by
  unfold Hosts.find
  split
  · exact trusts_builtin _
  · rename_i i _
    rw [Array.getD_eq_getD_getElem?]
    cases hi : hosts.table[i]? with
    | none => exact trusts_refusing _ _ _
    | some n => exact hh n (Array.mem_iff_getElem?.2 ⟨i, hi⟩)

/-! ### Machines -/

/-- A machine that has kept to a regime so far. -/
structure Sound (R : Regime) (m : Machine) : Prop where
  functions : ∀ f ∈ m.program.functions, R.allows f
  constants : ∀ v ∈ m.program.constants, R.Admits v
  hosts : R.Employs m.hosts
  heap : R.Holds m.heap

variable {m : Machine}

theorem Sound.of_heap {m' : Machine} (hs : R.Sound m) (hp : m'.program = m.program)
    (hhosts : m'.hosts = m.hosts) (hh : R.Holds m'.heap) : R.Sound m' :=
  ⟨hp ▸ hs.functions, hp ▸ hs.constants, hhosts ▸ hs.hosts, hh⟩

theorem gives_lookup (hs : R.Sound m) (name : String) : R.Gives (m.lookup name) := by
  unfold Machine.lookup
  split
  · rename_i v hv
    exact admits_resolve? hs.heap hv
  · split
    · rename_i v hv
      obtain ⟨i, -, hi⟩ := Option.bind_eq_some_iff.1 hv
      obtain ⟨f, hf, rfl⟩ := Option.map_eq_some_iff.1 hi
      intro id g he
      cases he
      exact hs.functions f (Array.mem_iff_getElem?.2 ⟨i, hf⟩)
    · split
      · exact admits_of nofun
      · exact tame_of nofun nofun

theorem admits_method (methods : List Builtin) (name : String) :
    R.Admits (Builtin.method methods name) := by
  unfold Builtin.method
  split <;> exact admits_of nofun

theorem admits_positional {key : Value} {elementAt : Nat → Option Value} {length : Nat}
    {methods : List Builtin} (he : ∀ i v, elementAt i = some v → R.Admits v) :
    R.Admits (Machine.positional key elementAt length methods) := by
  unfold Machine.positional
  split
  · rename_i i _
    cases hi : elementAt i with
    | none => exact admits_of nofun
    | some v => exact he i v hi
  · split
    · split
      · exact admits_of nofun
      · exact admits_method _ _
    · exact admits_of nofun

theorem gives_property (hs : R.Sound m) (target key : Value) : R.Gives (m.property target key) := by
  unfold Machine.property
  cases target with
  | object o =>
    show R.Admits ((m.heap.getLocal? (m.heap.fields o) (key.keyName m.heap)).getD .undefined)
    cases hv : m.heap.getLocal? (m.heap.fields o) (key.keyName m.heap) with
    | none => exact admits_of nofun
    | some v => exact admits_getLocal? hs.heap hv
  | array a =>
    exact admits_positional fun i v hv =>
      admits_elements hs.heap a v (Array.mem_iff_getElem?.2 ⟨i, hv⟩)
  | string s =>
    refine admits_positional fun i v hv => ?_
    obtain ⟨c, -, rfl⟩ := Option.map_eq_some_iff.1 hv
    exact admits_of nofun
  | regex id p =>
    show R.Admits (if key.keyName m.heap = "source" then .string p.source
      else Builtin.method Builtin.regexMethods (key.keyName m.heap))
    split
    · exact admits_of nofun
    · exact admits_method _ _
  | error id message =>
    cases key with
    | string name =>
      show R.Admits (if name = "message" then .string message else .undefined)
      split <;> exact admits_of nofun
    | _ => exact admits_of nofun
  | native handle => exact (hs.hosts.find handle).read _ _ hs.heap
  | _ => exact tame_of nofun nofun

theorem admits_onNumbers (x y : UInt64) (op : BinaryOp) : R.Admits (op.onNumbers x y) := by
  unfold BinaryOp.onNumbers Value.ofFloat
  cases op <;> exact admits_of nofun

theorem gives_apply (op : BinaryOp) (h : Heap) (a b : Value) : R.Gives (op.apply h a b) := by
  unfold BinaryOp.apply
  split
  · exact admits_of nofun
  · exact admits_of nofun
  · exact admits_onNumbers _ _ _
  · exact admits_of nofun
  · exact admits_of nofun
  · exact tame_of nofun nofun

/-- Writing a property changes the heap alone. -/
theorem setProperty_passage (hs : R.Sound m) (target key : Value) {v : Value} (hv : R.Admits v) :
    R.Passage m.heap (m.setProperty target key v).2.heap ∧
      (m.setProperty target key v).2 = { m with heap := (m.setProperty target key v).2.heap } ∧
      ∀ c, (m.setProperty target key v).1 = .error c → R.Tame c := by
  unfold Machine.setProperty
  cases target with
  | object o => exact ⟨passage_define hs.heap hv _ _, rfl, fun c hc => nomatch hc⟩
  | array a =>
    simp only
    cases key.toPosition? with
    | none => exact ⟨.refl hs.heap, rfl, fun c hc => by cases hc; exact tame_of nofun nofun⟩
    | some i =>
      simp only
      unfold Heap.checkIndex
      split
      · rename_i hc
        refine ⟨passage_modifyArray hs.heap a fun items hitems w hw => ?_, rfl, fun c hc => nomatch hc⟩
        unfold Heap.place at hw
        split at hw
        · rcases Array.mem_or_eq_of_mem_setIfInBounds hw with hw | rfl
          · exact hitems w hw
          · exact hv
        · rcases Array.mem_push.1 hw with hw | rfl
          · rcases Array.mem_append.1 hw with hw | hw
            · exact hitems w hw
            · rw [(Array.mem_replicate.1 hw).2]
              exact admits_of nofun
          · exact hv
      · rename_i c hc
        refine ⟨.refl hs.heap, rfl, fun c' hc' => ?_⟩
        cases hc'
        split at hc
        · cases hc
          exact tame_of nofun nofun
        · cases hc
  | native handle =>
    obtain ⟨hp, he⟩ := (hs.hosts.find handle).write (key.keyName m.heap) v m.heap hv hs.heap
    exact ⟨hp, rfl, he⟩
  | _ => exact ⟨.refl hs.heap, rfl, fun c hc => by cases hc; exact tame_of nofun nofun⟩

/-- A call of a host value changes the heap and the log alone. -/
theorem callNative_passage (hs : R.Sound m) (handle : NativeHandle) {receiver : Option Value}
    {args : List Value} (hr : ∀ v, receiver = some v → R.Admits v) (ha : ∀ v ∈ args, R.Admits v) :
    R.Passage m.heap (Machine.callNative handle receiver args m).2.heap ∧
      R.Gives (Machine.callNative handle receiver args m).1 :=
  (hs.hosts.find handle).call receiver args m.heap hr ha hs.heap

theorem passage_newInstance (hh : R.Holds h) (className : String) (globals : ScopeId)
    {fields : List (String × Value)} (hf : ∀ b ∈ fields, R.Admits b.2) :
    R.Passage h (Machine.newInstance className globals fields h).2 := by
  have hobject := passage_newObject hh className globals
  exact hobject.trans (passage_defineAll hobject.holds _ hf)

theorem mem_bindParams {params : List String} {args : List Value} {b : String × Value}
    (hb : b ∈ Machine.bindParams params args) : b.2 = .undefined ∨ b.2 ∈ args := by
  induction params generalizing args with
  | nil => cases hb
  | cons p ps ih =>
    cases args with
    | nil =>
      rcases List.mem_cons.1 hb with rfl | hb
      · exact .inl rfl
      · exact ih hb
    | cons v vs =>
      rcases List.mem_cons.1 hb with rfl | hb
      · exact .inr List.mem_cons_self
      · exact (ih hb).imp id (List.mem_cons_of_mem _)

/-- The scope of a call is made within every regime. -/
theorem enterFunction_passage (hs : R.Sound m) (f : ScriptFunction) (receiver : Option Value)
    {args : List Value} (ha : ∀ v ∈ args, R.Admits v) (fromHost : Bool) :
    R.Passage m.heap (Machine.enterFunction f receiver args fromHost m).heap := by
  have hparams : ∀ b ∈ Machine.bindParams f.params args, R.Admits b.2 := fun b hb => by
    rcases mem_bindParams hb with he | he
    · rw [he]
      exact admits_of nofun
    · exact ha _ he
  have hscope : R.Passage m.heap (Machine.callScope m.globals receiver m.heap).2 := by
    unfold Machine.callScope
    split
    · rename_i o
      have hchild := passage_newScope hs.heap { parent := some (m.heap.fields o) } rfl
      have hthis : R.Admits (.object o) := admits_of nofun
      exact hchild.trans (passage_define hchild.holds hthis _ _)
    · exact passage_newScope hs.heap _ rfl
  exact hscope.trans (passage_defineAll hscope.holds _ hparams)

end Regime

end ScriptMachine
