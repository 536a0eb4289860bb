import ScriptMachine.Proofs.Machine.Relocation
import ScriptMachine.Proofs.Value.Hidden

/-!
# Hygiene — names that only fields have

A heap is hygienic for a name if no scope has it but those that hold the fields of objects, and no function in it has a
parameter of that name. Then every object has fields of its own, and a property that is written under the name goes
there. The operations of the heap keep this, and so do the builtins.
-/

namespace ScriptMachine

/-- Functions without a parameter of a name. -/
def Regime.without (n : String) : Regime := ⟨fun f => n ∉ f.params, False⟩

/-- A value that leads to no object from the `k`-th on and is no function with a parameter of a name. -/
structure Value.Clean (n : String) (k : Nat) (v : Value) : Prop where
  within : v.Within k
  admits : (Regime.without n).Admits v

/-- A cause that carries a clean value, if it carries one. -/
def Cause.Clean (n : String) (k : Nat) (c : Cause) : Prop := ∀ v, c = .thrown v → v.Clean n k

/-- An answer that brings a clean value. -/
def Cleans (n : String) (k : Nat) : Except Cause Value → Prop
  | .ok v => v.Clean n k
  | .error c => c.Clean n k

/-- A heap in which only fields have a name. -/
structure Heap.Hygienic (n : String) (h : Heap) : Prop where
  closed : h.Closed
  cells : ∀ v ∈ h.cells, v.Within h.objects.size
  holds : (Regime.without n).Holds h
  fields : ∀ o : ObjectId, o.index < h.objects.size → (h.scope (h.fields o)).isBound = true
  names : ∀ s, (h.scope s).defines n = true → (h.scope s).isBound = true

/-- A change to a hygienic heap that takes no object away. -/
structure Heap.Keeps (n : String) (h h' : Heap) : Prop where
  hygienic : h'.Hygienic n
  size : h.objects.size ≤ h'.objects.size

variable {n : String} {k k' : Nat} {v : Value} {h h' h'' : Heap}

namespace Value

theorem Clean.mono (hv : v.Clean n k) (hk : k ≤ k') : v.Clean n k' := ⟨hv.within.mono hk, hv.admits⟩

/-- A value that is neither an object nor a function. -/
theorem clean_of (hobject : ∀ o, v ≠ .object o) (hfunction : ∀ id f, v ≠ .function id f) : v.Clean n k :=
  ⟨within_of hobject, Regime.admits_of hfunction⟩

theorem clean_object {o : ObjectId} (ho : o.index < k) : (Value.object o).Clean n k :=
  ⟨fun _ he => by cases he; exact ho, Regime.admits_of nofun⟩

theorem clean_function {id : Identity} {f : ScriptFunction} (hf : n ∉ f.params) : (Value.function id f).Clean n k :=
  ⟨within_of nofun, fun _ _ he => by cases he; exact hf⟩

end Value

theorem Cause.clean_of {c : Cause} (hc : ∀ v, c ≠ .thrown v) : c.Clean n k := fun v he => absurd he (hc v)

theorem Cause.Clean.mono {c : Cause} (hc : c.Clean n k) (hk : k ≤ k') : c.Clean n k' := fun v hv => (hc v hv).mono hk

/-- An answer that keeps to both conditions. -/
theorem cleans_of {r : Except Cause Value} {b : Heap} {w : Except Cause Value}
    (halike : Alike b k (Value.Mirrors b k) r w) (hgives : (Regime.without n).Gives r) : Cleans n k r := by
  cases halike with
  | ok hv => exact ⟨hv.1, hgives⟩
  | error hc => exact fun v hv => ⟨hc v hv, hgives.thrown v hv⟩

namespace Heap

namespace Keeps

theorem refl (hh : h.Hygienic n) : Keeps n h h := ⟨hh, Nat.le_refl _⟩

theorem trans (hk : Keeps n h h') (hk' : Keeps n h' h'') : Keeps n h h'' :=
  ⟨hk'.hygienic, Nat.le_trans hk.size hk'.size⟩

end Keeps

namespace Hygienic

/-! ### Reading -/

theorem getLocal? (hh : h.Hygienic n) {s : ScopeId} {name : String} (hv : h.getLocal? s name = some v) :
    v.Clean n h.objects.size := ⟨hh.closed.getLocal? hv, Regime.admits_getLocal? hh.holds hv⟩

theorem resolve? (hh : h.Hygienic n) {s : ScopeId} {name : String} (hv : h.resolve? s name = some v) :
    v.Clean n h.objects.size := ⟨hh.closed.resolve? hv, Regime.admits_resolve? hh.holds hv⟩

theorem elements (hh : h.Hygienic n) (a : ArrayId) : ∀ v ∈ h.elements a, v.Clean n h.objects.size := fun v hv =>
  ⟨hh.closed.elements a v hv, Regime.admits_elements hh.holds a v hv⟩

/-- A property of an object is written to its own fields. -/
theorem fieldSlot (hh : h.Hygienic n) {o : ObjectId} (ho : o.index < h.objects.size) (name : String) :
    h.fieldSlot (h.fields o) name = h.fields o := by
  obtain ⟨rest, hchain, -⟩ := chain_eq_cons h (h.fields o)
  rw [Heap.fieldSlot, hchain, upToFields, if_pos (hh.fields o ho)]
  simp only [definer?, List.find?]
  split <;> rfl

/-! ### Writing -/

/-- Scopes and objects stay as they are. -/
theorem aside (hh : h.Hygienic n) (hscopes : h'.scopes = h.scopes) (hobjects : h'.objects = h.objects)
    (hclosed : h'.Closed) (hcells : h'.cells = h.cells) (hholds : (Regime.without n).Holds h') : Keeps n h h' := by
  have hscope : ∀ s, h'.scope s = h.scope s := fun s => by rw [scope, hscopes, scope]
  have hfields : ∀ o, h'.fields o = h.fields o := fun o => by rw [Heap.fields, hobjects, Heap.fields]
  refine ⟨⟨hclosed, ?_, hholds, ?_, ?_⟩, Nat.le_of_eq (by rw [hobjects])⟩
  · rw [hcells, hobjects]
    exact hh.cells
  · simpa only [hobjects, hfields, hscope] using hh.fields
  · simpa only [hscope] using hh.names

theorem newScope (hh : h.Hygienic n) {new : Scope} (hvars : new.vars = [])
    (howner : ∀ o, new.owner = some o → o.index < h.objects.size) : Keeps n h (h.newScope new).2 := by
  refine ⟨⟨hh.closed.newScope hvars howner, hh.cells, (Regime.passage_newScope hh.holds new hvars).holds,
    fun o ho => ?_, fun s hs => ?_⟩, Nat.le_refl _⟩
  · have hbound := hh.fields o ho
    have hne : (h.fields o).index ≠ h.scopes.size := fun he => by
      rw [scope_of_le (Nat.le_of_eq he.symm)] at hbound
      cases hbound
    rw [show (h.newScope new).2.fields o = h.fields o from rfl, scope_newScope, if_neg hne]
    exact hbound
  · rw [scope_newScope] at hs ⊢
    split at hs
    · rw [Scope.defines, hvars] at hs
      cases hs
    · rename_i hne
      rw [if_neg hne]
      exact hh.names s hs

theorem newChild (hh : h.Hygienic n) (s : ScopeId) : Keeps n h (h.newChild s).2 := hh.newScope rfl nofun

theorem newRoot (hh : h.Hygienic n) : Keeps n h h.newRoot.2 := hh.newScope rfl nofun

/-- A name is defined in a scope; the name that only fields may have, only there. -/
theorem define (hh : h.Hygienic n) (hv : v.Clean n h.objects.size) {s : ScopeId} {name : String}
    (hs : name = n → (h.scope s).isBound = true) : Keeps n h (h.define s name v) := by
  have hbound : ∀ t, ((h.define s name v).scope t).isBound = (h.scope t).isBound := fun t => by
    rw [Scope.isBound, owner_define, Scope.isBound]
  refine ⟨⟨hh.closed.define hv.within s name, hh.cells, (Regime.passage_define hh.holds hv.admits s name).holds,
    fun o ho => (hbound _).trans (hh.fields o ho), fun t ht => ?_⟩, Nat.le_refl _⟩
  rw [hbound]
  rw [Scope.defines, lookup_define] at ht
  split at ht
  · rename_i hhere
    rw [hhere.1.1]
    exact hs hhere.2.symm
  · exact hh.names t ht

theorem defineAll (hh : h.Hygienic n) {vars : List (String × Value)} (hv : ∀ x ∈ vars, x.2.Clean n h.objects.size)
    {s : ScopeId} (hs : (h.scope s).isBound = true ∨ ∀ x ∈ vars, x.1 ≠ n) : Keeps n h (h.defineAll s vars) := by
  induction vars generalizing h with
  | nil => exact .refl hh
  | cons x rest ih =>
    have hfirst : Keeps n h (h.define s x.1 x.2) :=
      hh.define (hv x List.mem_cons_self) fun he => hs.resolve_right fun hne => hne x List.mem_cons_self he
    refine hfirst.trans (ih hfirst.hygienic (fun y hy => hv y (List.mem_cons_of_mem _ hy)) ?_)
    refine hs.imp (fun hbound => ?_) fun hne y hy => hne y (List.mem_cons_of_mem _ hy)
    rw [Scope.isBound, owner_define]
    exact hbound

theorem newObject (hh : h.Hygienic n) (className : String) (parent : ScopeId) :
    Keeps n h (h.newObject className parent).2 := by
  have hsize : (h.newObject className parent).2.objects.size = h.objects.size + 1 := by
    simp [Heap.newObject, Heap.newScope]
  have hle : h.objects.size ≤ h.objects.size + 1 := Nat.le_succ _
  have hscope : ∀ s, (h.newObject className parent).2.scope s =
      if s.index = h.scopes.size then { parent := some parent, owner := some ⟨h.objects.size⟩ } else h.scope s :=
    scope_newScope h _
  refine ⟨⟨hh.closed.newObject className parent, fun v hv => ?_,
    (Regime.passage_newObject hh.holds className parent).holds, fun o ho => ?_, fun s hs => ?_⟩, by rw [hsize]; exact hle⟩
  · rw [hsize]
    exact (hh.cells v hv).mono hle
  · rw [fields_newObject, hscope]
    split
    · rw [if_pos rfl]
      rfl
    · rename_i hne
      split
      · rfl
      · exact hh.fields o (by omega)
  · rw [hscope] at hs ⊢
    split at hs
    · rename_i hnew
      rw [if_pos hnew]
      rfl
    · rename_i hne
      rw [if_neg hne]
      exact hh.names s hs

theorem newInstance (hh : h.Hygienic n) (className : String) (globals : ScopeId) {fields : List (String × Value)}
    (hv : ∀ x ∈ fields, x.2.Clean n h.objects.size) : Keeps n h (Machine.newInstance className globals fields h).2 := by
  have hobject := hh.newObject className globals
  refine hobject.trans (hobject.hygienic.defineAll (fun x hx => (hv x hx).mono hobject.size) (.inl ?_))
  refine hobject.hygienic.fields _ ?_
  simp [Heap.newObject, Heap.newScope]

theorem newArray (hh : h.Hygienic n) {items : Array Value} (hv : ∀ v ∈ items, v.Clean n h.objects.size) :
    Keeps n h (h.newArray items).2 :=
  hh.aside rfl rfl (hh.closed.newArray fun v hm => (hv v hm).within) rfl
    (Regime.passage_newArray hh.holds fun v hm => (hv v hm).admits).holds

theorem place (hh : h.Hygienic n) (hv : v.Clean n h.objects.size) (a : ArrayId) (i : Nat) :
    Keeps n h (h.modifyArray a (Heap.place i v)) := by
  refine hh.aside rfl rfl (hh.closed.modifyArray a fun items hitems w hw => ?_) rfl
    (Regime.passage_modifyArray hh.holds a fun items hitems w hw => ?_).holds
  · rcases Machine.mem_place hw with rfl | rfl | hw
    · exact hv.within
    · exact Value.within_of nofun
    · exact hitems w hw
  · rcases Machine.mem_place hw with rfl | rfl | hw
    · exact hv.admits
    · exact Regime.admits_of nofun
    · exact hitems w hw

theorem newError (hh : h.Hygienic n) (message : String) : Keeps n h (h.newError message).2 :=
  hh.aside rfl rfl ⟨hh.closed.elements, hh.closed.vars, hh.closed.owner⟩ rfl
    (Regime.passage_newError hh.holds message).holds

end Hygienic

end Heap

/-! ### Host values -/

/-- A host value that keeps a heap hygienic for a name. -/
structure Native.Hygienic (n : String) (native : Native) : Prop where
  read : ∀ name h, h.Hygienic n → Cleans n h.objects.size (native.read name h)
  write : ∀ name v h, h.Hygienic n → v.Clean n h.objects.size → Heap.Keeps n h (native.write name v h).2 ∧
    ∀ c, (native.write name v h).1 = .error c → c.Clean n (native.write name v h).2.objects.size
  call : ∀ this args h, h.Hygienic n → (∀ v, this = some v → v.Clean n h.objects.size) →
    (∀ v ∈ args, v.Clean n h.objects.size) → Heap.Keeps n h (native.call this args h).heap ∧
      Cleans n (native.call this args h).heap.objects.size (native.call this args h).result

theorem Native.hygienic_refusing (typeName label : String) (callable : Bool) :
    Native.Hygienic n { typeName, label, callable } where
  read _ _ _ := Cause.clean_of nofun
  write _ _ _ hh _ := ⟨.refl hh, fun c hc => by cases hc; exact Cause.clean_of nofun⟩
  call _ _ _ hh _ _ := ⟨.refl hh, Cause.clean_of nofun⟩

theorem Builtin.cells_body (b : Builtin) (this : Option Value) (args : List Value) (h : Heap) :
    (b.body this args h).heap.cells = h.cells := by
  cases b with
  | makeRegex =>
    unfold Builtin.body
    simp only
    split
    · rfl
    · unfold Heap.newRegex
      cases Pattern.compile ((args.headD .undefined).text h) <;> rfl
  | arrayPush =>
    unfold Builtin.body
    cases Builtin.thisArray .arrayPush this <;> rfl
  | arrayPop =>
    unfold Builtin.body
    cases Builtin.thisArray .arrayPop this <;> rfl
  | stringSplit =>
    unfold Builtin.body
    cases (do Builtin.parts .stringSplit (← Builtin.thisString .stringSplit this) args.head? :
      Except Cause (List String)) <;> rfl
  | _ => rfl

/-- Builtins keep a heap hygienic: they leave scopes and objects alone and bring in no function. -/
theorem Builtin.hygienic_body (b : Builtin) {this : Option Value} {args : List Value} (hh : h.Hygienic n)
    (hargs : ∀ v ∈ args, v.Clean n h.objects.size) : Heap.Keeps n h (b.body this args h).heap ∧
      Cleans n (b.body this args h).heap.objects.size (b.body this args h).result := by
  have halike := b.body_alike {} h this args hh.closed fun v hv => (hargs v hv).within
  obtain ⟨hpassage, hgives⟩ := Regime.builtin_call b this args h (fun v hv => (hargs v hv).admits) hh.holds
  obtain ⟨hscopes, hobjects⟩ := b.body_aside this args h
  exact ⟨hh.aside hscopes hobjects halike.heap.closed (b.cells_body this args h) hpassage.holds,
    cleans_of halike.result hgives⟩

theorem Builtin.hygienic_native (b : Builtin) : b.native.Hygienic n where
  read property h _ := by
    show Value.Clean n h.objects.size (if property = "name" then .string _ else .undefined)
    split <;> exact Value.clean_of nofun nofun
  write _ _ _ hh _ := ⟨.refl hh, fun c hc => by cases hc; exact Cause.clean_of nofun⟩
  call this args h hh _ hargs := by
    simp only [Builtin.native, Native.function]
    split
    · exact b.hygienic_body hh hargs
    · exact ⟨.refl hh, Cause.clean_of fun _ he => by cases he⟩

/-- Host values that all keep a heap hygienic for a name. -/
def Hosts.Hygienic (n : String) (hosts : Hosts) : Prop := ∀ native ∈ hosts.table, native.Hygienic n

theorem Hosts.Hygienic.find {hosts : Hosts} (hs : hosts.Hygienic n) (handle : NativeHandle) :
    (hosts.find handle).Hygienic n := by
  unfold Hosts.find
  split
  · exact Builtin.hygienic_native _
  · rename_i i _
    rw [Array.getD_eq_getD_getElem?]
    cases hi : hosts.table[i]? with
    | none => exact Native.hygienic_refusing _ _ _
    | some native => exact hs native (Array.mem_iff_getElem?.2 ⟨i, hi⟩)

end ScriptMachine
