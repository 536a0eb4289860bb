import ScriptMachine.Proofs.Value.Growth

/-!
# Hidden — scopes that no object leads to

A host gets at scopes through objects only: at the fields of an object and at the scopes around them. The scope
of a call and those of its blocks are not among these, they are `Hidden`. A change of the heap that `Spares` them
leaves every scope where it is, makes no object inside a hidden scope, and changes only such hidden scopes as it
may. What the machine does by itself to the heap is of this kind, and so is a new hidden scope (`Opens`).
-/

namespace ScriptMachine

namespace Heap

variable {h h' h'' : Heap} {may may' : ScopeId → Prop} {s t outer : ScopeId} {name : String} {v : Value}

/-- A scope inside another that no object leads to. -/
def Hidden (h : Heap) (s : ScopeId) : Prop :=
  (∃ outer, h.parent? s = some outer) ∧ ∀ o, s ∉ h.chain (h.fields o)

/-- Objects have the scopes that hold their fields. -/
def Founded (h : Heap) : Prop := ∀ o, (h.fields o).index < h.scopes.size

/-- No scope. -/
def nowhere : ScopeId → Prop := fun _ => False

/-- Scopes stay where they are, hidden ones stay hidden and define what they defined, and only some of these change. -/
structure Spares (may : ScopeId → Prop) (h h' : Heap) : Prop where
  size : h.scopes.size ≤ h'.scopes.size
  parent : ∀ s, s.index < h.scopes.size → h'.parent? s = h.parent? s
  owner : ∀ s, s.index < h.scopes.size → (h'.scope s).owner = (h.scope s).owner
  founded : h'.Founded
  hidden : ∀ s, h.Hidden s → h'.Hidden s
  defined : ∀ s, h.Hidden s → ∀ name, (h.scope s).defines name = true → (h'.scope s).defines name = true
  kept : ∀ s, h.Hidden s → ¬ may s → h'.scope s = h.scope s

theorem lt_of_parent (hp : h.parent? s = some outer) : s.index < h.scopes.size := by
  by_contra hge
  rw [parent?, scope_of_le (Nat.le_of_not_lt hge)] at hp
  cases hp

theorem Hidden.lt (hs : h.Hidden s) : s.index < h.scopes.size := lt_of_parent hs.1.choose_spec

/-- A scope with nothing around it is a chain of its own. -/
theorem chain_root (hs : h.parent? s = none) : h.chain s = [s] := by
  rw [chain, chainFrom_eq, hs]

theorem self_mem_chain (h : Heap) (s : ScopeId) : s ∈ h.chain s := by
  obtain ⟨rest, hrest, -⟩ := h.chain_eq_cons s
  rw [hrest]
  exact List.mem_cons_self

/-! ### Spared scopes -/

theorem Spares.refl (hf : h.Founded) : Spares may h h :=
  ⟨Nat.le_refl _, fun _ _ => rfl, fun _ _ => rfl, hf, fun _ hs => hs, fun _ _ _ hd => hd, fun _ _ _ => rfl⟩

/-- What the second change may do to scopes that the first one found has to be allowed. -/
theorem Spares.trans (hg : Spares may h h') (hg' : Spares may' h' h'')
    (hm : ∀ s, s.index < h.scopes.size → may' s → may s) : Spares may h h'' where
  size := Nat.le_trans hg.size hg'.size
  parent s hs := (hg'.parent s (Nat.lt_of_lt_of_le hs hg.size)).trans (hg.parent s hs)
  owner s hs := (hg'.owner s (Nat.lt_of_lt_of_le hs hg.size)).trans (hg.owner s hs)
  founded := hg'.founded
  hidden s hs := hg'.hidden s (hg.hidden s hs)
  defined s hs name hd := hg'.defined s (hg.hidden s hs) name (hg.defined s hs name hd)
  kept s hs hn := by
    rw [hg'.kept s (hg.hidden s hs) fun hmay => hn (hm s hs.lt hmay), hg.kept s hs hn]

theorem Spares.mono (hg : Spares may h h') (hm : ∀ s, may s → may' s) : Spares may' h h' :=
  ⟨hg.size, hg.parent, hg.owner, hg.founded, hg.hidden, hg.defined,
    fun s hs hn => hg.kept s hs fun hmay => hn (hm s hmay)⟩

theorem Spares.of_nowhere (hg : Spares nowhere h h') : Spares may h h' := hg.mono fun _ hf => hf.elim

theorem Spares.chain (hg : Spares may h h') (hs : s.index < h.scopes.size) : h'.chain s = h.chain s :=
  chain_congr fun t ht => hg.parent t (Nat.lt_of_le_of_lt ht hs)

/-- A change that leaves scopes and objects alone. -/
theorem Spares.of_eq (hf : h.Founded) (hs : h'.scopes = h.scopes) (ho : h'.objects = h.objects) :
    Spares may h h' := by
  have hscope : ∀ s, h'.scope s = h.scope s := fun s => by rw [scope, scope, hs]
  have hparent : ∀ s, h'.parent? s = h.parent? s := fun s => by rw [parent?, parent?, hscope]
  have hfields : ∀ o, h'.fields o = h.fields o := fun o => by rw [fields, fields, ho]
  have hchain : ∀ s, h'.chain s = h.chain s := fun s => chain_congr fun t _ => hparent t
  refine ⟨Nat.le_of_eq (by rw [hs]), fun s _ => hparent s, fun s _ => by rw [hscope], fun o => ?_, fun s hh => ?_,
    fun s _ name hd => by rw [hscope]; exact hd, fun s _ _ => hscope s⟩
  · rw [hfields, hs]
    exact hf o
  · refine ⟨by rw [hparent]; exact hh.1, fun o => ?_⟩
    rw [hfields, hchain]
    exact hh.2 o

theorem Spares.newScope (hf : h.Founded) (new : Scope) : Spares may h (h.newScope new).2 := by
  have hgrows : Grows 0 never h (h.newScope new).2 := .newScope h new
  have hkept : ∀ s, h.Hidden s → (h.newScope new).2.scope s = h.scope s := fun s hs => by
    rw [scope_newScope, if_neg (Nat.ne_of_lt hs.lt)]
  refine ⟨hgrows.size, hgrows.parent, hgrows.owner, fun o => Nat.lt_of_lt_of_le (hf o) hgrows.size, fun s hs => ?_,
    fun s hs name hd => by rw [hkept s hs]; exact hd, fun s hs _ => hkept s hs⟩
  · refine ⟨by rw [hgrows.parent s hs.lt]; exact hs.1, fun o => ?_⟩
    rw [show (h.newScope new).2.fields o = h.fields o from rfl, hgrows.chain (hf o)]
    exact hs.2 o

/-- What a scope defines it still defines after another definition. -/
theorem defines_define (h : Heap) (s t : ScopeId) (name : String) (v : Value) {n : String}
    (hd : (h.scope t).defines n = true) : ((h.define s name v).scope t).defines n = true := by
  rw [Scope.defines, lookup_define]
  split
  · rfl
  · exact hd

theorem Spares.define (hf : h.Founded) (hs : ¬ h.Hidden s ∨ may s) : Spares may h (h.define s name v) := by
  have hchain : ∀ t, (h.define s name v).chain t = h.chain t := fun t => chain_congr fun r _ => parent_define h s r name v
  refine ⟨by simp, fun t _ => by simp, fun t _ => by simp, fun o => ?_, fun t ht => ?_,
    fun t _ n hd => defines_define h s t name v hd, fun t ht hn => ?_⟩
  · rw [size_define]
    exact hf o
  · refine ⟨by rw [parent_define]; exact ht.1, fun o => ?_⟩
    rw [hchain]
    exact ht.2 o
  · rw [scope_define_eq, if_neg]
    rintro ⟨rfl, -⟩
    exact hs.elim (fun h => h ht) hn

theorem Spares.defineAll {vars : List (String × Value)} (hf : h.Founded) (hs : ¬ h.Hidden s ∨ may s) :
    Spares may h (h.defineAll s vars) := by
  induction vars generalizing h with
  | nil => exact .refl hf
  | cons b rest ih =>
    have hdefine : Spares may h (h.define s b.1 b.2) := .define hf hs
    refine hdefine.trans (ih hdefine.founded ?_) fun _ _ hmay => hmay
    refine hs.imp_left fun hnot hhidden => hnot ⟨?_, fun o hmem => hhidden.2 o ?_⟩
    · rw [← parent_define h s s b.1 b.2]
      exact hhidden.1
    · rw [show (h.define s b.1 b.2).fields o = h.fields o from rfl,
        chain_congr fun r _ => parent_define h s r b.1 b.2]
      exact hmem

/-! ### Objects -/

theorem defines_defineAll (h : Heap) (s t : ScopeId) (vars : List (String × Value)) {n : String}
    (hd : (h.scope t).defines n = true) : ((h.defineAll s vars).scope t).defines n = true := by
  induction vars generalizing h with
  | nil => exact hd
  | cons b rest ih => exact ih _ (defines_define h s t b.1 b.2 hd)

theorem fields_defineAll (h : Heap) (s : ScopeId) (vars : List (String × Value)) (o : ObjectId) :
    (h.defineAll s vars).fields o = h.fields o := by
  induction vars generalizing h with
  | nil => rfl
  | cons b rest ih => exact ih _

/-- A new object inside a scope with nothing around it. -/
theorem Spares.newObject {className : String} (hf : h.Founded) (hroot : h.parent? s = none)
    (hs : s.index < h.scopes.size) : Spares may h (h.newObject className s).2 := by
  have hscope : Spares may h (h.newScope { parent := some s, owner := some ⟨h.objects.size⟩ }).2 := .newScope hf _
  have hsize : (h.newObject className s).2.scopes.size = h.scopes.size + 1 := by simp [Heap.newObject, Heap.newScope]
  have hnew : (h.newObject className s).2.chain ⟨h.scopes.size⟩ = [⟨h.scopes.size⟩, s] := by
    have hparent : (h.newObject className s).2.parent? ⟨h.scopes.size⟩ = some s := by
      show ((h.newScope _).2.scope ⟨h.scopes.size⟩).parent = some s
      rw [scope_newScope, if_pos rfl]
    rw [Heap.chain, chainFrom_eq, hparent]
    simp only [if_pos hs]
    rw [show (h.newObject className s).2.chainFrom s.index = [s] from
      chain_root ((hscope.parent s hs).trans hroot)]
  refine ⟨hscope.size, hscope.parent, hscope.owner, fun o => ?_, fun t ht => ?_, hscope.defined, hscope.kept⟩
  · rw [fields_newObject, hsize]
    split
    · exact Nat.lt_succ_self _
    · exact Nat.lt_succ_of_lt (hf o)
  · refine ⟨(hscope.hidden t ht).1, fun o => ?_⟩
    rw [fields_newObject]
    split
    · -- the new object leads to itself and to the root, and neither of them was hidden
      rw [hnew]
      rintro (_ | ⟨_, _ | ⟨_, hmem⟩⟩)
      · exact Nat.lt_irrefl _ ht.lt
      · exact absurd ht.1 (by rw [hroot]; rintro ⟨_, ⟨⟩⟩)
      · exact absurd hmem List.not_mem_nil
    · have hold : (h.newObject className s).2.chain (h.fields o) = h.chain (h.fields o) :=
        chain_congr fun r hr => hscope.parent r (Nat.lt_of_le_of_lt hr (hf o))
      rw [hold]
      exact ht.2 o

theorem not_hidden_fields (h : Heap) (o : ObjectId) : ¬ h.Hidden (h.fields o) := fun hh =>
  hh.2 o (self_mem_chain h _)

theorem Spares.newInstance {className : String} {fields : List (String × Value)} (hf : h.Founded)
    (hroot : h.parent? s = none) (hs : s.index < h.scopes.size) :
    Spares may h (Machine.newInstance className s fields h).2 := by
  have hobject : Spares may h (h.newObject className s).2 := .newObject hf hroot hs
  exact hobject.trans (.defineAll hobject.founded (.inl (not_hidden_fields _ _))) fun _ _ hmay => hmay

/-- A field assignment never ends at a hidden scope. -/
theorem not_hidden_fieldSlot (h : Heap) (o : ObjectId) (name : String) :
    ¬ h.Hidden (h.fieldSlot (h.fields o) name) := by
  unfold fieldSlot
  cases hd : h.definer? (h.upToFields (h.chain (h.fields o))) name with
  | none => exact not_hidden_fields h o
  | some t =>
    have hmem : t ∈ h.upToFields (h.chain (h.fields o)) := List.mem_of_find?_eq_some hd
    have hsub : ∀ scopes : List ScopeId, h.upToFields scopes ⊆ scopes := by
      intro scopes
      induction scopes with
      | nil => exact fun _ ht => ht
      | cons r rest ih =>
        unfold upToFields
        split
        · exact fun t ht => List.mem_singleton.1 ht ▸ List.mem_cons_self
        · exact List.cons_subset_cons r ih
    exact fun hh => hh.2 o (hsub _ hmem)

theorem mem_chain_of_slot (ht : h.slot s name = .ok t) : t ∈ h.chain s := by
  unfold slot at ht
  split at ht
  · rename_i hd
    cases ht
    exact List.mem_of_find?_eq_some hd
  · cases ht

/-! ### New hidden scopes -/

/-- A change that makes a hidden scope inside another and spares all others. -/
structure Opens (h h' : Heap) (s outer : ScopeId) : Prop where
  spares : Spares nowhere h h'
  fresh : h.scopes.size ≤ s.index
  chain : h'.chain s = s :: h'.chain outer
  hidden : h'.Hidden s
  plain : (h'.scope s).owner = none

theorem opens_newChild (hf : h.Founded) (ho : outer.index < h.scopes.size) :
    Opens h (h.newChild outer).2 (h.newChild outer).1 outer := by
  have hspares : Spares nowhere h (h.newChild outer).2 := .newScope hf _
  refine ⟨hspares, Nat.le_refl _, ?_, ⟨⟨outer, ?_⟩, fun o hmem => ?_⟩, ?_⟩
  · rw [chain_newChild ho, hspares.chain ho]
  · rw [parent?, scope_newChild]
  · have hle := le_of_mem_chain hmem
    have hlt := hf o
    rw [index_newChild] at hle
    exact absurd hlt (Nat.not_lt_of_le hle)
  · rw [scope_newChild]

theorem Opens.define (hg : Opens h h' s outer) : Opens h (h'.define s name v) s outer := by
  have hdefine : Spares (· = s) h' (h'.define s name v) := .define hg.spares.founded (.inr rfl)
  have hchain : ∀ t, (h'.define s name v).chain t = h'.chain t := fun t =>
    chain_congr fun r _ => parent_define h' s r name v
  refine ⟨hg.spares.trans hdefine fun t ht he => ?_, hg.fresh, ?_, hdefine.hidden s hg.hidden, ?_⟩
  · rw [he] at ht
    exact absurd ht (Nat.not_lt_of_le hg.fresh)
  · rw [hchain, hchain, hg.chain]
  · rw [owner_define, hg.plain]

theorem Opens.defineAll {vars : List (String × Value)} (hg : Opens h h' s outer) :
    Opens h (h'.defineAll s vars) s outer := by
  induction vars generalizing h' with
  | nil => exact hg
  | cons b rest ih => exact ih hg.define

/-- A scope that is opened after another change. -/
theorem Opens.after (hg : Spares nowhere h h') (hg' : Opens h' h'' s outer) : Opens h h'' s outer :=
  ⟨hg.trans hg'.spares fun _ _ hmay => hmay, Nat.le_trans hg.size hg'.fresh, hg'.chain, hg'.hidden, hg'.plain⟩

end Heap

/-! ### Host values -/

/-- A host value that spares hidden scopes. -/
structure Native.Spares (n : Native) : Prop where
  write : ∀ name v h, h.Founded → Heap.Spares Heap.nowhere h (n.write name v h).2
  call : ∀ this args h, h.Founded → Heap.Spares Heap.nowhere h (n.call this args h).heap

/-- Host values that all do. -/
def Hosts.Spare (hosts : Hosts) : Prop := ∀ n ∈ hosts.table, n.Spares

/-- A host function spares what its body spares. -/
theorem Native.spares_function {name : String} {arity : Arity}
    {body : Option Value → List Value → Heap → CallResult}
    (hb : ∀ this args h, h.Founded → Heap.Spares Heap.nowhere h (body this args h).heap) :
    (Native.function name arity body).Spares where
  write _ _ _ hf := .refl hf
  call this args h hf := by
    simp only [Native.function]
    split
    · exact hb this args h hf
    · exact .refl hf

/-- Builtins leave scopes and objects alone. -/
theorem Builtin.body_aside (b : Builtin) (this : Option Value) (args : List Value) (h : Heap) :
    (b.body this args h).heap.scopes = h.scopes ∧ (b.body this args h).heap.objects = h.objects := by
  cases b with
  | makeRegex =>
    unfold Builtin.body
    simp only
    split
    · exact ⟨rfl, rfl⟩
    · unfold Heap.newRegex
      cases Pattern.compile ((args.headD .undefined).text h) <;> exact ⟨rfl, rfl⟩
  | arrayPush =>
    unfold Builtin.body
    cases Builtin.thisArray .arrayPush this <;> exact ⟨rfl, rfl⟩
  | arrayPop =>
    unfold Builtin.body
    cases Builtin.thisArray .arrayPop this <;> exact ⟨rfl, rfl⟩
  | stringSplit =>
    unfold Builtin.body
    cases (do Builtin.parts .stringSplit (← Builtin.thisString .stringSplit this) args.head? :
      Except Cause (List String)) <;> exact ⟨rfl, rfl⟩
  | _ => exact ⟨rfl, rfl⟩

theorem Hosts.Spare.find {hosts : Hosts} (hs : hosts.Spare) (handle : NativeHandle) : (hosts.find handle).Spares := by
  unfold Hosts.find
  split
  · rename_i b _
    exact Native.spares_function fun this args h hf =>
      .of_eq hf (b.body_aside this args h).1 (b.body_aside this args h).2
  · rename_i i _
    rw [Array.getD_eq_getD_getElem?]
    cases hi : hosts.table[i]? with
    | none => exact ⟨fun _ _ _ hf => .refl hf, fun _ _ _ hf => .refl hf⟩
    | some n => exact hs n (Array.mem_iff_getElem?.2 ⟨i, hi⟩)

namespace Machine

variable {m : Machine}

/-- Writing a property spares hidden scopes. -/
theorem setProperty_spares (hs : m.hosts.Spare) (hf : m.heap.Founded) (target key v : Value) :
    Heap.Spares Heap.nowhere m.heap (m.setProperty target key v).2.heap := by
  unfold setProperty
  cases target with
  | object o => exact .define hf (.inl (Heap.not_hidden_fieldSlot _ _ _))
  | array a =>
    simp only
    split
    · split
      · exact .of_eq hf rfl rfl
      · exact .refl hf
    · exact .refl hf
  | native handle => exact (hs.find handle).write _ _ _ hf
  | _ => exact .refl hf

theorem callNative_spares (hs : m.hosts.Spare) (hf : m.heap.Founded) (handle : NativeHandle) (receiver : Option Value)
    (args : List Value) : Heap.Spares Heap.nowhere m.heap (callNative handle receiver args m).2.heap :=
  (hs.find handle).call receiver args m.heap hf

/-- Writing a property changes the heap alone. -/
theorem setProperty_heap (m : Machine) (target key v : Value) :
    (m.setProperty target key v).2 = { m with heap := (m.setProperty target key v).2.heap } := by
  unfold setProperty
  cases target with
  | array a =>
    simp only
    split
    · split <;> rfl
    · rfl
  | _ => rfl

/-- The object that receives a call. -/
def receivingObject : Option Value → Option ObjectId
  | some (.object o) => some o
  | _ => none

/-- The scope around that of a call: the fields of an object that receives it, else the globals. -/
def around (m : Machine) (receiver : Option ObjectId) : ScopeId := (receiver.map m.heap.fields).getD m.globals

/-- A function that is entered gets a hidden scope. -/
theorem opens_enterFunction (hf : m.heap.Founded) (hg : m.globals.index < m.heap.scopes.size) (f : ScriptFunction)
    (receiver : Option Value) (args : List Value) (fromHost : Bool) :
    Heap.Opens m.heap (enterFunction f receiver args fromHost m).heap (enterFunction f receiver args fromHost m).env
      (m.around (receivingObject receiver)) := by
  have hplain : Heap.Opens m.heap (m.heap.newChild m.globals).2 (m.heap.newChild m.globals).1 m.globals :=
    Heap.opens_newChild hf hg
  cases receiver with
  | none => exact hplain.defineAll
  | some receiver =>
    cases receiver with
    | object o =>
      have hchild := Heap.opens_newChild hf (hf o)
      have hthis : Heap.Opens m.heap ((m.heap.newChild (m.heap.fields o)).2.define
          (m.heap.newChild (m.heap.fields o)).1 thisName (.object o)) _ _ := hchild.define
      exact hthis.defineAll
    | _ => exact hplain.defineAll

/-- The scope of a call that an object receives defines `this`. -/
theorem defines_enterFunction (f : ScriptFunction) {receiver : Option Value} {o : ObjectId}
    (ho : receivingObject receiver = some o) (args : List Value) (fromHost : Bool) (m : Machine) :
    ((enterFunction f receiver args fromHost m).heap.scope (enterFunction f receiver args fromHost m).env).defines
      thisName = true := by
  obtain rfl : receiver = some (.object o) := by
    unfold receivingObject at ho
    split at ho <;> cases ho
    rfl
  refine Heap.defines_defineAll _ _ _ _ ?_
  rw [Scope.defines, Heap.lookup_define, if_pos ⟨⟨rfl, by simp⟩, rfl⟩]
  rfl

/-- Entering a function makes no object. -/
theorem fields_enterFunction (f : ScriptFunction) (receiver : Option Value) (args : List Value) (fromHost : Bool)
    (m : Machine) (o : ObjectId) : (enterFunction f receiver args fromHost m).heap.fields o = m.heap.fields o := by
  have hscope : (callScope m.globals receiver m.heap).2.fields o = m.heap.fields o := by
    unfold callScope
    split <;> rfl
  exact (Heap.fields_defineAll _ _ _ o).trans hscope

end Machine

end ScriptMachine
