import Mathlib.Data.List.Find
import ScriptMachine.Proofs.Value.Growth

/-!
# Agree — heaps that a script cannot tell apart

Generated code keeps operands and pending results in scopes under reserved names, and runs copies of
final parts inside scopes that their text is outside of. Heaps that differ in no more than that agree:
scopes that no value leads to may differ in reserved names and in the scope around them. A chain of
scopes shadows another if it only adds scopes that define none of the names in question.
-/

namespace ScriptMachine

namespace Heap

variable {h H : Heap} {base : Nat} {s t : ScopeId} {name : String} {v : Value}

/-- A scope that values may lead to. -/
def Shared (base : Nat) (h : Heap) (s : ScopeId) : Prop := s.index < base ∨ (h.scope s).isBound = true

theorem not_private_of_shared (hs : Shared base h s) : ¬ Private base h s := by
  rintro ⟨hle, ho⟩
  rcases hs with hlt | hb
  · omega
  · rw [Scope.isBound, ho] at hb
    cases hb

/-- Heaps that agree on everything but reserved names and places of scopes that no value leads to. -/
structure Agrees (base : Nat) (h H : Heap) : Prop where
  arrays : H.arrays = h.arrays
  objects : H.objects = h.objects
  cells : H.cells = h.cells
  stamps : H.stamps = h.stamps
  size : H.scopes.size = h.scopes.size
  owner : ∀ s, (H.scope s).owner = (h.scope s).owner
  shared : ∀ s, Shared base h s → H.scope s = h.scope s
  vars : ∀ s name, reserved name = false →
    (H.scope s).vars.lookup name = (h.scope s).vars.lookup name
  fields : ∀ o, Shared base h (h.fields o)
  base_le : base ≤ h.scopes.size

/-- A heap agrees with itself once every object has its fields below the base. -/
theorem Agrees.refl (hf : ∀ o, (h.fields o).index < base) (hb : base ≤ h.scopes.size) :
    Agrees base h h :=
  ⟨rfl, rfl, rfl, rfl, rfl, fun _ => rfl, fun _ _ => rfl, fun _ _ _ => rfl, fun o => .inl (hf o), hb⟩

theorem Agrees.eq_fields (ha : Agrees base h H) (o : ObjectId) : H.fields o = h.fields o := by
  rw [Heap.fields, Heap.fields, ha.objects]

theorem Agrees.defines (ha : Agrees base h H) (s : ScopeId) (hn : reserved name = false) :
    (H.scope s).defines name = (h.scope s).defines name := by
  rw [Scope.defines, Scope.defines, ha.vars s name hn]

theorem Agrees.getLocal? (ha : Agrees base h H) (s : ScopeId) (hn : reserved name = false) :
    H.getLocal? s name = h.getLocal? s name := by
  simp only [Heap.getLocal?, Scope.get?, ha.vars s name hn, ha.owner s]

theorem Agrees.getShared? (ha : Agrees base h H) (hs : Shared base h s) (name : String) :
    H.getLocal? s name = h.getLocal? s name := by
  simp only [Heap.getLocal?, ha.shared s hs]

theorem Agrees.private (ha : Agrees base h H) (hp : Private base h s) : Private base H s :=
  ⟨hp.1, (ha.owner s).trans hp.2⟩

/-! ### Operations keep agreement -/

theorem shared_define (s t : ScopeId) (name : String) (v : Value) :
    Shared base (h.define s name v) t ↔ Shared base h t := by
  simp only [Shared, Scope.isBound, owner_define]

theorem Agrees.define (ha : Agrees base h H) (s : ScopeId) (name : String) (v : Value) :
    Agrees base (h.define s name v) (H.define s name v) where
  arrays := ha.arrays
  objects := ha.objects
  cells := ha.cells
  stamps := ha.stamps
  size := by rw [size_define, size_define, ha.size]
  owner t := by rw [owner_define, owner_define, ha.owner]
  shared t ht := by
    have ht := (shared_define s t name v).1 ht
    rw [scope_define_eq, scope_define_eq, ha.size]
    split
    · rename_i hts
      rw [← hts.1, ha.shared t ht]
    · exact ha.shared t ht
  vars t n hn := by rw [lookup_define, lookup_define, ha.size, ha.vars t n hn]
  fields o := (shared_define s _ name v).2 (ha.fields o)
  base_le := by rw [size_define]; exact ha.base_le

/-- A reserved name in a scope that no value leads to is nobody's concern. -/
theorem Agrees.hide (ha : Agrees base h H) (hr : reserved name = true) (hp : Private base h s) :
    Agrees base h (H.define s name v) where
  arrays := ha.arrays
  objects := ha.objects
  cells := ha.cells
  stamps := ha.stamps
  size := by rw [size_define, ha.size]
  owner t := by rw [owner_define, ha.owner]
  shared t ht := by
    rw [scope_define_eq, if_neg, ha.shared t ht]
    rintro ⟨rfl, -⟩
    exact not_private_of_shared ht hp
  vars t n hn := by
    rw [lookup_define, if_neg, ha.vars t n hn]
    rintro ⟨-, rfl⟩
    rw [hr] at hn
    cases hn
  fields := ha.fields
  base_le := ha.base_le

theorem shared_newScope (new : Scope) (hs : Shared base h s) :
    Shared base (h.newScope new).2 s := by
  rcases hs with hlt | hbound
  · exact .inl hlt
  · refine .inr ?_
    rw [scope_newScope, if_neg]
    · exact hbound
    · intro hi
      rw [scope_of_le (Nat.le_of_eq hi.symm)] at hbound
      cases hbound

/-- A new scope may stand in different places. -/
theorem Agrees.newChild (ha : Agrees base h H) (e e' : ScopeId) :
    Agrees base (h.newChild e).2 (H.newChild e').2 where
  arrays := ha.arrays
  objects := ha.objects
  cells := ha.cells
  stamps := ha.stamps
  size := by rw [size_newChild, size_newChild, ha.size]
  owner t := by
    rw [Heap.newChild, Heap.newChild, scope_newScope, scope_newScope, ha.size]
    split
    · rfl
    · exact ha.owner t
  shared t ht := by
    rw [Heap.newChild, Heap.newChild, scope_newScope, scope_newScope, ha.size]
    rw [Shared, Heap.newChild, scope_newScope] at ht
    by_cases hi : t.index = h.scopes.size
    · rw [if_pos hi] at ht
      have hb := ha.base_le
      rcases ht with hlt | hbound
      · omega
      · cases hbound
    · rw [if_neg hi] at ht
      rw [if_neg hi, if_neg hi, ha.shared t ht]
  vars t n hn := by
    rw [Heap.newChild, Heap.newChild, scope_newScope, scope_newScope, ha.size]
    split
    · rfl
    · exact ha.vars t n hn
  fields o := shared_newScope _ (ha.fields o)
  base_le := by rw [size_newChild]; exact Nat.le_succ_of_le ha.base_le

theorem Agrees.fst_newChild (ha : Agrees base h H) (e e' : ScopeId) :
    (H.newChild e').1 = (h.newChild e).1 := by
  simp [Heap.newChild, Heap.newScope, ha.size]

/-- Heaps with the same scopes as before agree if the rest does. -/
theorem Agrees.of_scopes {h' H' : Heap} (ha : Agrees base h H) (hs : h'.scopes = h.scopes)
    (hS : H'.scopes = H.scopes) (harrays : H'.arrays = h'.arrays) (ho : h'.objects = h.objects)
    (hO : H'.objects = H.objects) (hcells : H'.cells = h'.cells) (hstamps : H'.stamps = h'.stamps) :
    Agrees base h' H' := by
  have hscope : ∀ s, h'.scope s = h.scope s := fun s => by rw [scope, scope, hs]
  have hScope : ∀ s, H'.scope s = H.scope s := fun s => by rw [scope, scope, hS]
  refine ⟨harrays, by rw [hO, ho, ha.objects], hcells, hstamps, by rw [hs, hS, ha.size],
    fun s => by rw [hscope, hScope, ha.owner], fun s hsh => ?_,
    fun s n hn => by rw [hscope, hScope, ha.vars s n hn], fun o => ?_, by rw [hs]; exact ha.base_le⟩
  · rw [Shared, hscope] at hsh
    rw [hscope, hScope, ha.shared s hsh]
  · rw [Shared, hscope, Heap.fields, ho]
    exact ha.fields o

theorem Agrees.newArray (ha : Agrees base h H) (items : Array Value) :
    (H.newArray items).1 = (h.newArray items).1 ∧ Agrees base (h.newArray items).2 (H.newArray items).2 := by
  refine ⟨by simp [Heap.newArray, ha.arrays], ha.of_scopes rfl rfl ?_ rfl rfl ha.cells ha.stamps⟩
  simp [Heap.newArray, ha.arrays]

theorem Agrees.modifyArray (ha : Agrees base h H) (a : ArrayId) (f : Array Value → Array Value) :
    Agrees base (h.modifyArray a f) (H.modifyArray a f) := by
  refine ha.of_scopes rfl rfl ?_ rfl rfl ha.cells ha.stamps
  simp [Heap.modifyArray, ha.arrays]

theorem Agrees.newError (ha : Agrees base h H) (text : String) :
    (H.newError text).1 = (h.newError text).1 ∧ Agrees base (h.newError text).2 (H.newError text).2 := by
  refine ⟨by simp [Heap.newError, freshIdentity, ha.stamps],
    ha.of_scopes rfl rfl ha.arrays rfl rfl ha.cells ?_⟩
  simp [Heap.newError, freshIdentity, ha.stamps]

theorem Agrees.newObject (ha : Agrees base h H) (className : String) (parent : ScopeId) :
    (H.newObject className parent).1 = (h.newObject className parent).1 ∧
      Agrees base (h.newObject className parent).2 (H.newObject className parent).2 := by
  have hscope : ∀ t, (h.newObject className parent).2.scope t =
      if t.index = h.scopes.size then { parent := some parent, owner := some ⟨h.objects.size⟩ }
      else h.scope t := fun t => scope_newScope h _ t
  have hScope : ∀ t, (H.newObject className parent).2.scope t =
      if t.index = h.scopes.size then { parent := some parent, owner := some ⟨h.objects.size⟩ }
      else H.scope t := fun t => by
    rw [← ha.size, ← ha.objects]
    exact scope_newScope H _ t
  refine ⟨by simp [Heap.newObject, ha.objects], ha.arrays, ?_, ha.cells, ha.stamps, ?_, fun t => ?_,
    fun t ht => ?_, fun t n hn => ?_, fun o => ?_, ?_⟩
  · simp [Heap.newObject, Heap.newScope, ha.objects, ha.size]
  · simp [Heap.newObject, Heap.newScope, ha.size]
  · rw [hscope, hScope]
    split
    · rfl
    · exact ha.owner t
  · rw [hscope, hScope]
    rw [Shared, hscope] at ht
    split
    · rfl
    · rename_i hi
      rw [if_neg hi] at ht
      exact ha.shared t ht
  · rw [hscope, hScope]
    split
    · rfl
    · exact ha.vars t n hn
  · rw [fields_newObject]
    split
    · refine .inr ?_
      rw [hscope, if_pos rfl]
      rfl
    · rcases shared_newScope { parent := some parent, owner := some ⟨h.objects.size⟩ }
        (ha.fields o) with hlt | hb
      · exact .inl hlt
      · exact .inr hb
  · have hb := ha.base_le
    simp only [Heap.newObject, Heap.newScope, Array.size_push]
    omega

theorem Agrees.defineAll {vars : List (String × Value)} (ha : Agrees base h H) (s : ScopeId) :
    Agrees base (h.defineAll s vars) (H.defineAll s vars) := by
  induction vars generalizing h H with
  | nil => exact ha
  | cons b rest ih => exact ih (ha.define s b.1 b.2)

theorem Agrees.newInstance (ha : Agrees base h H) (className : String) (globals : ScopeId)
    (fields : List (String × Value)) :
    (Machine.newInstance className globals fields H).1 = (Machine.newInstance className globals fields h).1 ∧
      Agrees base (Machine.newInstance className globals fields h).2
        (Machine.newInstance className globals fields H).2 := by
  obtain ⟨hfst, hnew⟩ := ha.newObject className globals
  refine ⟨hfst, ?_⟩
  unfold Machine.newInstance
  simp only
  rw [hfst, hnew.eq_fields]
  exact hnew.defineAll _

theorem Grows.defineAll {may : ScopeId → String → Prop} {vars : List (String × Value)}
    (hs : Shared base h s) : Grows base may h (h.defineAll s vars) := by
  induction vars generalizing h with
  | nil => exact .refl _ _ _
  | cons b rest ih =>
    refine (Grows.define (.inr (.inr (not_private_of_shared hs)))).trans_same (ih ?_)
    exact (shared_define s s b.1 b.2).2 hs

theorem Grows.newInstance {may : ScopeId → String → Prop} (h : Heap) (className : String)
    (globals : ScopeId) (fields : List (String × Value)) :
    Grows base may h (Machine.newInstance className globals fields h).2 := by
  have hnew : Grows base may h (h.newScope { parent := some globals, owner := some ⟨h.objects.size⟩ }).2 :=
    Grows.newScope h _
  have hobject : Grows base may _ (h.newObject className globals).2 := hnew.trans_same (.of_scopes rfl)
  have hfields : (h.newObject className globals).2.fields (h.newObject className globals).1 =
      ⟨h.scopes.size⟩ := (fields_newObject h className globals _).trans (if_pos rfl)
  refine hobject.trans_same (.defineAll (.inr ?_))
  rw [hfields]
  exact congrArg Scope.isBound ((scope_newScope h _ _).trans (if_pos rfl))

/-! ### Texts -/

/-- Texts depend on arrays and objects only. -/
theorem plainText_congr (ho : H.objects = h.objects) (v : Value) : H.plainText v = h.plainText v := by
  cases v <;> simp [plainText, className, ho]

/-- The induction follows the path: an array that is entered is opened for what lies inside it. -/
theorem joinFrom_congr (harrays : H.arrays = h.arrays) (ho : H.objects = h.objects)
    (path : List ArrayId) (separator : String) (a : ArrayId) :
    H.joinFrom path separator a = h.joinFrom path separator a := by
  generalize hn : (h.unopened path).length = n
  induction n using Nat.strongRecOn generalizing path separator a with
  | ind n ih =>
    rw [joinFrom, joinFrom]
    by_cases hpath : path.contains a = true
    · rw [dif_pos hpath, dif_pos hpath]
    · rw [dif_neg hpath, dif_neg hpath]
      by_cases hsize : a.index < h.arrays.size
      · have hlt := h.unopened_cons_lt (by simpa using hpath) hsize
        rw [dif_pos hsize, dif_pos (by rw [harrays]; exact hsize)]
        simp only [harrays]
        refine congrArg (separator.intercalate ·) (List.map_congr_left fun v _ => ?_)
        cases v with
        | array inner => exact ih _ (hn ▸ hlt) _ _ _ rfl
        | _ => first | rfl | exact plainText_congr ho _
      · rw [dif_neg hsize, dif_neg (by rw [harrays]; exact hsize)]

theorem text_congr (harrays : H.arrays = h.arrays) (ho : H.objects = h.objects) (v : Value) :
    v.text H = v.text h := by
  cases v with
  | array a => exact joinFrom_congr harrays ho [] "," a
  | _ =>
    simp only [Value.text]
    exact plainText_congr ho _

theorem Agrees.text (ha : Agrees base h H) (v : Value) : v.text H = v.text h :=
  text_congr ha.arrays ha.objects v

theorem apply_congr (htext : Value.text H = Value.text h) (op : BinaryOp) (a b : Value) :
    op.apply H a b = op.apply h a b := by
  unfold BinaryOp.apply
  rw [htext]

theorem Agrees.apply (ha : Agrees base h H) (op : BinaryOp) (a b : Value) :
    op.apply H a b = op.apply h a b := apply_congr (funext ha.text) op a b

theorem message_congr (htext : Value.text H = Value.text h) (c : Cause) : c.message H = c.message h := by
  unfold Cause.message
  rw [htext]

/-- The exception that an error becomes. -/
theorem Agrees.thrownValue (ha : Agrees base h H) (c : Cause) :
    (Machine.thrownValue c H).1 = (Machine.thrownValue c h).1 ∧
      Agrees base (Machine.thrownValue c h).2 (Machine.thrownValue c H).2 := by
  have hmessage : c.message H = c.message h := message_congr (funext ha.text) c
  unfold Machine.thrownValue
  split
  · exact ⟨rfl, ha⟩
  · rw [hmessage]
    exact ha.newError _

/-! ### Names along chains -/

/-- A scope that a chain may add: no value leads to it, and it defines none of some names. -/
def Avoids (base : Nat) (h : Heap) (names : List String) (s : ScopeId) : Prop :=
  Private base h s ∧ ∀ name ∈ names, (h.scope s).defines name = false

/-- The second chain is the first one with more scopes, which define none of some names. -/
inductive Shadows (base : Nat) (h : Heap) (names : List String) : List ScopeId → List ScopeId → Prop where
  | nil : Shadows base h names [] []
  | both {s a b} : Shadows base h names a b → Shadows base h names (s :: a) (s :: b)
  | skip {s a b} : Avoids base h names s → Shadows base h names a b → Shadows base h names a (s :: b)

variable {names names' : List String} {a b : List ScopeId}

theorem Shadows.refl (base : Nat) (h : Heap) (names : List String) (a : List ScopeId) :
    Shadows base h names a a := by
  induction a with
  | nil => exact .nil
  | cons s a ih => exact .both ih

theorem Shadows.weaken (hs : Shadows base h names a b) (hn : names' ⊆ names) :
    Shadows base h names' a b := by
  induction hs with
  | nil => exact .nil
  | both _ ih => exact .both ih
  | skip hv _ ih => exact .skip ⟨hv.1, fun name hname => hv.2 name (hn hname)⟩ ih

/-- A scope in front of the first chain can be left to the second. -/
theorem Shadows.drop (hs : Shadows base h names (s :: a) b) (hv : Avoids base h names s) :
    Shadows base h names a b := by
  generalize hsa : s :: a = c at hs
  induction hs with
  | nil => cases hsa
  | both hs _ =>
    cases hsa
    exact .skip hv hs
  | skip hv' _ ih => exact .skip hv' (ih hsa)

/-- The chains of one scope stay in step behind it. -/
theorem Shadows.behind (hs : Shadows base h names (s :: a) (s :: b)) (hb : s ∉ b) :
    Shadows base h names a b := by
  have hsub : ∀ {c d}, Shadows base h names c d → c ⊆ d := by
    intro c d hcd
    induction hcd with
    | nil => exact List.Subset.refl _
    | both _ ih => exact List.cons_subset_cons _ ih
    | skip _ _ ih => exact List.subset_cons_of_subset _ ih
  cases hs with
  | both hs => exact hs
  | skip _ hs => exact absurd (hsub hs List.mem_cons_self) hb

/-- Growth elsewhere leaves chains in step. -/
theorem Shadows.grows {h' : Heap} {may : ScopeId → String → Prop} (hs : Shadows base h names a b)
    (hg : Grows base may h h') (hb : ∀ s ∈ b, s.index < h.scopes.size)
    (hm : ∀ s ∈ b, ∀ name ∈ names, ¬ may s name) : Shadows base h' names a b := by
  induction hs with
  | nil => exact .nil
  | both _ ih =>
    exact .both (ih (fun s hs => hb s (List.mem_cons_of_mem _ hs))
      fun s hs => hm s (List.mem_cons_of_mem _ hs))
  | @skip s a b hv _ ih =>
    have hlt := hb s List.mem_cons_self
    refine .skip ⟨hg.private hlt hv.1, fun name hname => ?_⟩
      (ih (fun s hs => hb s (List.mem_cons_of_mem _ hs)) fun s hs => hm s (List.mem_cons_of_mem _ hs))
    refine Bool.eq_false_iff.2 fun hd => ?_
    rcases hg.names s hlt hv.1 name hd with hd | hmay
    · rw [hv.2 name hname] at hd
      cases hd
    · exact hm s List.mem_cons_self name hname hmay

/-- Chains in step resolve the names in question alike. -/
theorem Shadows.resolve (hs : Shadows base h names a b) (ha : Agrees base h H) (hn : name ∈ names)
    (hr : reserved name = false) :
    b.findSome? (H.getLocal? · name) = a.findSome? (h.getLocal? · name) := by
  induction hs with
  | nil => rfl
  | both _ ih => rw [List.findSome?_cons, List.findSome?_cons, ha.getLocal? _ hr, ih]
  | @skip s a b hv _ ih =>
    have hnone : H.getLocal? s name = none := by
      have hd := hv.2 name hn
      rw [← ha.defines s hr] at hd
      have ho := (ha.owner s).trans hv.1.2
      simp only [Scope.defines, Option.isSome_eq_false_iff, Option.isNone_iff_eq_none] at hd
      simp [Heap.getLocal?, Scope.get?, hd, ho]
    rw [List.findSome?_cons, hnone, ih]

theorem Shadows.definer (hs : Shadows base h names a b) (ha : Agrees base h H) (hn : name ∈ names)
    (hr : reserved name = false) : H.definer? b name = h.definer? a name := by
  unfold definer?
  induction hs with
  | nil => rfl
  | both _ ih => rw [List.find?_cons, List.find?_cons, ha.defines _ hr, ih]
  | @skip s a b hv _ ih =>
    have hd := hv.2 name hn
    rw [← ha.defines s hr] at hd
    rw [List.find?_cons, hd, ih]

/-! ### Fields -/

/-- The chain of a scope below the base lies below the base, where heaps are the same. -/
theorem Agrees.chain_below (ha : Agrees base h H) (hs : s.index < base) : H.chain s = h.chain s := by
  refine chain_congr fun t ht => ?_
  rw [parent?, parent?, ha.shared t (.inl (Nat.lt_of_le_of_lt ht hs))]

/-- A field assignment goes to the same scope, which values lead to. -/
theorem Agrees.fieldSlot (ha : Agrees base h H) (hs : Shared base h s) (name : String) :
    H.fieldSlot s name = h.fieldSlot s name ∧ Shared base h (h.fieldSlot s name) := by
  have hfound : ∀ scopes : List ScopeId, (∀ t ∈ scopes, Shared base h t) →
      (H.definer? scopes name).getD s = (h.definer? scopes name).getD s ∧
        Shared base h ((h.definer? scopes name).getD s) := by
    intro scopes hscopes
    have hsame : H.definer? scopes name = h.definer? scopes name :=
      List.find?_congr fun t ht => by rw [ha.shared t (hscopes t ht)]
    rw [hsame]
    refine ⟨rfl, ?_⟩
    cases hd : h.definer? scopes name with
    | none => exact hs
    | some t => exact hscopes t (List.mem_of_find?_eq_some hd)
  unfold Heap.fieldSlot
  rcases hs with hlt | hb
  · have hup : ∀ scopes : List ScopeId, (∀ t ∈ scopes, t.index < base) →
        H.upToFields scopes = h.upToFields scopes ∧ ∀ t ∈ h.upToFields scopes, t.index < base := by
      intro scopes hscopes
      induction scopes with
      | nil => exact ⟨rfl, nofun⟩
      | cons t rest ih =>
        have ht := hscopes t List.mem_cons_self
        obtain ⟨heq, hall⟩ := ih fun u hu => hscopes u (List.mem_cons_of_mem _ hu)
        rw [upToFields, upToFields, ha.shared t (.inl ht), heq]
        refine ⟨rfl, fun u hu => ?_⟩
        split at hu
        · rw [List.mem_singleton.1 hu]
          exact ht
        · rcases List.mem_cons.1 hu with rfl | hu
          · exact ht
          · exact hall u hu
    obtain ⟨heq, hall⟩ := hup (h.chain s) fun t ht => Nat.lt_of_le_of_lt (le_of_mem_chain ht) hlt
    rw [ha.chain_below hlt, heq]
    exact hfound _ fun t ht => .inl (hall t ht)
  · obtain ⟨rest, hrest, -⟩ := h.chain_eq_cons s
    obtain ⟨Rest, hRest, -⟩ := H.chain_eq_cons s
    have hB : (H.scope s).isBound = true := by rw [ha.shared s (.inr hb)]; exact hb
    rw [hrest, hRest, upToFields, upToFields, if_pos hb, if_pos hB]
    exact hfound [s] fun t ht => by rw [List.mem_singleton.1 ht]; exact .inr hb

end Heap

/-! ### Host values and properties -/

/-- A host value that cannot tell agreeing heaps apart either, and does not touch scopes that no value
leads to. -/
structure Native.Discreet (base : Nat) (n : Native) : Prop where
  read : ∀ {h H : Heap}, Heap.Agrees base h H → ∀ name, n.read name H = n.read name h
  write : ∀ {h H : Heap}, Heap.Agrees base h H → ∀ name v,
    (n.write name v H).1 = (n.write name v h).1 ∧ Heap.Agrees base (n.write name v h).2 (n.write name v H).2
  grows : ∀ h name v, Heap.Grows base Heap.never h (n.write name v h).2

/-- Host values that are all discreet. -/
def Hosts.Discreet (base : Nat) (hosts : Hosts) : Prop := ∀ n ∈ hosts.table, n.Discreet base

theorem Native.discreet_of_refuses {base : Nat} {n : Native}
    (hread : ∀ name h H, n.read name H = n.read name h)
    (hwrite : ∀ name v h, n.write name v h = (.error (.invalidProperty name .native), h)) :
    n.Discreet base where
  read _ name := hread name _ _
  write ha name v := by rw [hwrite, hwrite]; exact ⟨rfl, ha⟩
  grows h name v := by rw [hwrite]; exact .refl _ _ _

theorem Hosts.Discreet.find {base : Nat} {hosts : Hosts} (hd : hosts.Discreet base)
    (handle : NativeHandle) : (hosts.find handle).Discreet base := by
  unfold Hosts.find
  split
  · exact Native.discreet_of_refuses (fun _ _ _ => rfl) fun _ _ _ => rfl
  · rename_i i _
    rw [Array.getD_eq_getD_getElem?]
    cases hi : hosts.table[i]? with
    | none => exact Native.discreet_of_refuses (fun _ _ _ => rfl) fun _ _ _ => rfl
    | some n => exact hd n (Array.mem_iff_getElem?.2 ⟨i, hi⟩)

namespace Machine

variable {base : Nat} {m v : Machine} {h : Heap}

/-- Reading a property of agreeing heaps gives the same. -/
theorem property_agrees (ha : Heap.Agrees base m.heap v.heap) (hosts : v.hosts = m.hosts)
    (hd : m.hosts.Discreet base) (target key : Value) : v.property target key = m.property target key := by
  have hkey : key.keyName v.heap = key.keyName m.heap := ha.text key
  unfold Machine.property
  cases target with
  | object o =>
    simp only
    rw [hkey, ha.eq_fields, ha.getShared? (ha.fields o)]
  | array a =>
    have hitems : v.heap.elements a = m.heap.elements a := by rw [Heap.elements, Heap.elements, ha.arrays]
    have hitem : v.heap.element? a = m.heap.element? a := by
      funext i
      rw [Heap.element?, Heap.element?, hitems]
    simp only
    rw [hitem, hitems]
  | regex id p =>
    simp only
    rw [hkey]
  | native handle =>
    simp only
    rw [hkey, hosts, (hd.find handle).read ha]
  | undefined | null | bool | number | function =>
    simp only
    rw [hkey]
  | string | error => rfl

/-- Writing a property of agreeing heaps does the same, and stays away from scopes that no value leads
to. -/
theorem setProperty_agrees (ha : Heap.Agrees base m.heap v.heap) (hosts : v.hosts = m.hosts)
    (hd : m.hosts.Discreet base) (target key w : Value) :
    (v.setProperty target key w).1 = (m.setProperty target key w).1 ∧
      Heap.Agrees base (m.setProperty target key w).2.heap (v.setProperty target key w).2.heap ∧
      Heap.Grows base Heap.never m.heap (m.setProperty target key w).2.heap ∧
      Heap.Grows base Heap.never v.heap (v.setProperty target key w).2.heap := by
  have hkey : key.keyName v.heap = key.keyName m.heap := ha.text key
  unfold Machine.setProperty
  cases target with
  | object o =>
    obtain ⟨hslot, hshared⟩ := ha.fieldSlot (ha.fields o) (key.keyName m.heap)
    have hnot := Heap.not_private_of_shared hshared
    have hNot : ¬ Heap.Private base v.heap (m.heap.fieldSlot (m.heap.fields o) (key.keyName m.heap)) := by
      rintro ⟨hle, ho⟩
      exact hnot ⟨hle, (ha.owner _).symm.trans ho⟩
    simp only [hkey, ha.eq_fields, hslot]
    exact ⟨trivial, ha.define _ _ _, .define (.inr (.inr hnot)), .define (.inr (.inr hNot))⟩
  | array a =>
    simp only
    cases key.toPosition? with
    | none =>
      simp only
      rw [hkey]
      exact ⟨rfl, ha, .refl _ _ _, .refl _ _ _⟩
    | some i =>
      simp only
      cases Heap.checkIndex i with
      | ok _ => exact ⟨rfl, ha.modifyArray a _, .of_scopes rfl, .of_scopes rfl⟩
      | error c => exact ⟨rfl, ha, .refl _ _ _, .refl _ _ _⟩
  | native handle =>
    simp only
    rw [hkey, hosts]
    obtain ⟨hfst, hsnd⟩ := (hd.find handle).write ha (key.keyName m.heap) w
    exact ⟨hfst, hsnd, (hd.find handle).grows _ _ _, (hd.find handle).grows _ _ _⟩
  | _ =>
    simp only [hkey]
    exact ⟨trivial, ha, .refl _ _ _, .refl _ _ _⟩

end Machine

end ScriptMachine
