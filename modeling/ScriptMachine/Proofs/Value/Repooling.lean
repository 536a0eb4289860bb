import Mathlib.Data.List.Find
import ScriptMachine.Proofs.Value.Relocation

/-!
# Repooling — heaps that differ in numbers of constants and in hidden scopes

Two programs may have the same pattern at different places of their constant pools. `Value.repooled` gives a
value of the one program as it reads in the other, and `Heap.Beside` relates the heaps: they have the same
arrays and objects, and the same scopes but for some hidden ones, about which nothing is said. No text and no
operator tells the two apart, as long as different places stay different.
-/

namespace ScriptMachine

/-! ### Values -/

/-- An identity with another numbering of constants. -/
def Identity.repooled (f : Nat → Nat) : Identity → Identity
  | .pooled i => .pooled (f i)
  | .declared i => .declared i
  | .made i => .made i

/-- A value with another numbering of constants: patterns are the constants that have an identity. -/
def Value.repooled (f : Nat → Nat) : Value → Value
  | .regex id pattern => .regex (id.repooled f) pattern
  | .undefined => .undefined
  | .null => .null
  | .bool b => .bool b
  | .number bits => .number bits
  | .string s => .string s
  | .array a => .array a
  | .object o => .object o
  | .function id g => .function id g
  | .error id message => .error id message
  | .native handle => .native handle

/-- A cause with another numbering of constants. -/
def Cause.repooled (f : Nat → Nat) : Cause → Cause
  | .thrown v => .thrown (v.repooled f)
  | c => c

/-- A scope with another numbering of constants. -/
def Scope.repooled (f : Nat → Nat) (s : Scope) : Scope :=
  { s with vars := s.vars.map (Prod.map id (·.repooled f)) }

variable {f g : Nat → Nat} {v w : Value} {c : Cause}

namespace Value

@[simp] theorem repooled_undefined : undefined.repooled f = .undefined := rfl

@[simp] theorem repooled_null : null.repooled f = .null := rfl

@[simp] theorem repooled_bool (b : Bool) : (bool b).repooled f = .bool b := rfl

@[simp] theorem repooled_number (bits : UInt64) : (number bits).repooled f = .number bits := rfl

@[simp] theorem repooled_string (s : String) : (string s).repooled f = .string s := rfl

@[simp] theorem repooled_array (a : ArrayId) : (array a).repooled f = .array a := rfl

@[simp] theorem repooled_object (o : ObjectId) : (object o).repooled f = .object o := rfl

@[simp] theorem repooled_function (id : Identity) (g : ScriptFunction) :
    (function id g).repooled f = .function id g := rfl

@[simp] theorem repooled_error (id : Identity) (message : String) :
    (error id message).repooled f = .error id message := rfl

@[simp] theorem repooled_regex (id : Identity) (pattern : Pattern) :
    (regex id pattern).repooled f = .regex (id.repooled f) pattern := rfl

@[simp] theorem repooled_native (handle : NativeHandle) : (native handle).repooled f = .native handle := rfl

@[simp] theorem kind_repooled (v : Value) : (v.repooled f).kind = v.kind := by
  cases v <;> rfl

@[simp] theorem isTruthy_repooled (v : Value) : (v.repooled f).isTruthy = v.isTruthy := by
  cases v <;> rfl

@[simp] theorem toPosition?_repooled (v : Value) : (v.repooled f).toPosition? = v.toPosition? := by
  cases v <;> rfl

@[simp] theorem readPosition?_repooled (v : Value) : (v.repooled f).readPosition? = v.readPosition? := by
  cases v <;> rfl

@[simp] theorem isPortable_repooled (v : Value) : (v.repooled f).isPortable = v.isPortable := by
  cases v with
  | regex id _ => cases id <;> rfl
  | _ => rfl

/-- One numbering after another. -/
theorem repooled_repooled (v : Value) : (v.repooled f).repooled g = v.repooled (g ∘ f) := by
  cases v with
  | regex id _ => cases id <;> rfl
  | _ => rfl

/-- Identities stay apart. -/
theorem same_repooled (hf : f.Injective) (v w : Value) : (v.repooled f).same (w.repooled f) = v.same w := by
  cases v <;> cases w <;> try rfl
  rename_i i p j q
  have hiff : i.repooled f = j.repooled f ↔ i = j := by
    cases i <;> cases j <;> simp [Identity.repooled, hf.eq_iff]
  exact decide_eq_decide.2 hiff

theorem repooled_eq_number {bits : UInt64} (h : v.repooled f = .number bits) : v = .number bits := by
  cases v <;> first | exact h | cases h

theorem repooled_eq_string {s : String} (h : v.repooled f = .string s) : v = .string s := by
  cases v <;> first | exact h | cases h

end Value

@[simp] theorem Cause.isCatchable_repooled (c : Cause) : (c.repooled f).isCatchable = c.isCatchable := by
  cases c <;> rfl

/-! ### One scope -/

namespace Scope

@[simp] theorem isBound_repooled (s : Scope) : (s.repooled f).isBound = s.isBound := rfl

@[simp] theorem defines_repooled (s : Scope) (name : String) : (s.repooled f).defines name = s.defines name := by
  simp [defines, repooled, lookup_map]

theorem get?_repooled (s : Scope) (name : String) : (s.repooled f).get? name = (s.get? name).map (·.repooled f) := by
  simp only [get?, repooled, lookup_map]
  cases s.vars.lookup name with
  | some v => rfl
  | none =>
    simp only [Option.map_none]
    split
    · cases s.owner <;> rfl
    · rfl

theorem define_repooled (s : Scope) (name : String) (v : Value) :
    (s.repooled f).define name (v.repooled f) = (s.define name v).repooled f := by
  simp only [define, repooled, insertBinding_map (·.repooled f)]

end Scope

/-! ### Two heaps -/

namespace Heap

/-- Heaps that are the same but for the numbering of constants and for some hidden scopes. What is not hidden
leads to nothing that is hidden. -/
structure Beside (f : Nat → Nat) (hidden : ScopeId → Prop) (h H : Heap) : Prop where
  arrays : H.arrays = h.arrays.map (·.map (·.repooled f))
  objects : H.objects = h.objects
  cells : H.cells = h.cells.map (·.repooled f)
  stamps : H.stamps = h.stamps
  size : H.scopes.size = h.scopes.size
  plain : ∀ s, ¬ hidden s → H.scope s = (h.scope s).repooled f
  parents : ∀ s, H.parent? s = h.parent? s
  made : ∀ s, hidden s → s.index < h.scopes.size
  parent : ∀ s t, ¬ hidden s → h.parent? s = some t → ¬ hidden t ∧ t.index < h.scopes.size
  fields : ∀ o, ¬ hidden (h.fields o) ∧ (h.fields o).index < h.scopes.size

variable {hidden : ScopeId → Prop} {h H h' H' h'' H'' : Heap} {s t : ScopeId}

/-- What is found first, where everything that may be found is mapped. -/
theorem findSome?_mapped {α β γ : Type} {p : α → Option β} {p' : α → Option γ} {g : β → γ} {xs : List α}
    (hp : ∀ x ∈ xs, p' x = (p x).map g) : xs.findSome? p' = (xs.findSome? p).map g := by
  induction xs with
  | nil => rfl
  | cons x rest ih =>
    rw [List.findSome?_cons, List.findSome?_cons, hp x List.mem_cons_self]
    cases p x with
    | some y => rfl
    | none => exact ih fun y hy => hp y (List.mem_cons_of_mem _ hy)

namespace Beside

theorem eq_fields (hb : Beside f hidden h H) (o : ObjectId) : H.fields o = h.fields o := by
  rw [Heap.fields, Heap.fields, hb.objects]

theorem eq_className (hb : Beside f hidden h H) (o : ObjectId) : H.className o = h.className o := by
  rw [Heap.className, Heap.className, hb.objects]

theorem elements (hb : Beside f hidden h H) (a : ArrayId) : H.elements a = (h.elements a).map (·.repooled f) := by
  simp only [Heap.elements, hb.arrays, Array.getD_eq_getD_getElem?, Array.getElem?_map]
  cases h.arrays[a.index]? <;> simp

theorem chain (hb : Beside f hidden h H) (s : ScopeId) : H.chain s = h.chain s :=
  chain_congr fun t _ => hb.parents t

/-- Around a plain scope all scopes are plain. The induction follows the chain. -/
theorem of_mem_chain (hb : Beside f hidden h H) (hs : ¬ hidden s) (ht : t ∈ h.chain s) : ¬ hidden t := by
  obtain ⟨i⟩ := s
  simp only [Heap.chain] at ht
  induction i using Nat.strongRecOn with
  | ind i ih =>
    rw [chainFrom_eq] at ht
    cases hp : h.parent? ⟨i⟩ with
    | none =>
      rw [hp] at ht
      rw [List.mem_singleton.1 ht]
      exact hs
    | some p =>
      rw [hp] at ht
      simp only at ht
      split at ht
      · rename_i hlt
        rcases List.mem_cons.1 ht with rfl | ht
        · exact hs
        · exact ih p.index hlt (hb.parent _ p hs hp).1 ht
      · rw [List.mem_singleton.1 ht]
        exact hs

theorem getLocal? (hb : Beside f hidden h H) (hs : ¬ hidden s) (name : String) :
    H.getLocal? s name = (h.getLocal? s name).map (·.repooled f) := by
  rw [Heap.getLocal?, hb.plain s hs, Scope.get?_repooled]
  rfl

theorem defines (hb : Beside f hidden h H) (hs : ¬ hidden s) (name : String) :
    (H.scope s).defines name = (h.scope s).defines name := by
  rw [hb.plain s hs, Scope.defines_repooled]

theorem resolve? (hb : Beside f hidden h H) (hs : ¬ hidden s) (name : String) :
    H.resolve? s name = (h.resolve? s name).map (·.repooled f) := by
  rw [Heap.resolve?, Heap.resolve?, hb.chain]
  have hline : ∀ t ∈ h.chain s, H.getLocal? t name = (h.getLocal? t name).map (·.repooled f) := fun t ht =>
    hb.getLocal? (hb.of_mem_chain hs ht) name
  exact findSome?_mapped hline

theorem definer? (hb : Beside f hidden h H) {line : List ScopeId} (hline : ∀ t ∈ line, ¬ hidden t) (name : String) :
    H.definer? line name = h.definer? line name :=
  List.find?_congr fun t ht => hb.defines (hline t ht) name

theorem slot (hb : Beside f hidden h H) (hs : ¬ hidden s) (name : String) : H.slot s name = h.slot s name := by
  rw [Heap.slot, Heap.slot, hb.chain, hb.definer? fun t ht => hb.of_mem_chain hs ht]

theorem upToFields (hb : Beside f hidden h H) {line : List ScopeId} (hline : ∀ t ∈ line, ¬ hidden t) :
    H.upToFields line = h.upToFields line := by
  induction line with
  | nil => rfl
  | cons t rest ih =>
    have hbound : (H.scope t).isBound = (h.scope t).isBound := by
      rw [hb.plain t (hline t List.mem_cons_self), Scope.isBound_repooled]
    simp only [Heap.upToFields, hbound, ih fun u hu => hline u (List.mem_cons_of_mem _ hu)]

theorem mem_upToFields {line : List ScopeId} (ht : t ∈ h.upToFields line) : t ∈ line := by
  induction line with
  | nil => exact ht
  | cons u rest ih =>
    rw [Heap.upToFields] at ht
    split at ht
    · exact List.mem_cons.2 (.inl (List.mem_singleton.1 ht))
    · exact List.mem_cons.2 ((List.mem_cons.1 ht).imp_right ih)

/-- A field is written in the same scope, which is not hidden. -/
theorem fieldSlot (hb : Beside f hidden h H) (hs : ¬ hidden s) (name : String) :
    H.fieldSlot s name = h.fieldSlot s name ∧ ¬ hidden (h.fieldSlot s name) := by
  have hline : ∀ t ∈ h.chain s, ¬ hidden t := fun t ht => hb.of_mem_chain hs ht
  have hupTo : ∀ t ∈ h.upToFields (h.chain s), ¬ hidden t := fun t ht => hline t (mem_upToFields ht)
  refine ⟨?_, ?_⟩
  · rw [Heap.fieldSlot, Heap.fieldSlot, hb.chain, hb.upToFields hline, hb.definer? hupTo]
  · rw [Heap.fieldSlot]
    cases hd : h.definer? (h.upToFields (h.chain s)) name with
    | none => exact hs
    | some t => exact hupTo t (List.mem_of_find?_eq_some hd)

end Beside

/-! ### Changes -/

/-- What becomes of two heaps. The hidden scopes stay as they are. -/
structure InStep (f : Nat → Nat) (hidden : ScopeId → Prop) (h H h' H' : Heap) : Prop where
  beside : Beside f hidden h' H'
  size : h.scopes.size ≤ h'.scopes.size
  kept : ∀ s, hidden s → h'.scope s = h.scope s ∧ H'.scope s = H.scope s

namespace InStep

theorem refl (hb : Beside f hidden h H) : InStep f hidden h H h H := ⟨hb, Nat.le_refl _, fun _ _ => ⟨rfl, rfl⟩⟩

theorem trans (hi : InStep f hidden h H h' H') (hi' : InStep f hidden h' H' h'' H'') : InStep f hidden h H h'' H'' :=
  ⟨hi'.beside, Nat.le_trans hi.size hi'.size, fun s hs =>
    ⟨(hi'.kept s hs).1.trans (hi.kept s hs).1, (hi'.kept s hs).2.trans (hi.kept s hs).2⟩⟩

end InStep

namespace Beside

/-- Arrays, cells and stamps change, scopes and objects do not. -/
theorem aside (hb : Beside f hidden h H) (hscopes : h'.scopes = h.scopes) (hscopes' : H'.scopes = H.scopes)
    (hobjects : h'.objects = h.objects) (hobjects' : H'.objects = H.objects)
    (harrays : H'.arrays = h'.arrays.map (·.map (·.repooled f))) (hcells : H'.cells = h'.cells.map (·.repooled f))
    (hstamps : H'.stamps = h'.stamps) : InStep f hidden h H h' H' := by
  have hscope : h'.scope = h.scope := by
    funext s
    rw [Heap.scope, Heap.scope, hscopes]
  have hscope' : H'.scope = H.scope := by
    funext s
    rw [Heap.scope, Heap.scope, hscopes']
  have hparent : h'.parent? = h.parent? := by
    funext s
    rw [Heap.parent?, Heap.parent?, hscope]
  have hparent' : H'.parent? = H.parent? := by
    funext s
    rw [Heap.parent?, Heap.parent?, hscope']
  have hfields : h'.fields = h.fields := by
    funext o
    rw [Heap.fields, Heap.fields, hobjects]
  refine ⟨⟨harrays, ?_, hcells, hstamps, ?_, ?_, ?_, ?_, ?_, ?_⟩, Nat.le_of_eq (by rw [hscopes]), fun s _ => ?_⟩
  · rw [hobjects, hobjects', hb.objects]
  · rw [hscopes, hscopes', hb.size]
  · rw [hscope, hscope']
    exact hb.plain
  · rw [hparent, hparent']
    exact hb.parents
  · rw [hscopes]
    exact hb.made
  · rw [hparent, hscopes]
    exact hb.parent
  · rw [hfields, hscopes]
    exact hb.fields
  · rw [hscope, hscope']
    exact ⟨rfl, rfl⟩

theorem newArray (hb : Beside f hidden h H) (items : Array Value) :
    (H.newArray (items.map (·.repooled f))).1 = (h.newArray items).1 ∧
      InStep f hidden h H (h.newArray items).2 (H.newArray (items.map (·.repooled f))).2 := by
  refine ⟨?_, hb.aside rfl rfl rfl rfl ?_ hb.cells hb.stamps⟩
  · simp [Heap.newArray, hb.arrays]
  · simp [Heap.newArray, hb.arrays]

theorem modifyArray (hb : Beside f hidden h H) (a : ArrayId) {p p' : Array Value → Array Value}
    (hp : ∀ items, p' (items.map (·.repooled f)) = (p items).map (·.repooled f)) :
    InStep f hidden h H (h.modifyArray a p) (H.modifyArray a p') := by
  refine hb.aside rfl rfl rfl rfl ?_ hb.cells hb.stamps
  simp only [Heap.modifyArray, hb.arrays]
  apply Array.ext_getElem?
  intro i
  simp only [Array.getElem?_modify, Array.getElem?_map]
  split
  · cases h.arrays[i]? <;> simp [hp]
  · rfl

theorem newError (hb : Beside f hidden h H) (message : String) :
    (H.newError message).1 = (h.newError message).1 ∧
      InStep f hidden h H (h.newError message).2 (H.newError message).2 := by
  refine ⟨?_, hb.aside rfl rfl rfl rfl hb.arrays hb.cells ?_⟩
  · simp [Heap.newError, freshIdentity, hb.stamps]
  · simp [Heap.newError, freshIdentity, hb.stamps]

theorem define (hb : Beside f hidden h H) (hs : ¬ hidden s) (name : String) (v : Value) :
    InStep f hidden h H (h.define s name v) (H.define s name (v.repooled f)) := by
  have hsize : (h.define s name v).scopes.size = h.scopes.size := size_define h s name v
  refine ⟨⟨hb.arrays, hb.objects, hb.cells, hb.stamps, ?_, fun t ht => ?_, fun t => ?_, ?_, fun t u ht hu => ?_, ?_⟩,
    Nat.le_of_eq hsize.symm, fun t ht => ?_⟩
  · rw [hsize, size_define, hb.size]
  · rw [scope_define_eq, scope_define_eq h, hb.size]
    split
    · rw [hb.plain s hs, Scope.define_repooled]
    · exact hb.plain t ht
  · rw [parent_define, parent_define, hb.parents]
  · rw [hsize]
    exact hb.made
  · rw [parent_define] at hu
    rw [hsize]
    exact hb.parent t u ht hu
  · rw [hsize]
    exact hb.fields
  · have hne : t ≠ s := fun he => hs (he ▸ ht)
    rw [scope_define_eq, scope_define_eq H, if_neg fun he => hne he.1, if_neg fun he => hne he.1]
    exact ⟨rfl, rfl⟩

theorem defineAll (hb : Beside f hidden h H) (hs : ¬ hidden s) (vars : List (String × Value)) :
    InStep f hidden h H (h.defineAll s vars) (H.defineAll s (vars.map (Prod.map id (·.repooled f)))) := by
  induction vars generalizing h H with
  | nil => exact .refl hb
  | cons x rest ih =>
    have hdefine := hb.define hs x.1 x.2
    exact hdefine.trans (ih hdefine.beside)

/-- A new scope is not hidden. -/
theorem newScope (hb : Beside f hidden h H) (new : Scope) (hvars : new.vars = [])
    (hparent : ∀ t, new.parent = some t → ¬ hidden t ∧ t.index < h.scopes.size) :
    (H.newScope new).1 = (h.newScope new).1 ∧ ¬ hidden (h.newScope new).1 ∧
      InStep f hidden h H (h.newScope new).2 (H.newScope new).2 := by
  have hsize : (h.newScope new).2.scopes.size = h.scopes.size + 1 := Array.size_push ..
  have hsize' : (H.newScope new).2.scopes.size = H.scopes.size + 1 := Array.size_push ..
  have hnew : new.repooled f = new := by
    obtain ⟨vars, parent, owner⟩ := new
    obtain rfl : vars = [] := hvars
    rfl
  have hscope : ∀ t, (H.newScope new).2.scope t = if t.index = h.scopes.size then new else H.scope t := fun t => by
    rw [scope_newScope, hb.size]
  refine ⟨?_, fun hhidden => Nat.lt_irrefl _ (hb.made _ hhidden), ⟨hb.arrays, hb.objects, hb.cells, hb.stamps, ?_,
    fun t ht => ?_, fun t => ?_, fun t ht => ?_, fun t u ht hu => ?_, fun o => ?_⟩, ?_, fun t ht => ?_⟩
  · show (⟨H.scopes.size⟩ : ScopeId) = ⟨h.scopes.size⟩
    rw [hb.size]
  · rw [hsize, hsize', hb.size]
  · rw [hscope, scope_newScope h]
    split
    · exact hnew.symm
    · exact hb.plain t ht
  · have hold : (H.scope t).parent = (h.scope t).parent := hb.parents t
    rw [parent?, parent?, hscope, scope_newScope h]
    split
    · rfl
    · exact hold
  · rw [hsize]
    exact Nat.lt_succ_of_lt (hb.made t ht)
  · rw [hsize]
    rw [parent?, scope_newScope] at hu
    split at hu
    · exact ⟨(hparent u hu).1, Nat.lt_succ_of_lt (hparent u hu).2⟩
    · exact ⟨(hb.parent t u ht hu).1, Nat.lt_succ_of_lt (hb.parent t u ht hu).2⟩
  · rw [hsize]
    exact ⟨(hb.fields o).1, Nat.lt_succ_of_lt (hb.fields o).2⟩
  · rw [hsize]
    exact Nat.le_succ _
  · have hne : t.index ≠ h.scopes.size := Nat.ne_of_lt (hb.made t ht)
    rw [hscope, scope_newScope h, if_neg hne, if_neg hne]
    exact ⟨rfl, rfl⟩

theorem newChild (hb : Beside f hidden h H) (hs : ¬ hidden s) (hmade : s.index < h.scopes.size) :
    (H.newChild s).1 = (h.newChild s).1 ∧ ¬ hidden (h.newChild s).1 ∧
      InStep f hidden h H (h.newChild s).2 (H.newChild s).2 :=
  hb.newScope _ rfl fun _ ht => by
    cases ht
    exact ⟨hs, hmade⟩

theorem newRoot (hb : Beside f hidden h H) : H.newRoot.1 = h.newRoot.1 ∧ ¬ hidden h.newRoot.1 ∧
    InStep f hidden h H h.newRoot.2 H.newRoot.2 :=
  hb.newScope _ rfl nofun

theorem newObject (hb : Beside f hidden h H) (className : String) (hs : ¬ hidden s) (hmade : s.index < h.scopes.size) :
    (H.newObject className s).1 = (h.newObject className s).1 ∧
      InStep f hidden h H (h.newObject className s).2 (H.newObject className s).2 := by
  obtain ⟨hfst, hplain, hnew⟩ := hb.newScope { parent := some s, owner := some ⟨h.objects.size⟩ } rfl
    fun t ht => by
      cases ht
      exact ⟨hs, hmade⟩
  have hobjects : H.newObject className s = (⟨h.objects.size⟩,
      { (H.newScope { parent := some s, owner := some ⟨h.objects.size⟩ }).2 with
        objects := h.objects.push ⟨className, (h.newScope { parent := some s, owner := some ⟨h.objects.size⟩ }).1⟩ }) := by
    rw [← hfst]
    simp only [Heap.newObject, Heap.newScope, hb.objects]
  have hscope : ∀ t, hidden t → (H.newObject className s).2.scope t = H.scope t := fun t ht => by
    rw [hobjects]
    exact (hnew.kept t ht).2
  have hsize : (h.newObject className s).2.scopes.size = h.scopes.size + 1 := Array.size_push ..
  refine ⟨by rw [hobjects]; rfl, ⟨?_, hnew.size, fun t ht => ⟨(hnew.kept t ht).1, hscope t ht⟩⟩⟩
  rw [hobjects]
  refine ⟨hnew.beside.arrays, rfl, hnew.beside.cells, hnew.beside.stamps, hnew.beside.size, hnew.beside.plain,
    hnew.beside.parents, hnew.beside.made, hnew.beside.parent, fun o => ?_⟩
  rw [fields_newObject, hsize]
  split
  · exact ⟨hplain, Nat.lt_succ_self _⟩
  · exact ⟨(hb.fields o).1, Nat.lt_succ_of_lt (hb.fields o).2⟩

/-! ### Texts -/

theorem plainText (hb : Beside f hidden h H) (v : Value) : H.plainText (v.repooled f) = h.plainText v := by
  cases v <;> simp [Heap.plainText, hb.eq_className]

theorem plainInspect (hb : Beside f hidden h H) (v : Value) : H.plainInspect (v.repooled f) = h.plainInspect v := by
  cases v <;> simp [Heap.plainInspect, Heap.plainText, hb.eq_className]

theorem arrays_get (hb : Beside f hidden h H) {i : Nat} (hi : i < h.arrays.size) (hi' : i < H.arrays.size) :
    H.arrays[i] = h.arrays[i].map (·.repooled f) := by
  simp only [hb.arrays, Array.getElem_map]

theorem size_arrays (hb : Beside f hidden h H) : H.arrays.size = h.arrays.size := by
  rw [hb.arrays, Array.size_map]

/-- The induction follows the path, as for heaps with the same arrays. -/
theorem joinFrom (hb : Beside f hidden h H) (path : List ArrayId) (separator : String) (a : ArrayId) :
    H.joinFrom path separator a = h.joinFrom path separator a := by
  generalize hn : (h.unopened path).length = n
  induction n using Nat.strongRecOn generalizing path separator a with
  | ind n ih =>
    rw [Heap.joinFrom, Heap.joinFrom]
    by_cases hpath : path.contains a = true
    · rw [dif_pos hpath, dif_pos hpath]
    · rw [dif_neg hpath, dif_neg hpath]
      by_cases hsize : a.index < h.arrays.size
      · have hlt := h.unopened_cons_lt (by simpa using hpath) hsize
        have hsize' : a.index < H.arrays.size := hb.size_arrays ▸ hsize
        rw [dif_pos hsize, dif_pos hsize', hb.arrays_get hsize hsize', Array.toList_map, List.map_map]
        refine congrArg (separator.intercalate ·) (List.map_congr_left fun v _ => ?_)
        have hplain := hb.plainText v
        cases v with
        | array inner => exact ih _ (hn ▸ hlt) (a :: path) "," inner rfl
        | undefined | null => rfl
        | _ => exact hplain
      · rw [dif_neg hsize, dif_neg (hb.size_arrays ▸ hsize)]

theorem inspectFrom (hb : Beside f hidden h H) (path : List ArrayId) (a : ArrayId) :
    H.inspectFrom path a = h.inspectFrom path a := by
  generalize hn : (h.unopened path).length = n
  induction n using Nat.strongRecOn generalizing path a with
  | ind n ih =>
    rw [Heap.inspectFrom, Heap.inspectFrom]
    by_cases hpath : path.contains a = true
    · rw [dif_pos hpath, dif_pos hpath]
    · rw [dif_neg hpath, dif_neg hpath]
      by_cases hsize : a.index < h.arrays.size
      · have hlt := h.unopened_cons_lt (by simpa using hpath) hsize
        have hsize' : a.index < H.arrays.size := hb.size_arrays ▸ hsize
        rw [dif_pos hsize, dif_pos hsize', hb.arrays_get hsize hsize', Array.toList_map, List.map_map]
        refine congrArg (fun items => "[" ++ ", ".intercalate items ++ "]") (List.map_congr_left fun v _ => ?_)
        have hplain := hb.plainInspect v
        cases v with
        | array inner => exact ih _ (hn ▸ hlt) (a :: path) inner rfl
        | _ => exact hplain
      · rw [dif_neg hsize, dif_neg (hb.size_arrays ▸ hsize)]

theorem text (hb : Beside f hidden h H) (v : Value) : (v.repooled f).text H = v.text h := by
  have hplain := hb.plainText v
  cases v with
  | array a => exact hb.joinFrom [] "," a
  | _ => exact hplain

theorem inspect (hb : Beside f hidden h H) (v : Value) : (v.repooled f).inspect H = v.inspect h := by
  have hplain := hb.plainInspect v
  cases v with
  | array a => exact hb.inspectFrom [] a
  | _ => exact hplain

theorem message (hb : Beside f hidden h H) (v : Value) : (v.repooled f).message H = v.message h := by
  have htext := hb.text v
  cases v with
  | error => rfl
  | _ => exact htext

theorem causeMessage (hb : Beside f hidden h H) (c : Cause) : (c.repooled f).message H = c.message h := by
  cases c with
  | thrown v => exact congrArg ("thrown: " ++ ·) (hb.text v)
  | _ => rfl

end Beside

end Heap

/-! ### Operators -/

/-- Operators give the same, since what they give is no pattern. -/
theorem Heap.Beside.apply {hidden : ScopeId → Prop} {h H : Heap} (hb : Heap.Beside f hidden h H) (hf : f.Injective)
    (op : BinaryOp) (v w : Value) : op.apply H (v.repooled f) (w.repooled f) = op.apply h v w := by
  generalize hr : op.apply h v w = r
  unfold BinaryOp.apply at hr
  split at hr
  · rw [← hr, BinaryOp.apply, Value.same_repooled hf]
  · rw [← hr, BinaryOp.apply, Value.same_repooled hf]
  · cases op <;> exact hr
  · have htext := hb.text w
    rw [← hr, ← htext]
    cases w <;> rfl
  · rename_i hnot
    have htext := hb.text v
    rw [← hr, ← htext]
    cases v with
    | string s => exact (hnot s rfl).elim
    | _ => rfl
  · rename_i heq hne hleft hright hnumbers
    unfold BinaryOp.apply
    split
    · exact (heq rfl).elim
    · exact (hne rfl).elim
    · exact (hnumbers _ _ (Value.repooled_eq_number ‹v.repooled f = _›)
        (Value.repooled_eq_number ‹w.repooled f = _›)).elim
    · exact (hleft _ rfl (Value.repooled_eq_string ‹v.repooled f = _›)).elim
    · exact (hright _ rfl (Value.repooled_eq_string ‹w.repooled f = _›)).elim
    · rw [← hr, Value.kind_repooled, Value.kind_repooled]

end ScriptMachine
