import ScriptMachine.Proofs.Machine.Regime
import ScriptMachine.Proofs.Value.Growth

/-!
# Relocation — a heap laid above another

Places are handed out in order, so whatever is made after some moment lies above everything that was
made before. `Heap.above h b` is the heap `h` with all places of `b` below its own, and `Value.above v b`
is a value of `h` as it reads there. Nothing that a script or a diagnostic can ask tells a heap from the
same heap laid above another. The one exception is an object that was never made, so heaps are taken to be
`Closed`: they lead to objects of their own only.
-/

namespace ScriptMachine

/-! ### Places and values -/

/-- The place of an array above another heap. -/
def ArrayId.above (a : ArrayId) (b : Heap) : ArrayId := ⟨b.arrays.size + a.index⟩

/-- The place of an object above another heap. -/
def ObjectId.above (o : ObjectId) (b : Heap) : ObjectId := ⟨b.objects.size + o.index⟩

/-- The place of a scope above another heap. -/
def ScopeId.above (s : ScopeId) (b : Heap) : ScopeId := ⟨b.scopes.size + s.index⟩

/-- An identity above another heap: only those made while running differ. -/
def Identity.above : Identity → Heap → Identity
  | .made stamp, b => .made (b.stamps + stamp)
  | .declared index, _ => .declared index
  | .pooled index, _ => .pooled index

/-- A value above another heap. -/
def Value.above : Value → Heap → Value
  | .array a, b => .array (a.above b)
  | .object o, b => .object (o.above b)
  | .function id f, b => .function (id.above b) f
  | .error id message, b => .error (id.above b) message
  | .regex id pattern, b => .regex (id.above b) pattern
  | .undefined, _ => .undefined
  | .null, _ => .null
  | .bool c, _ => .bool c
  | .number bits, _ => .number bits
  | .string s, _ => .string s
  | .native handle, _ => .native handle

/-- A scope above another heap. -/
def Scope.above (s : Scope) (b : Heap) : Scope where
  vars := s.vars.map (Prod.map id (·.above b))
  parent := s.parent.map (·.above b)
  owner := s.owner.map (·.above b)

/-- An object above another heap. -/
def ObjectCell.above (c : ObjectCell) (b : Heap) : ObjectCell := ⟨c.className, c.fields.above b⟩

/-- A heap laid above another. The cells are those of the lower heap: what host objects remember is not
the machine's. -/
def Heap.above (h b : Heap) : Heap where
  arrays := b.arrays ++ h.arrays.map (·.map (·.above b))
  objects := b.objects ++ h.objects.map (·.above b)
  scopes := b.scopes ++ h.scopes.map (·.above b)
  cells := b.cells
  stamps := b.stamps + h.stamps

/-- A cause above another heap. -/
def Cause.above : Cause → Heap → Cause
  | .thrown v, b => .thrown (v.above b)
  | c, _ => c

/-- Whether a value is the same above every heap: it refers to nothing that was made while running. -/
def Value.isPortable : Value → Bool
  | .array _ | .object _ => false
  | .function (.made _) _ | .error (.made _) _ | .regex (.made _) _ => false
  | _ => true

variable {h b : Heap} {v w : Value} {n n' : Nat}

theorem ArrayId.above_inj {a a' : ArrayId} : a.above b = a'.above b ↔ a = a' := by
  cases a
  cases a'
  simp [ArrayId.above]

theorem ObjectId.above_inj {o o' : ObjectId} : o.above b = o'.above b ↔ o = o' := by
  cases o
  cases o'
  simp [ObjectId.above]

theorem Identity.above_inj {i j : Identity} : i.above b = j.above b ↔ i = j := by
  cases i <;> cases j <;> simp [Identity.above]

namespace Value

@[simp] theorem above_undefined : undefined.above b = .undefined := rfl

@[simp] theorem above_null : null.above b = .null := rfl

@[simp] theorem above_bool (c : Bool) : (bool c).above b = .bool c := rfl

@[simp] theorem above_number (bits : UInt64) : (number bits).above b = .number bits := rfl

@[simp] theorem above_string (s : String) : (string s).above b = .string s := rfl

@[simp] theorem above_array (a : ArrayId) : (array a).above b = .array (a.above b) := rfl

@[simp] theorem above_object (o : ObjectId) : (object o).above b = .object (o.above b) := rfl

@[simp] theorem above_function (id : Identity) (f : ScriptFunction) :
    (function id f).above b = .function (id.above b) f := rfl

@[simp] theorem above_error (id : Identity) (message : String) :
    (error id message).above b = .error (id.above b) message := rfl

@[simp] theorem above_regex (id : Identity) (pattern : Pattern) :
    (regex id pattern).above b = .regex (id.above b) pattern := rfl

@[simp] theorem above_native (handle : NativeHandle) : (native handle).above b = .native handle := rfl

theorem above_of_portable (hv : v.isPortable = true) : v.above b = v := by
  cases v with
  | array | object => cases hv
  | function id _ | error id _ | regex id _ =>
    cases id with
    | made => cases hv
    | _ => rfl
  | _ => rfl

@[simp] theorem isPortable_above (v : Value) (b : Heap) : (v.above b).isPortable = v.isPortable := by
  cases v with
  | function id _ | error id _ | regex id _ => cases id <;> rfl
  | _ => rfl

@[simp] theorem kind_above (v : Value) (b : Heap) : (v.above b).kind = v.kind := by
  cases v <;> rfl

@[simp] theorem isTruthy_above (v : Value) (b : Heap) : (v.above b).isTruthy = v.isTruthy := by
  cases v <;> rfl

@[simp] theorem toPosition?_above (v : Value) (b : Heap) : (v.above b).toPosition? = v.toPosition? := by
  cases v <;> rfl

@[simp] theorem readPosition?_above (v : Value) (b : Heap) : (v.above b).readPosition? = v.readPosition? := by
  cases v <;> rfl

/-- Identities stay apart. -/
@[simp] theorem same_above (v w : Value) (b : Heap) : (v.above b).same (w.above b) = v.same w := by
  have hbeq : ∀ {α : Type} [DecidableEq α] {x y x' y' : α}, (x' = y' ↔ x = y) → (x' == y') = (x == y) :=
    fun hiff => decide_eq_decide.2 hiff
  cases v <;> cases w <;> first
    | rfl
    | exact hbeq ArrayId.above_inj
    | exact hbeq ObjectId.above_inj
    | exact hbeq Identity.above_inj

/-! ### Objects that were made -/

/-- A value leads to no object from the `n`-th on. -/
def Within (v : Value) (n : Nat) : Prop := ∀ o, v = .object o → o.index < n

theorem Within.mono (hv : v.Within n) (hn : n ≤ n') : v.Within n' := fun o ho =>
  Nat.lt_of_lt_of_le (hv o ho) hn

theorem within_of (hv : ∀ o, v ≠ .object o) : v.Within n := fun o ho => absurd ho (hv o)

theorem within_of_portable (hv : v.isPortable = true) : v.Within n := by
  rintro o rfl
  cases hv

end Value

/-- A cause carries no object from the `n`-th on. -/
def Cause.Within (c : Cause) (n : Nat) : Prop := ∀ v, c = .thrown v → v.Within n

theorem Cause.within_of {c : Cause} (hc : ∀ v, c ≠ .thrown v) : c.Within n := fun v hv => absurd hv (hc v)

theorem Cause.above_of {c : Cause} (hc : ∀ v, c ≠ .thrown v) : c.above b = c := by
  cases c with
  | thrown v => exact absurd rfl (hc v)
  | _ => rfl

@[simp] theorem Cause.isCatchable_above (c : Cause) (b : Heap) : (c.above b).isCatchable = c.isCatchable := by
  cases c <;> rfl

/-- A heap leads to no object from the `n`-th on. -/
structure Heap.Within (h : Heap) (n : Nat) : Prop where
  elements : ∀ a, ∀ v ∈ h.elements a, v.Within n
  vars : ∀ s, ∀ x ∈ (h.scope s).vars, x.2.Within n
  owner : ∀ s o, (h.scope s).owner = some o → o.index < n

/-- A heap leads to objects of its own only. -/
def Heap.Closed (h : Heap) : Prop := h.Within h.objects.size

/-! ### One scope -/

theorem lookup_map (f : Value → Value) (vars : List (String × Value)) (name : String) :
    (vars.map (Prod.map id f)).lookup name = (vars.lookup name).map f := by
  induction vars with
  | nil => rfl
  | cons x rest ih =>
    obtain ⟨n, w⟩ := x
    simp only [List.map_cons, Prod.map, id, List.lookup_cons, ih]
    split <;> rfl

theorem insertBinding_map (f : Value → Value) (name : String) (v : Value) (vars : List (String × Value)) :
    insertBinding name (f v) (vars.map (Prod.map id f)) = (insertBinding name v vars).map (Prod.map id f) := by
  induction vars with
  | nil => rfl
  | cons x rest ih =>
    simp only [List.map_cons, insertBinding, Prod.map_fst, id, ih]
    split <;> rfl

namespace Scope

@[simp] theorem isBound_above (s : Scope) (b : Heap) : (s.above b).isBound = s.isBound := by
  simp [isBound, above]

@[simp] theorem defines_above (s : Scope) (b : Heap) (name : String) :
    (s.above b).defines name = s.defines name := by
  simp [defines, above, lookup_map]

theorem get?_above (s : Scope) (b : Heap) (name : String) :
    (s.above b).get? name = (s.get? name).map (·.above b) := by
  simp only [get?, above, lookup_map]
  cases s.vars.lookup name with
  | some v => rfl
  | none =>
    simp only [Option.map_none]
    split
    · cases s.owner <;> rfl
    · rfl

theorem define_above (s : Scope) (b : Heap) (name : String) (v : Value) :
    (s.above b).define name (v.above b) = (s.define name v).above b := by
  simp only [define, above, insertBinding_map (·.above b)]

end Scope

namespace Heap

/-! ### What a heap holds -/

theorem getElem?_append_add {α : Type} (xs ys : Array α) (i : Nat) : (xs ++ ys)[xs.size + i]? = ys[i]? := by
  rw [Array.getElem?_append_right (Nat.le_add_right _ _), Nat.add_sub_cancel_left]

@[simp] theorem scope_above (h b : Heap) (s : ScopeId) : (h.above b).scope (s.above b) = (h.scope s).above b := by
  simp only [scope, above, ScopeId.above, Array.getD_eq_getD_getElem?, getElem?_append_add, Array.getElem?_map]
  cases h.scopes[s.index]? <;> rfl

@[simp] theorem elements_above (h b : Heap) (a : ArrayId) :
    (h.above b).elements (a.above b) = (h.elements a).map (·.above b) := by
  simp only [elements, above, ArrayId.above, Array.getD_eq_getD_getElem?, getElem?_append_add, Array.getElem?_map]
  cases h.arrays[a.index]? <;> simp

@[simp] theorem className_above (h b : Heap) (o : ObjectId) :
    (h.above b).className (o.above b) = h.className o := by
  simp only [className, above, ObjectId.above, getElem?_append_add, Array.getElem?_map]
  cases h.objects[o.index]? <;> rfl

/-- The fields of an object that was made. -/
theorem fields_above {o : ObjectId} (ho : o.index < h.objects.size) (b : Heap) :
    (h.above b).fields (o.above b) = (h.fields o).above b := by
  simp only [fields, above, ObjectId.above, getElem?_append_add, Array.getElem?_map]
  rw [Array.getElem?_eq_getElem ho]
  rfl

@[simp] theorem parent?_above (h b : Heap) (s : ScopeId) :
    (h.above b).parent? (s.above b) = (h.parent? s).map (·.above b) := by
  rw [parent?, parent?, scope_above]
  rfl

theorem getLocal?_above (h b : Heap) (s : ScopeId) (name : String) :
    (h.above b).getLocal? (s.above b) name = (h.getLocal? s name).map (·.above b) := by
  rw [getLocal?, getLocal?, scope_above, Scope.get?_above]

/-! ### Along the scopes -/

/-- The induction follows the chain, which goes down on both sides in step. -/
theorem chain_above (h b : Heap) (s : ScopeId) : (h.above b).chain (s.above b) = (h.chain s).map (·.above b) := by
  obtain ⟨i⟩ := s
  simp only [chain]
  induction i using Nat.strongRecOn with
  | ind i ih =>
    have hparent := parent?_above h b ⟨i⟩
    simp only [ScopeId.above] at hparent ih ⊢
    rw [chainFrom_eq, chainFrom_eq h, hparent]
    cases h.parent? ⟨i⟩ with
    | none => rfl
    | some p =>
      simp only [Option.map_some, List.map_cons, Nat.add_lt_add_iff_left]
      split
      · rename_i hp
        rw [ih p.index hp]
      · rfl

theorem resolve?_above (h b : Heap) (s : ScopeId) (name : String) :
    (h.above b).resolve? (s.above b) name = (h.resolve? s name).map (·.above b) := by
  rw [resolve?, resolve?, chain_above, List.findSome?_map, List.map_findSome?]
  congr 1
  funext t
  exact getLocal?_above h b t name

theorem definer?_above (h b : Heap) (scopes : List ScopeId) (name : String) :
    (h.above b).definer? (scopes.map (·.above b)) name = (h.definer? scopes name).map (·.above b) := by
  rw [definer?, definer?, List.find?_map]
  congr 2
  exact funext fun t => by simp

theorem slot_above (h b : Heap) (s : ScopeId) (name : String) :
    (h.above b).slot (s.above b) name = (h.slot s name).map (·.above b) := by
  simp only [slot, chain_above, definer?_above]
  cases h.definer? (h.chain s) name <;> rfl

theorem upToFields_above (h b : Heap) (scopes : List ScopeId) :
    (h.above b).upToFields (scopes.map (·.above b)) = (h.upToFields scopes).map (·.above b) := by
  induction scopes with
  | nil => rfl
  | cons s rest ih =>
    simp only [List.map_cons, upToFields, scope_above, Scope.isBound_above, ih]
    split <;> rfl

theorem fieldSlot_above (h b : Heap) (s : ScopeId) (name : String) :
    (h.above b).fieldSlot (s.above b) name = (h.fieldSlot s name).above b := by
  simp only [fieldSlot, chain_above, upToFields_above, definer?_above]
  cases h.definer? (h.upToFields (h.chain s)) name <;> rfl

/-! ### Changes -/

theorem modify_append_map {α : Type} {f g g' : α → α} (hg : ∀ x, g' (f x) = f (g x)) (xs ys : Array α) (i : Nat) :
    (xs ++ ys.map f).modify (xs.size + i) g' = xs ++ (ys.modify i g).map f := by
  apply Array.ext_getElem?
  intro j
  rw [Array.getElem?_modify, Array.getElem?_append, Array.getElem?_append, Array.getElem?_map, Array.getElem?_map,
    Array.getElem?_modify]
  by_cases hj : j < xs.size
  · rw [if_neg (by omega), if_pos hj, if_pos hj]
  · rw [if_neg hj, if_neg hj]
    by_cases hi : xs.size + i = j
    · rw [if_pos hi, if_pos (by omega)]
      cases ys[j - xs.size]? with
      | none => rfl
      | some y => simp [hg]
    · rw [if_neg hi, if_neg (by omega)]

theorem define_above (h b : Heap) (s : ScopeId) (name : String) (v : Value) :
    (h.above b).define (s.above b) name (v.above b) = (h.define s name v).above b := by
  simp only [define, above, ScopeId.above]
  rw [modify_append_map fun scope => Scope.define_above scope b name v]

theorem defineAll_above (h b : Heap) (s : ScopeId) (vars : List (String × Value)) :
    (h.above b).defineAll (s.above b) (vars.map (Prod.map id (·.above b))) = (h.defineAll s vars).above b := by
  induction vars generalizing h with
  | nil => rfl
  | cons x rest ih =>
    simp only [List.map_cons, Prod.map, id, defineAll, define_above, ih]

theorem modifyArray_above {f f' : Array Value → Array Value} (h b : Heap) (a : ArrayId)
    (hf : ∀ items, f' (items.map (·.above b)) = (f items).map (·.above b)) :
    (h.above b).modifyArray (a.above b) f' = (h.modifyArray a f).above b := by
  simp only [modifyArray, above, ArrayId.above]
  rw [modify_append_map hf]

theorem appendElements_above (h b : Heap) (a : ArrayId) (items : List Value) :
    (h.above b).appendElements (a.above b) (items.map (·.above b)) = (h.appendElements a items).above b := by
  refine modifyArray_above h b a fun elements => ?_
  apply Array.ext'
  simp [Array.toList_appendList]

theorem popElement_above (h b : Heap) (a : ArrayId) :
    (h.above b).popElement (a.above b) = ((h.popElement a).1.map (·.above b), (h.popElement a).2.above b) := by
  have hpop : (h.above b).modifyArray (a.above b) Array.pop = (h.modifyArray a Array.pop).above b :=
    modifyArray_above h b a fun _ => Array.map_pop.symm
  simp only [popElement, hpop, elements_above, Array.back?_map]

theorem newArray_above (h b : Heap) (items : Array Value) :
    (h.above b).newArray (items.map (·.above b)) =
      ((h.newArray items).1.above b, (h.newArray items).2.above b) := by
  simp [newArray, above, ArrayId.above]

theorem newScope_above (h b : Heap) (new : Scope) :
    (h.above b).newScope (new.above b) = ((h.newScope new).1.above b, (h.newScope new).2.above b) := by
  simp [newScope, above, ScopeId.above]

theorem newChild_above (h b : Heap) (s : ScopeId) :
    (h.above b).newChild (s.above b) = ((h.newChild s).1.above b, (h.newChild s).2.above b) :=
  newScope_above h b { parent := some s }

theorem newRoot_above (h b : Heap) : (h.above b).newRoot = (h.newRoot.1.above b, h.newRoot.2.above b) :=
  newScope_above h b {}

theorem newObject_above (h b : Heap) (className : String) (parent : ScopeId) :
    (h.above b).newObject className (parent.above b) =
      ((h.newObject className parent).1.above b, (h.newObject className parent).2.above b) := by
  simp [newObject, newScope, above, ObjectId.above, ScopeId.above, ObjectCell.above, Scope.above]

theorem newError_above (h b : Heap) (message : String) :
    (h.above b).newError message = ((h.newError message).1.above b, (h.newError message).2.above b) := rfl

/-! ### Closed heaps stay closed -/

theorem Within.mono (hh : h.Within n) (hn : n ≤ n') : h.Within n' :=
  ⟨fun a v hv => (hh.elements a v hv).mono hn, fun s x hx => (hh.vars s x hx).mono hn,
    fun s o ho => Nat.lt_of_lt_of_le (hh.owner s o ho) hn⟩

theorem closed_empty : Heap.Closed {} :=
  ⟨fun a v hv => by simp [elements] at hv, fun s x hx => by simp [scope] at hx,
    fun s o ho => by simp [scope] at ho⟩

theorem Within.getLocal? (hh : h.Within n) {s : ScopeId} {name : String} (hv : h.getLocal? s name = some v) :
    v.Within n := by
  rw [Heap.getLocal?, Scope.get?] at hv
  split at hv
  · rename_i hlookup
    cases hv
    obtain ⟨before, after, hvars, -⟩ := List.lookup_eq_some_iff.1 hlookup
    exact hh.vars s (name, v) (by rw [hvars]; simp)
  · split at hv
    · obtain ⟨o, ho, rfl⟩ := Option.map_eq_some_iff.1 hv
      intro o' ho'
      cases ho'
      exact hh.owner s o ho
    · cases hv

theorem Within.resolve? (hh : h.Within n) {s : ScopeId} {name : String} (hv : h.resolve? s name = some v) :
    v.Within n := by
  obtain ⟨t, -, ht⟩ := List.exists_of_findSome?_eq_some hv
  exact hh.getLocal? ht

theorem Within.newScope (hh : h.Within n) {new : Scope} (hvars : new.vars = [])
    (howner : ∀ o, new.owner = some o → o.index < n) : (h.newScope new).2.Within n := by
  refine ⟨hh.elements, fun s x hx => ?_, fun s o ho => ?_⟩
  · rw [scope_newScope] at hx
    split at hx
    · rw [hvars] at hx
      cases hx
    · exact hh.vars s x hx
  · rw [scope_newScope] at ho
    split at ho
    · exact howner o ho
    · exact hh.owner s o ho

theorem Within.define (hh : h.Within n) (hv : v.Within n) (s : ScopeId) (name : String) :
    (h.define s name v).Within n := by
  refine ⟨hh.elements, fun t x hx => ?_, fun t o ho => hh.owner t o (by rwa [owner_define] at ho)⟩
  rw [scope_define_eq] at hx
  split at hx
  · rcases Regime.mem_insertBinding hx with rfl | hx
    · exact hv
    · exact hh.vars s x hx
  · exact hh.vars t x hx

theorem Within.defineAll {vars : List (String × Value)} (hh : h.Within n) (hv : ∀ x ∈ vars, x.2.Within n)
    (s : ScopeId) : (h.defineAll s vars).Within n := by
  induction vars generalizing h with
  | nil => exact hh
  | cons x rest ih =>
    exact ih (hh.define (hv x List.mem_cons_self) s x.1) fun y hy => hv y (List.mem_cons_of_mem _ hy)

theorem Within.newArray (hh : h.Within n) {items : Array Value} (hv : ∀ v ∈ items, v.Within n) :
    (h.newArray items).2.Within n := by
  refine ⟨fun a v hav => ?_, hh.vars, hh.owner⟩
  simp only [Heap.elements, Heap.newArray, Array.getD_eq_getD_getElem?, Array.getElem?_push] at hav
  split at hav
  · exact hv v hav
  · refine hh.elements a v ?_
    rwa [Heap.elements, Array.getD_eq_getD_getElem?]

theorem Within.modifyArray (hh : h.Within n) (a : ArrayId) {f : Array Value → Array Value}
    (hf : ∀ items, (∀ v ∈ items, v.Within n) → ∀ v ∈ f items, v.Within n) : (h.modifyArray a f).Within n := by
  refine ⟨fun c v hcv => ?_, hh.vars, hh.owner⟩
  by_cases ha : a.index < h.arrays.size
  · rw [elements_modifyArray h a c f ha] at hcv
    split at hcv
    · exact hf _ (hh.elements a) v hcv
    · exact hh.elements c v hcv
  · have hsame : (h.modifyArray a f).arrays = h.arrays := by
      simp only [Heap.modifyArray]
      apply Array.ext_getElem?
      intro i
      rw [Array.getElem?_modify]
      split
      · rename_i hi
        rw [← hi, Array.getElem?_eq_none (Nat.le_of_not_lt ha)]
        rfl
      · rfl
    refine hh.elements c v ?_
    rwa [Heap.elements, hsame] at hcv

theorem Within.appendElements (hh : h.Within n) (a : ArrayId) {items : List Value} (hv : ∀ v ∈ items, v.Within n) :
    (h.appendElements a items).Within n := by
  refine hh.modifyArray a fun elements he v hmem => ?_
  have hmem : v ∈ elements ∨ v ∈ items := by
    rw [Array.mem_def, Array.toList_appendList, List.mem_append] at hmem
    simpa using hmem
  exact hmem.elim (he v) (hv v)

theorem Within.popElement (hh : h.Within n) (a : ArrayId) : (h.popElement a).2.Within n := by
  refine hh.modifyArray a fun elements he v hmem => he v ?_
  obtain ⟨i, hi⟩ := Array.mem_iff_getElem?.1 hmem
  rw [Array.getElem?_pop] at hi
  split at hi
  · exact Array.mem_iff_getElem?.2 ⟨i, hi⟩
  · cases hi

theorem Closed.newObject (hh : h.Closed) (className : String) (parent : ScopeId) :
    (h.newObject className parent).2.Closed := by
  have hsize : (h.newObject className parent).2.objects.size = h.objects.size + 1 := by
    simp [Heap.newObject, Heap.newScope]
  have hnew : (h.newScope { parent := some parent, owner := some ⟨h.objects.size⟩ }).2.Within (h.objects.size + 1) :=
    (hh.mono (Nat.le_succ _)).newScope rfl fun o ho => by
      cases ho
      exact Nat.lt_succ_self _
  rw [Heap.Closed, hsize]
  exact ⟨hnew.elements, hnew.vars, hnew.owner⟩

end Heap

/-! ### Texts -/

namespace Heap

theorem plainText_above (h b : Heap) (v : Value) : (h.above b).plainText (v.above b) = h.plainText v := by
  cases v <;> simp [plainText]

theorem plainInspect_above (h b : Heap) (v : Value) : (h.above b).plainInspect (v.above b) = h.plainInspect v := by
  cases v <;> simp [plainInspect, plainText]

theorem contains_above (path : List ArrayId) (a : ArrayId) (b : Heap) :
    (path.map (·.above b)).contains (a.above b) = path.contains a := by
  induction path with
  | nil => rfl
  | cons c rest ih => simp only [List.map_cons, List.contains_cons, ih, beq_eq_decide, ArrayId.above_inj]

theorem arrays_above {a : ArrayId} (ha : a.index < h.arrays.size) (hb : (a.above b).index < (h.above b).arrays.size) :
    (h.above b).arrays[(a.above b).index] = h.arrays[a.index].map (·.above b) := by
  apply Option.some.inj
  rw [← Array.getElem?_eq_getElem hb]
  simp only [above, ArrayId.above, getElem?_append_add, Array.getElem?_map, Array.getElem?_eq_getElem ha]
  rfl

theorem lt_arrays_above (h b : Heap) (a : ArrayId) :
    (a.above b).index < (h.above b).arrays.size ↔ a.index < h.arrays.size := by
  simp [above, ArrayId.above]

/-- The induction follows the path, as for heaps with the same arrays. -/
theorem joinFrom_above (h b : Heap) (path : List ArrayId) (separator : String) (a : ArrayId) :
    (h.above b).joinFrom (path.map (·.above b)) separator (a.above b) = h.joinFrom path separator a := by
  generalize hn : (h.unopened path).length = n
  induction n using Nat.strongRecOn generalizing path separator a with
  | ind n ih =>
    rw [joinFrom, joinFrom, contains_above]
    by_cases hpath : path.contains a = true
    · rw [dif_pos hpath, dif_pos hpath]
    · rw [dif_neg hpath, dif_neg hpath]
      by_cases hsize : a.index < h.arrays.size
      · have hlt := h.unopened_cons_lt (by simpa using hpath) hsize
        have hsize' := (lt_arrays_above h b a).2 hsize
        rw [dif_pos hsize, dif_pos hsize', arrays_above hsize hsize', Array.toList_map, List.map_map]
        refine congrArg (separator.intercalate ·) (List.map_congr_left fun v _ => ?_)
        have hplain := plainText_above h b v
        cases v with
        | array inner => exact ih _ (hn ▸ hlt) (a :: path) "," inner rfl
        | undefined | null => rfl
        | _ => exact hplain
      · rw [dif_neg hsize, dif_neg (mt (lt_arrays_above h b a).1 hsize)]

theorem join_above (h b : Heap) (separator : String) (a : ArrayId) :
    (h.above b).join separator (a.above b) = h.join separator a :=
  joinFrom_above h b [] separator a

theorem inspectFrom_above (h b : Heap) (path : List ArrayId) (a : ArrayId) :
    (h.above b).inspectFrom (path.map (·.above b)) (a.above b) = h.inspectFrom path a := by
  generalize hn : (h.unopened path).length = n
  induction n using Nat.strongRecOn generalizing path a with
  | ind n ih =>
    rw [inspectFrom, inspectFrom, contains_above]
    by_cases hpath : path.contains a = true
    · rw [dif_pos hpath, dif_pos hpath]
    · rw [dif_neg hpath, dif_neg hpath]
      by_cases hsize : a.index < h.arrays.size
      · have hlt := h.unopened_cons_lt (by simpa using hpath) hsize
        have hsize' := (lt_arrays_above h b a).2 hsize
        rw [dif_pos hsize, dif_pos hsize', arrays_above hsize hsize', Array.toList_map, List.map_map]
        refine congrArg (fun items => "[" ++ ", ".intercalate items ++ "]") (List.map_congr_left fun v _ => ?_)
        have hplain := plainInspect_above h b v
        cases v with
        | array inner => exact ih _ (hn ▸ hlt) (a :: path) inner rfl
        | _ => exact hplain
      · rw [dif_neg hsize, dif_neg (mt (lt_arrays_above h b a).1 hsize)]

end Heap

namespace Value

@[simp] theorem text_above (v : Value) (h b : Heap) : (v.above b).text (h.above b) = v.text h := by
  have hplain := Heap.plainText_above h b v
  cases v with
  | array a => exact Heap.join_above h b "," a
  | _ => exact hplain

@[simp] theorem inspect_above (v : Value) (h b : Heap) : (v.above b).inspect (h.above b) = v.inspect h := by
  have hplain := Heap.plainInspect_above h b v
  cases v with
  | array a => exact Heap.inspectFrom_above h b [] a
  | _ => exact hplain

@[simp] theorem message_above (v : Value) (h b : Heap) : (v.above b).message (h.above b) = v.message h := by
  have htext := text_above v h b
  cases v with
  | error => rfl
  | _ => exact htext

@[simp] theorem keyName_above (v : Value) (h b : Heap) : (v.above b).keyName (h.above b) = v.keyName h :=
  text_above v h b

end Value

@[simp] theorem Cause.message_above (c : Cause) (h b : Heap) : (c.above b).message (h.above b) = c.message h := by
  cases c with
  | thrown v => exact congrArg ("thrown: " ++ ·) (v.text_above h b)
  | _ => rfl

/-! ### Operators -/

theorem Value.above_eq_number {x : UInt64} (hv : v.above b = .number x) : v = .number x := by
  cases v <;> first | exact hv | cases hv

theorem Value.above_eq_string {s : String} (hv : v.above b = .string s) : v = .string s := by
  cases v <;> first | exact hv | cases hv

/-- Operators give the same, since what they give refers to nothing. -/
theorem BinaryOp.apply_above (op : BinaryOp) (h b : Heap) (v w : Value) :
    op.apply (h.above b) (v.above b) (w.above b) = op.apply h v w := by
  generalize hr : op.apply h v w = r
  unfold BinaryOp.apply at hr
  split at hr
  · rw [← hr, apply, Value.same_above]
  · rw [← hr, apply, Value.same_above]
  · cases op <;> exact hr
  · have htext := w.text_above h b
    rw [← hr, ← htext]
    cases w <;> rfl
  · rename_i hnot
    have htext := v.text_above h b
    rw [← hr, ← htext]
    cases v with
    | string s => exact (hnot s rfl).elim
    | _ => rfl
  · rename_i heq hne hleft hright hnumbers
    unfold BinaryOp.apply
    split
    · exact (heq rfl).elim
    · exact (hne rfl).elim
    · exact (hnumbers _ _ (Value.above_eq_number ‹v.above b = _›) (Value.above_eq_number ‹w.above b = _›)).elim
    · exact (hleft _ rfl (Value.above_eq_string ‹v.above b = _›)).elim
    · exact (hright _ rfl (Value.above_eq_string ‹w.above b = _›)).elim
    · rw [← hr, Value.kind_above, Value.kind_above]

end ScriptMachine
