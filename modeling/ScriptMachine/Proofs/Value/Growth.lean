import ScriptMachine.Proofs.Machine.Exec
import ScriptMachine.Proofs.Script.Nodes

/-!
# Growth — what a run does to the scopes it finds

A run opens scopes of its own above a base, and only the fields of objects among them can be reached
from values. `Grows` says what happens to the others: they keep their places in the chain, and get new
names only where that is allowed.
-/

namespace ScriptMachine.Heap

variable {h h' h'' : Heap} {base : Nat} {s t : ScopeId} {name : String} {v : Value}

/-! ### Scopes after operations -/

theorem scope_of_le (hs : h.scopes.size ≤ s.index) : h.scope s = {} := by
  simp [scope, Array.getD_eq_getD_getElem?, hs]

theorem scope_newScope (h : Heap) (new : Scope) (t : ScopeId) :
    (h.newScope new).2.scope t = if t.index = h.scopes.size then new else h.scope t := by
  simp only [newScope, scope, Array.getD_eq_getD_getElem?, Array.getElem?_push]
  split <;> rfl

theorem scope_define_eq (h : Heap) (s t : ScopeId) (name : String) (v : Value) :
    (h.define s name v).scope t =
      if t = s ∧ s.index < h.scopes.size then (h.scope s).define name v else h.scope t := by
  by_cases hs : s.index < h.scopes.size
  · rw [scope_define h s t name v hs]
    simp [hs]
  · rw [if_neg (fun hc => hs hc.2)]
    simp only [define, scope, Array.getD_eq_getD_getElem?, Array.getElem?_modify]
    split
    · rename_i hi
      rw [← hi, Array.getElem?_eq_none (Nat.le_of_not_lt hs)]
      rfl
    · rfl

/-- The fields of an object after another one is made. -/
theorem fields_newObject (h : Heap) (className : String) (parent : ScopeId) (o : ObjectId) :
    (h.newObject className parent).2.fields o =
      if o.index = h.objects.size then ⟨h.scopes.size⟩ else h.fields o := by
  simp only [newObject, newScope, fields, Array.getElem?_push]
  split <;> rfl

@[simp] theorem size_define (h : Heap) (s : ScopeId) (name : String) (v : Value) :
    (h.define s name v).scopes.size = h.scopes.size := by
  simp [define]

@[simp] theorem size_newChild (h : Heap) (s : ScopeId) :
    (h.newChild s).2.scopes.size = h.scopes.size + 1 := by
  simp [newChild, newScope]

@[simp] theorem index_newChild (h : Heap) (s : ScopeId) : (h.newChild s).1.index = h.scopes.size := rfl

@[simp] theorem owner_define (h : Heap) (s t : ScopeId) (name : String) (v : Value) :
    ((h.define s name v).scope t).owner = (h.scope t).owner := by
  rw [scope_define_eq]
  split
  · rename_i ht
    rw [ht.1]
    rfl
  · rfl

@[simp] theorem parent_define (h : Heap) (s t : ScopeId) (name : String) (v : Value) :
    (h.define s name v).parent? t = h.parent? t := by
  rw [parent?, parent?, scope_define_eq]
  split
  · rename_i ht
    rw [ht.1]
    rfl
  · rfl

/-- A definition is seen under its own name only. -/
theorem lookup_define (h : Heap) (s t : ScopeId) (name n : String) (v : Value) :
    ((h.define s name v).scope t).vars.lookup n =
      if (t = s ∧ s.index < h.scopes.size) ∧ n = name then some v else (h.scope t).vars.lookup n := by
  rw [scope_define_eq]
  by_cases ht : t = s ∧ s.index < h.scopes.size
  · rw [if_pos ht, Scope.define, lookup_insertBinding, ht.1]
    simp [ht.2]
  · rw [if_neg ht, if_neg (fun hc => ht hc.1)]

/-- A later definition takes the place of an earlier one. -/
theorem define_define (h : Heap) (s : ScopeId) (name : String) (v w : Value) :
    (h.define s name v).define s name w = h.define s name w := by
  have hinsert : ∀ vars, insertBinding name w (insertBinding name v vars) = insertBinding name w vars := by
    intro vars
    induction vars with
    | nil => simp [insertBinding]
    | cons b rest ih =>
      by_cases hb : b.1 = name
      · simp [insertBinding, hb]
      · simp [insertBinding, hb, ih]
  have hdefine : ∀ scope : Scope, (scope.define name v).define name w = scope.define name w := by
    intro scope
    simp only [Scope.define, hinsert]
  simp only [define, Heap.mk.injEq, true_and, and_true]
  apply Array.ext_getElem?
  intro i
  simp only [Array.getElem?_modify]
  split
  · cases h.scopes[i]? with
    | none => rfl
    | some scope => simp only [Option.map_some, hdefine]
  · rfl

/-! ### Chains -/

theorem chainFrom_eq (h : Heap) (i : Nat) :
    h.chainFrom i = ⟨i⟩ :: match h.parent? ⟨i⟩ with
      | none => []
      | some p => if p.index < i then h.chainFrom p.index else [] := by
  rw [chainFrom, parent?]
  cases (h.scope ⟨i⟩).parent with
  | none => rfl
  | some p =>
    simp only
    split <;> rfl

/-- A chain begins with its scope, and goes down. -/
theorem chain_eq_cons (h : Heap) (s : ScopeId) :
    ∃ rest, h.chain s = s :: rest ∧ ∀ t ∈ rest, t.index < s.index := by
  obtain ⟨i⟩ := s
  rw [chain]
  induction i using Nat.strongRecOn with
  | ind i ih =>
    rw [chainFrom_eq]
    cases h.parent? ⟨i⟩ with
    | none => exact ⟨[], rfl, nofun⟩
    | some p =>
      simp only
      split
      · rename_i hp
        obtain ⟨rest, hrest, hlt⟩ := ih p.index hp
        refine ⟨_, rfl, fun t ht => ?_⟩
        rw [hrest] at ht
        rcases List.mem_cons.1 ht with rfl | ht
        · exact hp
        · exact Nat.lt_trans (hlt t ht) hp
      · exact ⟨[], rfl, nofun⟩

/-- A name is assigned to where it was declared last. -/
theorem slot_define (hs : s.index < h.scopes.size) : (h.define s name v).slot s name = .ok s := by
  obtain ⟨rest, hrest, -⟩ := (h.define s name v).chain_eq_cons s
  have hdef : ((h.define s name v).scope s).defines name = true := by
    rw [Scope.defines, lookup_define, if_pos ⟨⟨rfl, hs⟩, rfl⟩]
    rfl
  rw [slot, hrest, definer?, List.find?_cons, hdef]

theorem le_of_mem_chain (ht : t ∈ h.chain s) : t.index ≤ s.index := by
  obtain ⟨rest, hrest, hlt⟩ := h.chain_eq_cons s
  rw [hrest] at ht
  rcases List.mem_cons.1 ht with rfl | ht
  · exact Nat.le_refl _
  · exact Nat.le_of_lt (hlt t ht)

/-- Chains depend on the scopes around scopes only. -/
theorem chain_congr (hp : ∀ t : ScopeId, t.index ≤ s.index → h'.parent? t = h.parent? t) :
    h'.chain s = h.chain s := by
  obtain ⟨i⟩ := s
  simp only [chain]
  induction i using Nat.strongRecOn with
  | ind i ih =>
    rw [chainFrom_eq, chainFrom_eq h, hp ⟨i⟩ (Nat.le_refl _)]
    cases h.parent? ⟨i⟩ with
    | none => rfl
    | some p =>
      simp only
      split
      · rename_i hlt
        rw [ih p.index hlt fun t ht => hp t (by simp only at ht ⊢; omega)]
      · rfl

/-- A new scope is empty. -/
theorem scope_newChild (h : Heap) (s : ScopeId) :
    (h.newChild s).2.scope (h.newChild s).1 = { parent := some s } :=
  (scope_newScope h _ _).trans (if_pos (index_newChild h s))

theorem chain_newChild (hs : s.index < h.scopes.size) :
    (h.newChild s).2.chain (h.newChild s).1 = (h.newChild s).1 :: h.chain s := by
  have hparent : (h.newChild s).2.parent? (h.newChild s).1 = some s := by
    rw [parent?, scope_newChild]
  rw [chain, chainFrom_eq, show (⟨(h.newChild s).1.index⟩ : ScopeId) = (h.newChild s).1 from rfl, hparent]
  simp only
  rw [if_pos (show s.index < (h.newChild s).1.index from hs)]
  congr 1
  refine chain_congr (s := s) fun t ht => ?_
  rw [parent?, newChild, scope_newScope, if_neg (by omega)]
  rfl

/-! ### Growth -/

/-- A scope above the base that holds no fields: no value leads to it. -/
def Private (base : Nat) (h : Heap) (s : ScopeId) : Prop := base ≤ s.index ∧ (h.scope s).owner = none

/-- The scopes of a heap keep their places. Those that no value leads to get new names, or new values
for reserved names, only as allowed. -/
structure Grows (base : Nat) (may : ScopeId → String → Prop) (h h' : Heap) : Prop where
  size : h.scopes.size ≤ h'.scopes.size
  parent : ∀ s, s.index < h.scopes.size → h'.parent? s = h.parent? s
  owner : ∀ s, s.index < h.scopes.size → (h'.scope s).owner = (h.scope s).owner
  names : ∀ s, s.index < h.scopes.size → Private base h s → ∀ name,
    (h'.scope s).defines name = true → (h.scope s).defines name = true ∨ may s name
  kept : ∀ s, s.index < h.scopes.size → Private base h s → ∀ name, reserved name = true →
    ¬ may s name → (h'.scope s).vars.lookup name = (h.scope s).vars.lookup name

/-- Nothing is allowed. -/
def never : ScopeId → String → Prop := fun _ _ => False

/-- Anything is allowed in one scope. -/
def only (e : ScopeId) : ScopeId → String → Prop := fun s _ => s = e

/-- Some names are allowed in one scope. -/
def among (e : ScopeId) (names : List String) : ScopeId → String → Prop := fun s name => s = e ∧ name ∈ names

variable {may may' : ScopeId → String → Prop}

theorem Grows.private (hg : Grows base may h h') (hs : s.index < h.scopes.size) (hp : Private base h s) :
    Private base h' s := ⟨hp.1, (hg.owner s hs).trans hp.2⟩

theorem Grows.refl (base : Nat) (may : ScopeId → String → Prop) (h : Heap) : Grows base may h h :=
  ⟨Nat.le_refl _, fun _ _ => rfl, fun _ _ => rfl, fun _ _ _ _ hd => .inl hd, fun _ _ _ _ _ _ => rfl⟩

/-- What the second step may do to scopes that the first one found has to be allowed. -/
theorem Grows.trans (hg : Grows base may h h') (hg' : Grows base may' h' h'')
    (hm : ∀ s name, s.index < h.scopes.size → may' s name → may s name) : Grows base may h h'' where
  size := Nat.le_trans hg.size hg'.size
  parent s hs := by rw [hg'.parent s (Nat.lt_of_lt_of_le hs hg.size), hg.parent s hs]
  owner s hs := by rw [hg'.owner s (Nat.lt_of_lt_of_le hs hg.size), hg.owner s hs]
  names s hs hp name hd := by
    rcases hg'.names s (Nat.lt_of_lt_of_le hs hg.size) (hg.private hs hp) name hd with hd | hmay
    · exact hg.names s hs hp name hd
    · exact .inr (hm s name hs hmay)
  kept s hs hp name hr hn := by
    rw [hg'.kept s (Nat.lt_of_lt_of_le hs hg.size) (hg.private hs hp) name hr fun hmay =>
      hn (hm s name hs hmay), hg.kept s hs hp name hr hn]

theorem Grows.trans_same (hg : Grows base may h h') (hg' : Grows base may h' h'') :
    Grows base may h h'' := hg.trans hg' fun _ _ _ hmay => hmay

theorem Grows.mono (hg : Grows base may h h') (hm : ∀ s name, may s name → may' s name) :
    Grows base may' h h' :=
  (Grows.refl base may' h).trans hg fun s name _ => hm s name

theorem Grows.of_never (hg : Grows base never h h') : Grows base may h h' :=
  hg.mono fun _ _ hf => hf.elim

/-- A change of the heap that leaves the scopes alone. -/
theorem Grows.of_scopes (hs : h'.scopes = h.scopes) : Grows base may h h' := by
  have hscope : ∀ s, h'.scope s = h.scope s := fun s => by rw [scope, scope, hs]
  refine ⟨Nat.le_of_eq (by rw [hs]), fun s _ => ?_, fun s _ => by rw [hscope], fun s _ _ name hd => .inl ?_,
    fun s _ _ _ _ _ => by rw [hscope]⟩
  · rw [parent?, parent?, hscope]
  · rwa [← hscope]

theorem Grows.newScope (h : Heap) (new : Scope) : Grows base may h (h.newScope new).2 := by
  have hscope : ∀ s : ScopeId, s.index < h.scopes.size → (h.newScope new).2.scope s = h.scope s :=
    fun s hs => by rw [scope_newScope, if_neg (by omega)]
  refine ⟨by simp [Heap.newScope], fun s hs => ?_, fun s hs => by rw [hscope s hs],
    fun s hs _ name hd => .inl ?_, fun s hs _ _ _ _ => by rw [hscope s hs]⟩
  · rw [parent?, parent?, hscope s hs]
  · rwa [← hscope s hs]

theorem Grows.newChild (h : Heap) (s : ScopeId) : Grows base may h (h.newChild s).2 := .newScope h _

/-- A definition that is allowed, or that changes nothing but the value of a name that is not
reserved, or that a value leads to. -/
theorem Grows.define (hd : may s name ∨ (h.scope s).defines name = true ∧ reserved name = false ∨
    ¬ Private base h s) : Grows base may h (h.define s name v) := by
  refine ⟨by simp, fun t _ => by simp, fun t _ => by simp, fun t _ hp n hn => ?_,
    fun t _ hp n hr hnot => ?_⟩
  · rw [Scope.defines, lookup_define] at hn
    by_cases hc : (t = s ∧ s.index < h.scopes.size) ∧ n = name
    · obtain ⟨⟨rfl, -⟩, rfl⟩ := hc
      rcases hd with hmay | ⟨hdef, -⟩ | hnp
      · exact .inr hmay
      · exact .inl hdef
      · exact absurd hp hnp
    · rw [if_neg hc] at hn
      exact .inl hn
  · rw [lookup_define, if_neg]
    rintro ⟨⟨rfl, -⟩, rfl⟩
    rcases hd with hmay | ⟨-, hname⟩ | hnp
    · exact hnot hmay
    · rw [hr] at hname
      cases hname
    · exact hnp hp

/-- A scope that a step opens is of no concern to what came before. -/
theorem Grows.opened {e : ScopeId} (hg : Grows base may' (h.newChild e).2 h')
    (hm : ∀ s name, may' s name → s = (h.newChild e).1) : Grows base never h h' := by
  refine (Grows.newChild h e).trans hg fun s name hs hmay => ?_
  rw [hm s name hmay] at hs
  exact absurd hs (Nat.lt_irrefl _)

theorem Grows.chain (hg : Grows base may h h') (hs : s.index < h.scopes.size) : h'.chain s = h.chain s :=
  chain_congr fun t ht => hg.parent t (Nat.lt_of_le_of_lt ht hs)

end ScriptMachine.Heap
