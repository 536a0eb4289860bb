import ScriptMachine.Proofs.Compile.Couples
import ScriptMachine.Proofs.Value.Repooling
import ScriptMachine.Proofs.Value.Writes

/-!
# Lodging — what hidden scopes hold

Where one heap keeps operands under hidden names, the other keeps the same operands under hidden names of its
own, and keys besides. `Grounds` says so of every hidden scope, and `Lodged` says of a scope that it lies as
deep in hidden scopes as some place in code expects, with what has been kept there.
-/

namespace ScriptMachine

open Compile

/-- What may be kept in each hidden scope. Other scopes are plain. -/
def Nooks : Type := ScopeId → Option (List Keep)

/-- No scope is hidden. -/
def Nooks.empty : Nooks := fun _ => none

/-- Whether a scope is hidden. -/
def Nooks.Hidden (N : Nooks) (s : ScopeId) : Prop := N s ≠ none

theorem Nooks.not_hidden {N : Nooks} {s : ScopeId} : ¬ N.Hidden s ↔ N s = none := not_not

theorem Nooks.hidden_of_eq {N : Nooks} {s : ScopeId} {ν : List Keep} (h : N s = some ν) : N.Hidden s := by
  rw [Hidden, h]
  nofun

/-- One more scope is hidden. -/
def Nooks.open (N : Nooks) (s : ScopeId) (ν : List Keep) : Nooks := fun t => if t = s then some ν else N t

theorem Nooks.open_self (N : Nooks) (s : ScopeId) (ν : List Keep) : (N.open s ν).Hidden s :=
  Nooks.hidden_of_eq (if_pos rfl)

theorem Nooks.open_of_ne (N : Nooks) {s t : ScopeId} (ν : List Keep) (h : t ≠ s) : N.open s ν t = N t := if_neg h

namespace Heap

/-- A hidden scope in two heaps. -/
structure Nook (f : Nat → Nat) (ν : List Keep) (h H : Heap) (s : ScopeId) : Prop where
  tidy : Tidy ν
  unbound : (h.scope s).owner = none ∧ (H.scope s).owner = none
  dotted : ∀ {name v}, (h.scope s).vars.lookup name = some v → IsOperand name
  bracketed : ∀ {name v}, (H.scope s).vars.lookup name = some v → IsOperand name
  kept : ∀ k ∈ ν, (H.scope s).vars.lookup k.bracketed = ((h.scope s).vars.lookup k.dotted).map (·.repooled f)

/-- Heaps that lie beside each other, and what their hidden scopes hold. -/
structure Grounds (f : Nat → Nat) (N : Nooks) (h H : Heap) : Prop where
  beside : Beside f N.Hidden h H
  nook : ∀ {s ν}, N s = some ν → Nook f ν h H s

/-- A scope that lies in hidden scopes, innermost first, with what has been kept in them. -/
def Lodged (N : Nooks) (h H : Heap) : List Lodge → ScopeId → Prop
  | [], s => N s = none ∧ s.index < h.scopes.size
  | l :: Γ, s => N s = some l.nook ∧
    (∀ k ∈ l.declared, k ∈ l.nook → ∃ v, (h.scope s).vars.lookup k.dotted = some v) ∧
    (∀ k ∈ l.keyed, k ∈ l.nook → ∀ slot property, k.key = some (slot, property) →
      (H.scope s).vars.lookup slot = some (.string property)) ∧
    ∃ t, h.parent? s = some t ∧ Lodged N h H Γ t

variable {f : Nat → Nat} {N N' : Nooks} {h H h' H' : Heap} {s t : ScopeId} {Γ : List Lodge} {l : Lodge} {k : Keep}
  {ν : List Keep} {name : String} {v : Value}

/-! ### Steps that leave hidden scopes alone -/

theorem InStep.grounds (hi : InStep f N.Hidden h H h' H') (hg : Grounds f N h H) : Grounds f N h' H' := by
  refine ⟨hi.beside, fun {s ν} hs => ?_⟩
  obtain ⟨hscope, hscope'⟩ := hi.kept s (N.hidden_of_eq hs)
  have hnook := hg.nook hs
  exact ⟨hnook.tidy, by rw [hscope, hscope']; exact hnook.unbound, by rw [hscope]; exact hnook.dotted,
    by rw [hscope']; exact hnook.bracketed, by rw [hscope, hscope']; exact hnook.kept⟩

theorem InStep.lodged (hi : InStep f N.Hidden h H h' H') (hs : Lodged N h H Γ s) : Lodged N h' H' Γ s := by
  induction Γ generalizing s with
  | nil => exact ⟨hs.1, Nat.lt_of_lt_of_le hs.2 hi.size⟩
  | cons l Γ ih =>
    obtain ⟨hN, hdeclared, hkeyed, t, hparent, ht⟩ := hs
    obtain ⟨hscope, hscope'⟩ := hi.kept s (N.hidden_of_eq hN)
    refine ⟨hN, by rw [hscope]; exact hdeclared, by rw [hscope']; exact hkeyed, t, ?_, ih ht⟩
    rw [parent?, hscope]
    exact hparent

/-! ### Names -/

/-- A hidden scope has no name but those of operands. -/
theorem Nook.getLocal? (hn : Nook f ν h H s) (hname : ¬ IsOperand name) :
    h.getLocal? s name = none ∧ H.getLocal? s name = none := by
  have hnone : (h.scope s).vars.lookup name = none :=
    Option.eq_none_iff_forall_ne_some.2 fun v hv => hname (hn.dotted hv)
  have hnone' : (H.scope s).vars.lookup name = none :=
    Option.eq_none_iff_forall_ne_some.2 fun v hv => hname (hn.bracketed hv)
  simp only [Heap.getLocal?, Scope.get?, hnone, hnone', hn.unbound, Option.map_none]
  exact ⟨ite_self _, ite_self _⟩

theorem Nook.defines (hn : Nook f ν h H s) (hname : ¬ IsOperand name) :
    (h.scope s).defines name = false ∧ (H.scope s).defines name = false := by
  simp only [Scope.defines, Option.isSome_eq_false_iff, Option.isNone_iff_eq_none]
  exact ⟨Option.eq_none_iff_forall_ne_some.2 fun v hv => hname (hn.dotted hv),
    Option.eq_none_iff_forall_ne_some.2 fun v hv => hname (hn.bracketed hv)⟩

/-- A name that is not hidden, or that is looked up from outside of hidden scopes, means the same. -/
theorem Grounds.resolve? (hg : Grounds f N h H) (hs : N s = none ∨ ¬ IsOperand name) :
    H.resolve? s name = (h.resolve? s name).map (·.repooled f) := by
  rcases hs with hs | hname
  · exact hg.beside.resolve? (Nooks.not_hidden.2 hs) name
  · rw [Heap.resolve?, Heap.resolve?, hg.beside.chain]
    have hline : ∀ t ∈ h.chain s, H.getLocal? t name = (h.getLocal? t name).map (·.repooled f) := fun t _ => by
      cases ht : N t with
      | none => exact hg.beside.getLocal? (Nooks.not_hidden.2 ht) name
      | some ν =>
        obtain ⟨hnone, hnone'⟩ := (hg.nook ht).getLocal? hname
        rw [hnone, hnone']
        rfl
    exact findSome?_mapped hline

/-- It is written to the same place, which is plain. -/
theorem Grounds.slot (hg : Grounds f N h H) (hs : N s = none ∨ ¬ IsOperand name) :
    H.slot s name = h.slot s name ∧ ∀ {t}, h.slot s name = .ok t → N t = none := by
  have hdefines : ∀ t ∈ h.chain s, (H.scope t).defines name = (h.scope t).defines name ∧
      ((h.scope t).defines name = true → N t = none) := fun t ht => by
    cases hN : N t with
    | none => exact ⟨hg.beside.defines (Nooks.not_hidden.2 hN) name, fun _ => rfl⟩
    | some ν =>
      rcases hs with hs | hname
      · exact absurd (Nooks.hidden_of_eq hN) (hg.beside.of_mem_chain (Nooks.not_hidden.2 hs) ht)
      · obtain ⟨hnot, hnot'⟩ := (hg.nook hN).defines hname
        rw [hnot, hnot']
        exact ⟨rfl, nofun⟩
  refine ⟨?_, fun {t} ht => ?_⟩
  · have hfind : H.definer? (h.chain s) name = h.definer? (h.chain s) name :=
      List.find?_congr fun t ht => (hdefines t ht).1
    rw [Heap.slot, Heap.slot, hg.beside.chain, hfind]
  · rw [Heap.slot] at ht
    cases hd : h.definer? (h.chain s) name with
    | none =>
      rw [hd] at ht
      cases ht
    | some u =>
      rw [hd] at ht
      cases ht
      exact (hdefines t (List.mem_of_find?_eq_some hd)).2 (definer?_eq_some hd).1

/-- A name that a scope defines is found there. -/
theorem resolve?_of_lookup (hv : (h.scope s).vars.lookup name = some v) :
    h.resolve? s name = some v ∧ h.slot s name = .ok s := by
  obtain ⟨rest, hrest, -⟩ := h.chain_eq_cons s
  have hlocal : h.getLocal? s name = some v := by rw [Heap.getLocal?, Scope.get?, hv]
  have hdefines : (h.scope s).defines name = true := by rw [Scope.defines, hv]; rfl
  exact ⟨by rw [Heap.resolve?, hrest, List.findSome?_cons, hlocal],
    by rw [Heap.slot, hrest, definer?, List.find?_cons, hdefines]⟩

/-- An operand that has been declared is found in the innermost hidden scope. -/
theorem Lodged.kept (hs : Lodged N h H (l :: Γ) s) (hg : Grounds f N h H) (hk : k ∈ l.nook) (hd : k ∈ l.declared) :
    ∃ v, (h.scope s).vars.lookup k.dotted = some v ∧ (H.scope s).vars.lookup k.bracketed = some (v.repooled f) := by
  obtain ⟨hN, hdeclared, -⟩ := hs
  obtain ⟨v, hv⟩ := hdeclared k hd hk
  refine ⟨v, hv, ?_⟩
  rw [(hg.nook hN).kept k hk, hv]
  rfl

/-- One more operand has been declared. -/
theorem Lodged.declared {declared keyed : List Keep} (hs : Lodged N h H (⟨ν, declared, keyed⟩ :: Γ) s)
    (hv : ∃ v, (h.scope s).vars.lookup k.dotted = some v) : Lodged N h H (⟨ν, k :: declared, keyed⟩ :: Γ) s := by
  obtain ⟨hN, hdeclared, hrest⟩ := hs
  refine ⟨hN, fun k' hk' => ?_, hrest⟩
  rcases List.mem_cons.1 hk' with rfl | hk'
  · exact fun _ => hv
  · exact hdeclared k' hk'

/-- One more key is kept. -/
theorem Lodged.keyed {declared keyed : List Keep} (hs : Lodged N h H (⟨ν, declared, keyed⟩ :: Γ) s)
    (hv : ∀ slot property, k.key = some (slot, property) → (H.scope s).vars.lookup slot = some (.string property)) :
    Lodged N h H (⟨ν, declared, k :: keyed⟩ :: Γ) s := by
  obtain ⟨hN, hdeclared, hkeyed, hrest⟩ := hs
  refine ⟨hN, hdeclared, fun k' hk' => ?_, hrest⟩
  rcases List.mem_cons.1 hk' with rfl | hk'
  · exact fun _ => hv
  · exact hkeyed k' hk'

/-! ### A hidden scope is made -/

theorem Beside.nookChild (hb : Beside f N.Hidden h H) (s : ScopeId) (ν : List Keep) :
    (H.newChild s).1 = (h.newChild s).1 ∧
      Beside f (N.open (h.newChild s).1 ν).Hidden (h.newChild s).2 (H.newChild s).2 := by
  have hchild : (H.newChild s).1 = (h.newChild s).1 := by
    show (⟨H.scopes.size⟩ : ScopeId) = ⟨h.scopes.size⟩
    rw [hb.size]
  have hscope : ∀ t, (H.newChild s).2.scope t = if t.index = h.scopes.size then { parent := some s } else H.scope t :=
    fun t => by rw [Heap.newChild, scope_newScope, hb.size]
  have hscope' : ∀ t, (h.newChild s).2.scope t = if t.index = h.scopes.size then { parent := some s } else h.scope t :=
    fun t => by rw [Heap.newChild, scope_newScope]
  have hplain : ∀ t, ¬ (N.open (h.newChild s).1 ν).Hidden t → t.index ≠ h.scopes.size ∧ ¬ N.Hidden t := fun t ht => by
    have hne : t ≠ (h.newChild s).1 := fun he => ht (he ▸ N.open_self _ ν)
    refine ⟨fun hi => hne (by cases t; cases hi; rfl), ?_⟩
    rwa [Nooks.Hidden, N.open_of_ne ν hne] at ht
  have hold : ∀ t, t.index < h.scopes.size → ¬ N.Hidden t → ¬ (N.open (h.newChild s).1 ν).Hidden t := fun t ht hN => by
    rwa [Nooks.Hidden, N.open_of_ne ν fun he => Nat.lt_irrefl _ (show h.scopes.size < _ by rw [he] at ht; exact ht)]
  refine ⟨hchild, ⟨hb.arrays, hb.objects, hb.cells, hb.stamps, ?_, fun t ht => ?_, fun t => ?_, fun t ht => ?_,
    fun t u ht hu => ?_, fun o => ?_⟩⟩
  · rw [size_newChild, size_newChild, hb.size]
  · obtain ⟨hne, hN⟩ := hplain t ht
    rw [hscope, hscope', if_neg hne, if_neg hne]
    exact hb.plain t hN
  · have hparent : (H.scope t).parent = (h.scope t).parent := hb.parents t
    rw [parent?, parent?, hscope, hscope']
    split
    · rfl
    · exact hparent
  · rw [size_newChild]
    by_cases hne : t = (h.newChild s).1
    · rw [hne, index_newChild]
      exact Nat.lt_succ_self _
    · rw [Nooks.Hidden, N.open_of_ne ν hne] at ht
      exact Nat.lt_succ_of_lt (hb.made t ht)
  · obtain ⟨hne, hN⟩ := hplain t ht
    rw [parent?, hscope', if_neg hne] at hu
    obtain ⟨hN', hlt⟩ := hb.parent t u hN hu
    rw [size_newChild]
    exact ⟨hold u hlt hN', Nat.lt_succ_of_lt hlt⟩
  · obtain ⟨hN, hlt⟩ := hb.fields o
    rw [size_newChild]
    exact ⟨hold _ hlt hN, Nat.lt_succ_of_lt hlt⟩

/-- Scopes that are lodged stay so when a hidden scope is made. -/
theorem Lodged.nookChild (hs : Lodged N h H Γ t) (hb : Beside f N.Hidden h H) (s : ScopeId) (ν : List Keep) :
    Lodged (N.open (h.newChild s).1 ν) (h.newChild s).2 (H.newChild s).2 Γ t := by
  have hne : ∀ {u : ScopeId}, u.index < h.scopes.size → u ≠ (h.newChild s).1 := fun hu he => by
    rw [he] at hu
    exact Nat.lt_irrefl _ hu
  have hkeep : ∀ {u : ScopeId}, u.index < h.scopes.size →
      (h.newChild s).2.scope u = h.scope u ∧ (H.newChild s).2.scope u = H.scope u := fun hu => by
    rw [Heap.newChild, scope_newScope, Heap.newChild, scope_newScope, if_neg (Nat.ne_of_lt hu),
      if_neg (Nat.ne_of_lt (hb.size ▸ hu))]
    exact ⟨rfl, rfl⟩
  induction Γ generalizing t with
  | nil =>
    obtain ⟨hN, hlt⟩ := hs
    rw [Lodged, N.open_of_ne ν (hne hlt), size_newChild]
    exact ⟨hN, Nat.lt_succ_of_lt hlt⟩
  | cons l Γ ih =>
    obtain ⟨hN, hdeclared, hkeyed, u, hparent, hu⟩ := hs
    have hlt := hb.made t (N.hidden_of_eq hN)
    obtain ⟨hscope, hscope'⟩ := hkeep hlt
    refine ⟨by rw [N.open_of_ne ν (hne hlt)]; exact hN, by rw [hscope]; exact hdeclared,
      by rw [hscope']; exact hkeyed, u, ?_, ih hu⟩
    rw [parent?, hscope]
    exact hparent

theorem Grounds.nookChild (hg : Grounds f N h H) (htidy : Tidy ν) (s : ScopeId) :
    Grounds f (N.open (h.newChild s).1 ν) (h.newChild s).2 (H.newChild s).2 := by
  obtain ⟨hchild, hb⟩ := hg.beside.nookChild s ν
  refine ⟨hb, fun {t μ} ht => ?_⟩
  by_cases hne : t = (h.newChild s).1
  · subst hne
    obtain rfl : ν = μ := by
      rw [Nooks.open, if_pos rfl] at ht
      exact Option.some.inj ht
    have hscope := h.scope_newChild s
    have hscope' := H.scope_newChild s
    rw [hchild] at hscope'
    refine ⟨htidy, ?_, fun {name v} hv => ?_, fun {name v} hv => ?_, fun k _ => ?_⟩
    · rw [hscope, hscope']
      exact ⟨rfl, rfl⟩
    · rw [hscope] at hv
      cases hv
    · rw [hscope'] at hv
      cases hv
    · rw [hscope, hscope']
      rfl
  · rw [N.open_of_ne ν hne] at ht
    have hlt := hg.beside.made t (N.hidden_of_eq ht)
    have hnook := hg.nook ht
    have hscope : (h.newChild s).2.scope t = h.scope t := by
      rw [Heap.newChild, scope_newScope, if_neg (Nat.ne_of_lt hlt)]
    have hscope' : (H.newChild s).2.scope t = H.scope t := by
      rw [Heap.newChild, scope_newScope, if_neg (Nat.ne_of_lt (hg.beside.size ▸ hlt))]
    exact ⟨hnook.tidy, by rw [hscope, hscope']; exact hnook.unbound, by rw [hscope]; exact hnook.dotted,
      by rw [hscope']; exact hnook.bracketed, by rw [hscope, hscope']; exact hnook.kept⟩

/-- The scope that is made is lodged one deeper. -/
theorem lodged_newChild (hg : Grounds f N h H) (hs : Lodged N h H Γ s) :
    Lodged (N.open (h.newChild s).1 ν) (h.newChild s).2 (H.newChild s).2 (⟨ν, [], []⟩ :: Γ) (h.newChild s).1 :=
  ⟨if_pos rfl, nofun, nofun, s, by rw [parent?, scope_newChild], hs.nookChild hg.beside s ν⟩

/-! ### What is kept in a hidden scope -/

/-- A hidden scope changes in one heap. -/
theorem Beside.defineLeft (hb : Beside f N.Hidden h H) (hs : N.Hidden s) (name : String) (v : Value) :
    Beside f N.Hidden (h.define s name v) H := by
  have hsize : (h.define s name v).scopes.size = h.scopes.size := size_define h s name v
  refine ⟨hb.arrays, hb.objects, hb.cells, hb.stamps, by rw [hsize, hb.size], fun t ht => ?_, fun t => ?_, ?_,
    fun t u ht hu => ?_, ?_⟩
  · rw [scope_define_eq h, if_neg (fun hc => ht (hc.1 ▸ hs) : ¬ (t = s ∧ _))]
    exact hb.plain t ht
  · rw [parent_define, hb.parents]
  · rw [hsize]
    exact hb.made
  · rw [parent_define] at hu
    rw [hsize]
    exact hb.parent t u ht hu
  · rw [hsize]
    exact hb.fields

/-- A hidden scope changes in the other heap. -/
theorem Beside.defineRight (hb : Beside f N.Hidden h H) (hs : N.Hidden s) (name : String) (v : Value) :
    Beside f N.Hidden h (H.define s name v) := by
  refine ⟨hb.arrays, hb.objects, hb.cells, hb.stamps, by rw [size_define, hb.size], fun t ht => ?_, fun t => ?_,
    hb.made, hb.parent, hb.fields⟩
  · rw [scope_define_eq H, if_neg (fun hc => ht (hc.1 ▸ hs) : ¬ (t = s ∧ _))]
    exact hb.plain t ht
  · rw [parent_define, hb.parents]

/-- Lodgings depend on what hidden scopes hold. -/
theorem Lodged.of_lookups (hs : Lodged N h H Γ s) (hsize : h.scopes.size ≤ h'.scopes.size)
    (hparents : ∀ t, h'.parent? t = h.parent? t)
    (hdotted : ∀ {t ν k}, N t = some ν → k ∈ ν → (∃ v, (h.scope t).vars.lookup k.dotted = some v) →
      ∃ v, (h'.scope t).vars.lookup k.dotted = some v)
    (hkeys : ∀ {t ν k slot property}, N t = some ν → k ∈ ν → k.key = some (slot, property) →
      (H.scope t).vars.lookup slot = some (.string property) → (H'.scope t).vars.lookup slot = some (.string property)) :
    Lodged N h' H' Γ s := by
  induction Γ generalizing s with
  | nil => exact ⟨hs.1, Nat.lt_of_lt_of_le hs.2 hsize⟩
  | cons l Γ ih =>
    obtain ⟨hN, hdeclared, hkey, t, hparent, ht⟩ := hs
    exact ⟨hN, fun k hd hk => hdotted hN hk (hdeclared k hd hk), fun k hd hk slot property hs =>
      hkeys hN hk hs (hkey k hd hk slot property hs), t, by rw [hparents, hparent], ih ht⟩

/-- The name of a key is no name of an operand. -/
theorem slot_ne_bracketed {k' : Keep} {slot property : String} (htidy : Tidy ν) (hk : k ∈ ν) (hk' : k' ∈ ν)
    (hkey : k.key = some (slot, property)) : k'.bracketed ≠ slot := fun he => by
  have hnames : slot ∈ k.names ∧ slot ∈ k'.names := by simp [Keep.names, hkey, he]
  obtain rfl := htidy.apart k hk k' hk' (.inr ⟨slot, hnames.1, hnames.2⟩)
  exact (htidy.key k hk slot property hkey).1 he.symm

/-- Two keys with one name are one. -/
theorem eq_of_slot {k' : Keep} {slot property property' : String} (htidy : Tidy ν) (hk : k ∈ ν) (hk' : k' ∈ ν)
    (hkey : k.key = some (slot, property)) (hkey' : k'.key = some (slot, property')) : property' = property := by
  have hnames : slot ∈ k.names ∧ slot ∈ k'.names := by simp [Keep.names, hkey, hkey']
  obtain rfl := htidy.apart k hk k' hk' (.inr ⟨slot, hnames.1, hnames.2⟩)
  rw [hkey] at hkey'
  cases hkey'
  rfl

/-- An operand is kept under its two names. -/
theorem Grounds.keep (hg : Grounds f N h H) (hN : N s = some ν) (hk : k ∈ ν) (v : Value) :
    Grounds f N (h.define s k.dotted v) (H.define s k.bracketed (v.repooled f)) ∧
      ∀ {Γ t}, Lodged N h H Γ t → Lodged N (h.define s k.dotted v) (H.define s k.bracketed (v.repooled f)) Γ t := by
  have hhidden := N.hidden_of_eq hN
  have hlt := hg.beside.made s hhidden
  have hlt' : s.index < H.scopes.size := hg.beside.size ▸ hlt
  have htidy := (hg.nook hN).tidy
  refine ⟨⟨(hg.beside.defineLeft hhidden _ _).defineRight hhidden _ _, fun {t μ} ht => ?_⟩, fun {Γ t} ht =>
    ht.of_lookups (Nat.le_of_eq (size_define _ _ _ _).symm) (fun t => parent_define _ _ _ _ _)
      (fun {t μ k'} _ _ hv => ?_) fun {t μ k' slot property} ht hk' hkey hv => ?_⟩
  · have hnook := hg.nook ht
    refine ⟨hnook.tidy, by simpa using hnook.unbound, fun {name w} hw => ?_, fun {name w} hw => ?_, fun k' hk' => ?_⟩
    · rw [lookup_define] at hw
      split at hw
      · rename_i he
        exact he.2 ▸ htidy.dotted k hk
      · exact hnook.dotted hw
    · rw [lookup_define] at hw
      split at hw
      · rename_i he
        exact he.2 ▸ htidy.bracketed k hk k.bracketed List.mem_cons_self
      · exact hnook.bracketed hw
    · rw [lookup_define, lookup_define]
      by_cases hs : t = s
      · subst hs
        obtain rfl : ν = μ := Option.some.inj (hN.symm.trans ht)
        by_cases he : k' = k
        · subst he
          rw [if_pos ⟨⟨rfl, hlt'⟩, rfl⟩, if_pos ⟨⟨rfl, hlt⟩, rfl⟩]
          rfl
        · rw [if_neg fun hc => he (htidy.apart k' hk' k hk (.inr ⟨k'.bracketed, List.mem_cons_self,
              by rw [hc.2]; exact List.mem_cons_self⟩)), if_neg fun hc => he (htidy.apart k' hk' k hk (.inl hc.2))]
          exact hnook.kept k' hk'
      · rw [if_neg fun hc => hs hc.1.1, if_neg fun hc => hs hc.1.1]
        exact hnook.kept k' hk'
  · rw [lookup_define]
    split
    · exact ⟨v, rfl⟩
    · exact hv
  · rw [lookup_define, if_neg]
    · exact hv
    · rintro ⟨⟨rfl, -⟩, rfl⟩
      obtain rfl : ν = μ := Option.some.inj (hN.symm.trans ht)
      exact slot_ne_bracketed htidy hk' hk hkey rfl

/-- A key is kept besides. -/
theorem Grounds.keepKey {slot property : String} (hg : Grounds f N h H) (hN : N s = some ν) (hk : k ∈ ν)
    (hkey : k.key = some (slot, property)) :
    Grounds f N h (H.define s slot (.string property)) ∧
      ∀ {Γ t}, Lodged N h H Γ t → Lodged N h (H.define s slot (.string property)) Γ t := by
  have hhidden := N.hidden_of_eq hN
  have htidy := (hg.nook hN).tidy
  refine ⟨⟨hg.beside.defineRight hhidden _ _, fun {t μ} ht => ?_⟩, fun {Γ t} ht =>
    ht.of_lookups (Nat.le_refl _) (fun t => rfl) (fun _ _ hv => hv) fun {t μ k' slot' property'} ht hk' hkey' hv => ?_⟩
  · have hnook := hg.nook ht
    refine ⟨hnook.tidy, by simpa using hnook.unbound, hnook.dotted, fun {name w} hw => ?_, fun k' hk' => ?_⟩
    · rw [lookup_define] at hw
      split at hw
      · rename_i he
        exact he.2 ▸ htidy.bracketed k hk slot (by simp [Keep.names, hkey])
      · exact hnook.bracketed hw
    · rw [lookup_define, if_neg]
      · exact hnook.kept k' hk'
      · rintro ⟨⟨rfl, -⟩, he⟩
        obtain rfl : ν = μ := Option.some.inj (hN.symm.trans ht)
        exact slot_ne_bracketed htidy hk hk' hkey he
  · rw [lookup_define]
    split
    · rename_i he
      obtain ⟨⟨rfl, -⟩, rfl⟩ := he
      obtain rfl : ν = μ := Option.some.inj (hN.symm.trans ht)
      rw [eq_of_slot htidy hk hk' hkey hkey']
    · exact hv

end Heap

end ScriptMachine
