import ScriptMachine.Proofs.Value.Hidden

/-!
# Retention — scopes stay inside the scopes around them

A machine makes scopes and defines names, but it never moves a scope. `Retains` says this of a change of the heap, and
asks it of host values too. `Inside` counts the scopes by which one scope lies inside another, as a difference of
depths; a change that retains scopes keeps the count, and names that none of these scopes holds mean the same in both.
-/

namespace ScriptMachine

namespace Heap

variable {h h' h'' : Heap} {base n j k : Nat} {may : ScopeId → String → Prop} {s t e : ScopeId} {name : String}
  {v : Value}

/-- The scopes of a heap stay, each inside the same scope. -/
structure Retains (h h' : Heap) : Prop where
  size : h.scopes.size ≤ h'.scopes.size
  parent : ∀ s, s.index < h.scopes.size → h'.parent? s = h.parent? s

namespace Retains

theorem refl (h : Heap) : Retains h h := ⟨Nat.le_refl _, fun _ _ => rfl⟩

theorem trans (hr : Retains h h') (hr' : Retains h' h'') : Retains h h'' where
  size := Nat.le_trans hr.size hr'.size
  parent s hs := (hr'.parent s (Nat.lt_of_lt_of_le hs hr.size)).trans (hr.parent s hs)

theorem lt (hr : Retains h h') (hs : s.index < h.scopes.size) : s.index < h'.scopes.size :=
  Nat.lt_of_lt_of_le hs hr.size

theorem chain (hr : Retains h h') (hs : s.index < h.scopes.size) : h'.chain s = h.chain s :=
  chain_congr fun t ht => hr.parent t (Nat.lt_of_le_of_lt ht hs)

theorem of_grows (hg : Grows base may h h') : Retains h h' := ⟨hg.size, hg.parent⟩

theorem of_scopes (hs : h'.scopes = h.scopes) : Retains h h' :=
  have hg : Grows 0 never h h' := .of_scopes hs
  of_grows hg

theorem newScope (h : Heap) (new : Scope) : Retains h (h.newScope new).2 :=
  have hg : Grows 0 never h (h.newScope new).2 := .newScope h new
  of_grows hg

theorem define (h : Heap) (s : ScopeId) (name : String) (v : Value) : Retains h (h.define s name v) :=
  ⟨Nat.le_of_eq (size_define h s name v).symm, fun t _ => parent_define h s t name v⟩

theorem defineAll (h : Heap) (s : ScopeId) (vars : List (String × Value)) : Retains h (h.defineAll s vars) := by
  induction vars generalizing h with
  | nil => exact .refl h
  | cons b rest ih => exact (define h s b.1 b.2).trans (ih _)

theorem newObject (h : Heap) (className : String) (parent : ScopeId) : Retains h (h.newObject className parent).2 :=
  (newScope h { parent := some parent, owner := some ⟨h.objects.size⟩ }).trans (.of_scopes rfl)

theorem newInstance (h : Heap) (className : String) (globals : ScopeId) (fields : List (String × Value)) :
    Retains h (Machine.newInstance className globals fields h).2 :=
  (newObject h className globals).trans (.defineAll _ _ _)

end Retains

/-! ### Scopes inside others -/

/-- A scope at one depth lies inside another at another depth. -/
def Inside (h : Heap) (s : ScopeId) (k : Nat) (e : ScopeId) (j : Nat) : Prop :=
  ∃ inner, k = inner.length + j ∧ h.chain s = inner ++ h.chain e

namespace Inside

theorem refl (h : Heap) (s : ScopeId) (k : Nat) : Inside h s k s k := ⟨[], (Nat.zero_add k).symm, rfl⟩

/-- A scope lies inside no other of its depth. -/
theorem eq_of_depth (hi : Inside h s k e k) : s = e := by
  obtain ⟨inner, hlen, hchain⟩ := hi
  obtain ⟨rest, hs, -⟩ := h.chain_eq_cons s
  obtain ⟨rest', he, -⟩ := h.chain_eq_cons e
  have hnil : inner = [] := List.eq_nil_of_length_eq_zero (by omega)
  rw [hnil, hs, he] at hchain
  exact (List.cons.inj hchain).1

theorem trans (hi : Inside h s k t j) (hi' : Inside h t j e n) : Inside h s k e n := by
  obtain ⟨inner, rfl, hs⟩ := hi
  obtain ⟨inner', rfl, ht⟩ := hi'
  exact ⟨inner ++ inner', by rw [List.length_append, Nat.add_assoc], by rw [hs, ht, List.append_assoc]⟩

theorem le (hi : Inside h s k e j) : e.index ≤ s.index := by
  obtain ⟨inner, -, hs⟩ := hi
  refine le_of_mem_chain (h := h) (s := s) ?_
  rw [hs]
  exact List.mem_append_right _ (self_mem_chain h e)

theorem lt (hi : Inside h s k e j) (hs : s.index < h.scopes.size) : e.index < h.scopes.size :=
  Nat.lt_of_le_of_lt hi.le hs

theorem retains (hi : Inside h s k e j) (hr : Retains h h') (hs : s.index < h.scopes.size) : Inside h' s k e j := by
  have he := hi.lt hs
  obtain ⟨inner, hlen, hchain⟩ := hi
  exact ⟨inner, hlen, by rw [hr.chain hs, hr.chain he, hchain]⟩

/-- A new scope lies inside the one around it. -/
theorem newChild (hs : s.index < h.scopes.size) (k : Nat) : Inside (h.newChild s).2 (h.newChild s).1 (k + 1) s k := by
  have hr : Retains h (h.newChild s).2 := .newScope h _
  exact ⟨[(h.newChild s).1], Nat.add_comm k 1, by rw [chain_newChild hs, hr.chain hs]; rfl⟩

/-- What lies inside another scope has a scope around it. -/
theorem leave (hi : Inside h s (k + 1) e j) (hj : j ≤ k) :
    ∃ outer, h.parent? s = some outer ∧ outer.index < s.index ∧ Inside h outer k e j := by
  obtain ⟨_ | ⟨t, inner⟩, hlen, hchain⟩ := hi
  · rw [List.length_nil] at hlen
    omega
  rw [chain, chainFrom_eq, List.cons_append, List.cons.injEq] at hchain
  have hnone : [] ≠ inner ++ h.chain e := fun he => by
    have hmem := self_mem_chain h e
    rw [(List.append_eq_nil_iff.1 he.symm).2] at hmem
    cases hmem
  obtain ⟨-, hrest⟩ := hchain
  cases hp : h.parent? ⟨s.index⟩ with
  | none =>
    rw [hp] at hrest
    exact absurd hrest hnone
  | some outer =>
    rw [hp] at hrest
    simp only at hrest
    split at hrest
    · rename_i hlt
      rw [List.length_cons] at hlen
      exact ⟨outer, rfl, hlt, inner, by omega, hrest⟩
    · exact absurd hrest hnone

end Inside

/-- A name that some scopes do not hold is looked up, and assigned to, behind them. -/
theorem names_behind {inner : List ScopeId} (hs : h.chain s = inner ++ h.chain e)
    (hname : ∀ t ∈ inner, h.getLocal? t name = none) :
    h.resolve? s name = h.resolve? e name ∧ h.slot s name = h.slot e name := by
  have hdefines : ∀ t ∈ inner, (h.scope t).defines name = false := fun t ht => by
    have hget := hname t ht
    unfold getLocal? Scope.get? at hget
    unfold Scope.defines
    cases hl : (h.scope t).vars.lookup name with
    | none => rfl
    | some v =>
      rw [hl] at hget
      cases hget
  constructor
  · have hnone : inner.findSome? (h.getLocal? · name) = none := List.findSome?_eq_none_iff.2 hname
    rw [resolve?, resolve?, hs, List.findSome?_append, hnone, Option.none_or]
  · have hnone : inner.find? (fun t => (h.scope t).defines name) = none :=
      List.find?_eq_none.2 fun t ht => by rw [hdefines t ht]; exact Bool.false_ne_true
    rw [slot, slot, definer?, definer?, hs, List.find?_append, hnone, Option.none_or]

end Heap

/-! ### Host values and machines -/

/-- A host value that moves no scope. -/
structure Native.Retains (n : Native) : Prop where
  write : ∀ name v h, Heap.Retains h (n.write name v h).2
  call : ∀ this args h, Heap.Retains h (n.call this args h).heap

/-- Host values that move no scope. -/
def Hosts.Retain (hosts : Hosts) : Prop := ∀ n ∈ hosts.table, n.Retains

theorem Hosts.Retain.find {hosts : Hosts} (hr : hosts.Retain) (handle : NativeHandle) :
    (hosts.find handle).Retains := by
  unfold Hosts.find
  split
  · rename_i b _
    refine ⟨fun _ _ h => .refl h, fun this args h => ?_⟩
    simp only [Builtin.native, Native.function]
    split
    · exact .of_scopes (b.body_aside this args h).1
    · exact .refl h
  · rename_i i _
    rw [Array.getD_eq_getD_getElem?]
    cases hi : hosts.table[i]? with
    | none => exact ⟨fun _ _ h => .refl h, fun _ _ h => .refl h⟩
    | some n => exact hr n (Array.mem_iff_getElem?.2 ⟨i, hi⟩)

namespace Machine

variable {m : Machine}

theorem setProperty_retains (hr : m.hosts.Retain) (target key v : Value) :
    Heap.Retains m.heap (m.setProperty target key v).2.heap := by
  unfold setProperty
  cases target with
  | object o => exact .define _ _ _ _
  | array a =>
    simp only
    split
    · split
      · exact .of_scopes rfl
      · exact .refl _
    · exact .refl _
  | native handle => exact (hr.find handle).write _ _ _
  | _ => exact .refl _

theorem callNative_retains (hr : m.hosts.Retain) (handle : NativeHandle) (receiver : Option Value) (args : List Value) :
    Heap.Retains m.heap (callNative handle receiver args m).2.heap := (hr.find handle).call receiver args m.heap

/-- A function is entered in a scope of its own. -/
theorem enterFunction_retains (f : ScriptFunction) (receiver : Option Value) (args : List Value) (fromHost : Bool)
    (m : Machine) : Heap.Retains m.heap (enterFunction f receiver args fromHost m).heap ∧
      (enterFunction f receiver args fromHost m).env.index <
        (enterFunction f receiver args fromHost m).heap.scopes.size := by
  have hscope : Heap.Retains m.heap (callScope m.globals receiver m.heap).2 ∧
      (callScope m.globals receiver m.heap).1.index < (callScope m.globals receiver m.heap).2.scopes.size := by
    unfold callScope
    split
    · exact ⟨(Heap.Retains.newScope _ _).trans (.define _ _ _ _), by simp⟩
    · exact ⟨.newScope _ _, by simp⟩
  have hdefined := Heap.Retains.defineAll (callScope m.globals receiver m.heap).2
    (callScope m.globals receiver m.heap).1 (bindParams f.params args)
  exact ⟨hscope.1.trans hdefined, hdefined.lt hscope.2⟩

end Machine

end ScriptMachine
