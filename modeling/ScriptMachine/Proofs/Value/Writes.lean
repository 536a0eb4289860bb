import ScriptMachine.Proofs.Value.Keeping

/-!
# Writes — an assignment changes one slot

A forest of scopes grows by new roots, children and objects, by definitions and by the two kinds of assignment. A plain
assignment goes to the nearest scope that defines the name; a field assignment goes no further than the fields of the
nearest object. Both write one slot, and a name is read back from the scope that it was assigned in
(`Heap.writes_hit_one_slot`). What the slot held before is dropped. Where that was the last handle to an object, the
fields of the object no longer know it as `this`, and nothing else is read differently (`Heap.writes_drop_receivers`).
-/

namespace ScriptMachine

namespace Heap

variable {h h' : Heap} {e s t p f : ScopeId} {n m : String} {v : Value} {inner outer line : List ScopeId}
  {host host' : Host}

/-! ### Forests -/

/-- The scopes that a sequence of operations makes. In between, the host may make and change other values. -/
inductive Forest : Heap → Prop where
  | empty : Forest {}
  | values {h h' : Heap} : Forest h → h'.scopes = h.scopes → h'.objects = h.objects → Forest h'
  | root {h : Heap} : Forest h → Forest h.newRoot.2
  | child {h : Heap} {s : ScopeId} : Forest h → s.index < h.scopes.size → Forest (h.newChild s).2
  | object {h : Heap} {s : ScopeId} (className : String) : Forest h → s.index < h.scopes.size →
      Forest (h.newObject className s).2
  | define {h : Heap} {s : ScopeId} {n : String} {v : Value} : Forest h → s.index < h.scopes.size →
      Forest (h.define s n v)
  | assign {h h' : Heap} {s : ScopeId} {n : String} {v : Value} : Forest h → s.index < h.scopes.size →
      h.assign s n v = .ok h' → Forest h'
  | assignField {h : Heap} {s : ScopeId} {n : String} {v : Value} : Forest h → s.index < h.scopes.size →
      Forest (h.assignField s n v)

/-- A scope and its ancestors, nearest first. -/
inductive Lineage (h : Heap) : ScopeId → List ScopeId → Prop where
  | root {s : ScopeId} : h.parent? s = none → Lineage h s [s]
  | inside {s p : ScopeId} {line : List ScopeId} : h.parent? s = some p → Lineage h p line → Lineage h s (s :: line)

theorem Lineage.unique {line' : List ScopeId} (h₁ : Lineage h s line) (h₂ : Lineage h s line') : line = line' := by
  induction h₁ generalizing line' with
  | root hp =>
    cases h₂ with
    | root => rfl
    | inside hp' => rw [hp] at hp'; cases hp'
  | inside hp _ ih =>
    cases h₂ with
    | root hp' => rw [hp] at hp'; cases hp'
    | inside hp' hline =>
      obtain rfl := Option.some.inj (hp.symm.trans hp')
      rw [ih hline]

/-- Every scope stands inside one that was made before it. -/
def Older (h : Heap) : Prop := ∀ s p, h.parent? s = some p → p.index < s.index

theorem Older.newScope (hh : h.Older) {new : Scope} (hnew : ∀ p, new.parent = some p → p.index < h.scopes.size) :
    (h.newScope new).2.Older := by
  intro s p hp
  rw [parent?, scope_newScope] at hp
  split at hp
  · rename_i hs
    rw [hs]
    exact hnew p hp
  · exact hh s p hp

theorem Older.define (hh : h.Older) (s : ScopeId) (n : String) (v : Value) : (h.define s n v).Older := by
  intro t p hp
  rw [parent_define] at hp
  exact hh t p hp

theorem Older.of_scopes (hh : h.Older) (hscopes : h'.scopes = h.scopes) : h'.Older := by
  intro s p hp
  rw [parent?, scope, hscopes] at hp
  exact hh s p hp

theorem Forest.older (hh : Forest h) : h.Older := by
  induction hh with
  | empty =>
    intro s p hp
    rw [parent?, scope_of_le (Nat.zero_le _)] at hp
    cases hp
  | values _ hscopes _ ih => exact ih.of_scopes hscopes
  | root _ ih => exact ih.newScope fun p hp => by cases hp
  | child _ hs ih => exact ih.newScope fun p hp => Option.some.inj hp ▸ hs
  | object _ _ hs ih => exact ih.newScope fun p hp => Option.some.inj hp ▸ hs
  | define _ _ ih => exact ih.define _ _ _
  | @assign h _ s n v _ _ hassign ih =>
    rw [Heap.assign] at hassign
    cases hslot : h.slot s n with
    | error c => rw [hslot] at hassign; cases hassign
    | ok t =>
      rw [hslot] at hassign
      cases hassign
      exact ih.define _ _ _
  | assignField _ _ ih => exact ih.define _ _ _

/-- The chain along which names are looked up is the scope with its ancestors. -/
theorem Older.lineage (hh : h.Older) (s : ScopeId) : Lineage h s (h.chain s) := by
  obtain ⟨i⟩ := s
  rw [chain]
  induction i using Nat.strongRecOn with
  | ind i ih =>
    rw [chainFrom_eq]
    cases hp : h.parent? ⟨i⟩ with
    | none => exact .root hp
    | some p =>
      have hlt : p.index < i := hh _ _ hp
      simp only
      rw [if_pos hlt]
      exact .inside hp (ih p.index hlt)

theorem nodup_chain (h : Heap) (s : ScopeId) : (h.chain s).Nodup := by
  obtain ⟨i⟩ := s
  rw [chain]
  induction i using Nat.strongRecOn with
  | ind i ih =>
    rw [chainFrom_eq]
    cases h.parent? ⟨i⟩ with
    | none => simp
    | some p =>
      simp only
      split
      · rename_i hlt
        refine List.nodup_cons.2 ⟨fun hmem => ?_, ih p.index hlt⟩
        have hle : i ≤ p.index := le_of_mem_chain (h := h) (s := p) (t := ⟨i⟩) hmem
        omega
      · simp

/-! ### One slot -/

/-- A change leaves fields without their object: they knew it as `this`, it was kept, and nothing keeps it now. -/
def Forsakes (host : Host) (h : Heap) (host' : Host) (h' : Heap) (t : ScopeId) : Prop :=
  (h.scope t).defines thisName = false ∧
    ∃ o, (h.scope t).owner = some o ∧ h.Kept host (.object o) ∧ ¬ h'.Kept host' (.object o)

/-- Some slots are written. Any other is read as before, except that fields left without their object know no `this`. -/
structure Reads (host : Host) (h : Heap) (host' : Host) (h' : Heap) (written : ScopeId → String → Prop) : Prop where
  same : ∀ t m, ¬ written t m → ¬ (m = thisName ∧ Forsakes host h host' h' t) →
    h'.seen? host' t m = h.seen? host t m
  gone : ∀ t, ¬ written t thisName → Forsakes host h host' h' t → h'.seen? host' t thisName = none

theorem lookup_eq_none_iff : (h.scope t).vars.lookup n = none ↔ (h.scope t).defines n = false := by
  simp [Scope.defines]

/-- Where scopes change in some slots only, and nothing is kept that was not kept before, the rest is read alike. -/
theorem reads_of_kept {written : ScopeId → String → Prop}
    (hvars : ∀ t m, ¬ written t m → (h'.scope t).vars.lookup m = (h.scope t).vars.lookup m)
    (howner : ∀ t, (h'.scope t).owner = (h.scope t).owner) (hkept : ∀ w, h'.Kept host' w → h.Kept host w) :
    Reads host h host' h' written where
  same t m hw hsame := by
    refine seen?_congr (hvars t m hw) (howner t) fun hm hnone o ho => ⟨hkept _, fun hk => ?_⟩
    subst hm
    exact Classical.byContradiction fun hlost => hsame ⟨rfl, lookup_eq_none_iff.1 hnone, o, ho, hk, hlost⟩
  gone t hw hforsakes := by
    obtain ⟨hbare, o, ho, -, hlost⟩ := hforsakes
    exact seen?_of_not_kept ((howner t).trans ho) ((hvars t _ hw).trans (lookup_eq_none_iff.2 hbare)) hlost

/-- One slot of one scope gets a value that the host hands over, and nothing else changes. -/
structure Writes (host : Host) (h : Heap) (s : ScopeId) (n : String) (v : Value) (h' : Heap) : Prop where
  value : h'.seen? host s n = some v
  reads : Reads (host.passing v) h host h' fun t m => t = s ∧ m = n
  scopes : ∀ t, t ≠ s → h'.scope t = h.scope t
  place : h'.parent? s = h.parent? s ∧ (h'.scope s).owner = (h.scope s).owner
  rest : h' = { h with scopes := h'.scopes } ∧ h'.scopes.size = h.scopes.size

theorem writes_define (host : Host) (hs : s.index < h.scopes.size) (n : String) (v : Value) :
    Writes host h s n v (h.define s n v) where
  value := seen?_of_lookup (by rw [lookup_define, if_pos ⟨⟨rfl, hs⟩, rfl⟩])
  reads := by
    refine reads_of_kept (fun t m hw => ?_) (fun t => owner_define h s t n v) fun w hw => hw.of_define
    rw [lookup_define, if_neg fun hc => hw ⟨hc.1.1, hc.2⟩]
  scopes t ht := by rw [scope_define_eq, if_neg fun hc => ht hc.1]
  place := ⟨parent_define h s s n v, owner_define h s s n v⟩
  rest := ⟨rfl, size_define h s n v⟩

/-- A value that is written where the lookup of a name comes first is found. -/
theorem found?_define (host : Host) (hs : s.index < h.scopes.size) (hchain : h.chain e = inner ++ s :: outer)
    (hinner : ∀ t ∈ inner, t ≠ s ∧ h.getLocal? t n = none) : (h.define s n v).found? host e n = some v := by
  have hsame : (h.define s n v).chain e = h.chain e := chain_congr fun t _ => parent_define _ _ _ _ _
  have hnone : inner.findSome? ((h.define s n v).seen? host · n) = none := by
    refine List.findSome?_eq_none_iff.2 fun t ht => seen?_of_getLocal?_eq_none ?_
    rw [getLocal?, scope_define_eq, if_neg fun hc => (hinner t ht).1 hc.1]
    exact (hinner t ht).2
  rw [found?, hsame, hchain, List.findSome?_append, hnone, List.findSome?_cons, (writes_define host hs n v).value]
  rfl

/-! ### Where an assignment goes -/

/-- The nearest of a scope and its ancestors that defines a name. -/
structure Nearest (h : Heap) (e : ScopeId) (n : String) (s : ScopeId) : Prop where
  defines : (h.scope s).defines n = true
  line : ∃ inner outer, Lineage h e (inner ++ s :: outer) ∧ ∀ t ∈ inner, (h.scope t).defines n = false

theorem getLocal?_of_not_defines (h : Heap) (hd : (h.scope t).defines n = false)
    (hthis : n ≠ thisName ∨ (h.scope t).isBound = false) : h.getLocal? t n = none := by
  have hnone : (h.scope t).vars.lookup n = none := by simpa [Scope.defines] using hd
  rw [getLocal?, Scope.get?, hnone]
  rcases hthis with hne | hbound
  · rw [if_neg hne]
  · have howner : (h.scope t).owner = none := by simpa [Scope.isBound] using hbound
    simp [howner]

theorem getLocal?_of_defines (h : Heap) (hd : (h.scope t).defines n = true) : ∃ w, h.getLocal? t n = some w := by
  obtain ⟨w, hw⟩ := Option.isSome_iff_exists.1 hd
  exact ⟨w, by rw [getLocal?, Scope.get?, hw]⟩

theorem definer?_eq_some (hd : h.definer? line n = some s) : (h.scope s).defines n = true ∧
    ∃ inner outer, line = inner ++ s :: outer ∧ ∀ t ∈ inner, (h.scope t).defines n = false := by
  obtain ⟨hs, inner, outer, hline, hinner⟩ := List.find?_eq_some_iff_append.1 hd
  exact ⟨hs, inner, outer, hline, fun t ht => by simpa using hinner t ht⟩

theorem ne_of_defines (hs : (h.scope s).defines n = true) (ht : (h.scope t).defines n = false) : t ≠ s := by
  rintro rfl
  rw [hs] at ht
  cases ht

/-- A name other than that of the receiver is found exactly if some scope of the chain defines it. -/
theorem resolve?_isSome_iff (hn : n ≠ thisName) :
    (∃ w, h.resolve? e n = some w) ↔ ∃ s, h.definer? (h.chain e) n = some s := by
  constructor
  · rintro ⟨w, hw⟩
    cases hd : h.definer? (h.chain e) n with
    | some s => exact ⟨s, rfl⟩
    | none =>
      obtain ⟨t, ht, hget⟩ := List.exists_of_findSome?_eq_some hw
      have hnot := List.find?_eq_none.1 hd t ht
      rw [getLocal?_of_not_defines h (Bool.eq_false_iff.2 hnot) (.inl hn)] at hget
      cases hget
  · rintro ⟨s, hs⟩
    obtain ⟨hdefines, inner, outer, hchain, -⟩ := definer?_eq_some hs
    obtain ⟨w, hw⟩ := getLocal?_of_defines h hdefines
    refine Option.isSome_iff_exists.1 (List.findSome?_isSome_iff.2 ⟨s, ?_, by rw [hw]; rfl⟩)
    rw [hchain]
    simp

/-- The scopes up to the first that holds fields: only the last of them may hold fields. -/
theorem upToFields_split (hsplit : h.upToFields line = inner ++ s :: outer) :
    (∀ t ∈ inner, (h.scope t).isBound = false) ∧ ∃ outer', line = inner ++ s :: outer' := by
  induction line generalizing inner with
  | nil => exact absurd hsplit.symm (by simp [upToFields])
  | cons a line ih =>
    rw [upToFields] at hsplit
    by_cases ha : (h.scope a).isBound = true
    · rw [if_pos ha] at hsplit
      cases inner with
      | nil =>
        obtain ⟨rfl, -⟩ := List.cons.inj hsplit
        exact ⟨nofun, line, rfl⟩
      | cons b inner => exact absurd (List.cons.inj hsplit).2.symm (by simp)
    · rw [if_neg ha] at hsplit
      cases inner with
      | nil =>
        obtain ⟨rfl, -⟩ := List.cons.inj hsplit
        exact ⟨nofun, line, rfl⟩
      | cons b inner =>
        obtain ⟨rfl, hrest⟩ := List.cons.inj hsplit
        obtain ⟨hbound, outer', rfl⟩ := ih hrest
        exact ⟨List.forall_mem_cons.2 ⟨Bool.eq_false_iff.2 ha, hbound⟩, outer', rfl⟩

/-- Where a field assignment goes: to a scope that defines the name or to the scope itself, with no fields before it. -/
theorem fieldSlot_split (h : Heap) (e : ScopeId) (n : String) : ∃ inner outer,
    h.chain e = inner ++ h.fieldSlot e n :: outer ∧
    (∀ t ∈ inner, (h.scope t).isBound = false ∧ (h.scope t).defines n = false) ∧
    ((h.scope (h.fieldSlot e n)).defines n = true ∨ inner = []) := by
  rw [fieldSlot]
  cases hd : h.definer? (h.upToFields (h.chain e)) n with
  | none =>
    obtain ⟨rest, hrest, -⟩ := h.chain_eq_cons e
    exact ⟨[], rest, hrest, nofun, .inr rfl⟩
  | some s =>
    obtain ⟨hdefines, inner, outer, hsplit, hinner⟩ := definer?_eq_some hd
    obtain ⟨hbound, outer', hchain⟩ := upToFields_split hsplit
    exact ⟨inner, outer', hchain, fun t ht => ⟨hbound t ht, hinner t ht⟩, .inl hdefines⟩

/-- A scope with no fields before it is no further up than the first fields. -/
theorem mem_of_splits {above inner' : List ScopeId} (hline : inner ++ s :: outer = inner' ++ f :: above)
    (hf : (h.scope f).isBound = true) (hinner : ∀ t ∈ inner, (h.scope t).isBound = false) : s ∈ inner' ∨ s = f := by
  rcases List.append_eq_append_iff.1 hline with ⟨mid, rfl, hmid⟩ | ⟨mid, rfl, hmid⟩
  · cases mid with
    | nil => exact .inr (List.cons.inj hmid).1
    | cons a mid =>
      obtain ⟨rfl, -⟩ := List.cons.inj hmid
      exact .inl (by simp)
  · cases mid with
    | nil => exact .inr (List.cons.inj hmid).1.symm
    | cons a mid =>
      obtain ⟨rfl, -⟩ := List.cons.inj hmid
      have hfree := hinner f (by simp)
      rw [hf] at hfree
      cases hfree

/-- Scopes above the nearest fields, and the fields of any other object: they are out of reach of a field assignment.
Where no fields lie around a scope, the fields of all objects are. -/
def OutOfReach (h : Heap) (e t : ScopeId) : Prop :=
  (∃ inner f above, Lineage h e (inner ++ f :: above) ∧ (∀ a ∈ inner, (h.scope a).isBound = false) ∧
    (h.scope f).isBound = true ∧ (t ∈ above ∨ t ≠ f ∧ (h.scope t).isBound = true)) ∨
  ∃ line, Lineage h e line ∧ (∀ a ∈ line, (h.scope a).isBound = false) ∧ (h.scope t).isBound = true

theorem ne_of_outOfReach (hh : h.Older) (ht : h.OutOfReach e t) (hline : Lineage h e (inner ++ s :: outer))
    (hinner : ∀ a ∈ inner, (h.scope a).isBound = false) : t ≠ s := by
  rintro rfl
  rcases ht with ⟨inner', f, above, hline', hinner', hf, ht⟩ | ⟨line, hline', hfree, hbound⟩
  · have hsame := hline.unique hline'
    have hnodup : (inner' ++ f :: above).Nodup := (hh.lineage e).unique hline' ▸ nodup_chain h e
    rcases mem_of_splits hsame hf hinner, ht with ⟨hmem | rfl, habove | ⟨hne, hbound⟩⟩
    · exact (List.nodup_append.1 hnodup).2.2 t hmem t (List.mem_cons_of_mem _ habove) rfl
    · rw [hinner' t hmem] at hbound
      cases hbound
    · exact (List.nodup_cons.1 (List.nodup_append.1 hnodup).2.1).1 habove
    · exact hne rfl
  · rw [hfree t (hline.unique hline' ▸ by simp)] at hbound
    cases hbound

/-! ### The two assignments -/

/-- What a plain assignment does. -/
theorem assign_eq (h : Heap) (e : ScopeId) (n : String) (v : Value) :
    (∃ s, h.definer? (h.chain e) n = some s ∧ h.assign e n v = .ok (h.define s n v)) ∨
      h.definer? (h.chain e) n = none ∧ h.assign e n v = .error (.undefinedVariable n) := by
  rw [assign, slot]
  cases h.definer? (h.chain e) n with
  | none => exact .inr ⟨rfl, rfl⟩
  | some s => exact .inl ⟨s, rfl, rfl⟩

theorem lt_of_mem_chain (he : e.index < h.scopes.size) (hchain : h.chain e = inner ++ s :: outer) :
    s.index < h.scopes.size := by
  have hmem : s ∈ h.chain e := by simp [hchain]
  exact Nat.lt_of_le_of_lt (le_of_mem_chain hmem) he

end Heap

/-- The instruction that stores to a name is a plain assignment in the current scope. -/
theorem Machine.dispatch_store_assign {i : Instruction} {name : String} (hop : i.op = .store name) (m : Machine)
    (v : Value) (entries : List Entry) :
    dispatch i (m.onStack (.value v :: entries)) =
      match m.heap.assign m.env name v with
      | .ok heap => .ok none ({ m with heap }.onStack entries)
      | .error c => .error c (m.onStack entries) := by
  rw [dispatch_store hop, Heap.assign]
  cases m.heap.slot m.env name <;> rfl

namespace Heap

variable {h : Heap} {e : ScopeId}

/-- **Assignments hit exactly one slot**, in every forest of scopes and for every host. A name other than that of the
receiver can be assigned to exactly if it can be read; the value goes to the nearest scope that defines the name, is
read back from there, and no other slot of any scope changes. If the name is undefined, the instruction that stores to
it fails and leaves the heap alone. A field assignment writes one slot too: the name is read back from the scope itself,
the slot is one of the scope or of an ancestor up to the nearest fields, and whatever lies above those fields or belongs
to another object is out of reach. Every other slot is read as before, with one exception: where the last handle to an
object is dropped, be it with what the slot held before or with a value that is refused, its fields know it as `this`
no more. -/
theorem writes_hit_one_slot (hh : Forest h) (he : e.index < h.scopes.size) (host : Host) (v : Value) :
    (∀ n, n ≠ thisName →
      ((∃ h', h.assign e n v = .ok h') ↔ ∃ w, h.found? (host.passing v) e n = some w) ∧
      (∀ h', h.assign e n v = .ok h' → h'.found? host e n = some v ∧ ∃ s, Nearest h e n s ∧ Writes host h s n v h') ∧
      ∀ c, h.assign e n v = .error c → c = .undefinedVariable n ∧
        Reads (host.passing v) h host h (fun _ _ => False) ∧
        ∀ (m : Machine) (i : Instruction) entries, m.heap = h → m.env = e → i.op = .store n →
          Machine.dispatch i (m.onStack (.value v :: entries)) = .error c (m.onStack entries)) ∧
    ∀ n, (h.assignField e n v).found? host e n = some v ∧
      (∃ inner s outer, Lineage h e (inner ++ s :: outer) ∧ (∀ t ∈ inner, (h.scope t).isBound = false) ∧
        Writes host h s n v (h.assignField e n v)) ∧
      ∀ t, h.OutOfReach e t → (h.assignField e n v).scope t = h.scope t := by
  have holder := hh.older
  refine ⟨fun n hn => ⟨?_, fun h' hassign => ?_, fun c hassign => ?_⟩, fun n => ?_⟩
  · rw [found?_of_ne hn, resolve?_isSome_iff hn]
    rcases assign_eq h e n v with ⟨s, hs, hok⟩ | ⟨hnone, herror⟩
    · exact ⟨fun _ => ⟨s, hs⟩, fun _ => ⟨_, hok⟩⟩
    · rw [hnone, herror]
      exact ⟨nofun, nofun⟩
  · rcases assign_eq h e n v with ⟨s, hs, hok⟩ | ⟨-, herror⟩
    · obtain rfl := Except.ok.inj (hok.symm.trans hassign)
      obtain ⟨hdefines, inner, outer, hchain, hinner⟩ := definer?_eq_some hs
      have hlt := lt_of_mem_chain he hchain
      have hfound := found?_define host hlt hchain (v := v) fun t ht =>
        ⟨ne_of_defines hdefines (hinner t ht), getLocal?_of_not_defines h (hinner t ht) (.inl hn)⟩
      exact ⟨hfound, s, ⟨hdefines, inner, outer, hchain ▸ holder.lineage e, hinner⟩, writes_define host hlt n v⟩
    · rw [herror] at hassign
      cases hassign
  · rcases assign_eq h e n v with ⟨s, -, hok⟩ | ⟨-, herror⟩
    · rw [hok] at hassign
      cases hassign
    · obtain rfl := Except.error.inj (herror.symm.trans hassign)
      refine ⟨rfl, reads_of_kept (fun _ _ _ => rfl) (fun _ => rfl) fun w hw => hw.passing v, ?_⟩
      intro m i entries hheap henv hop
      rw [Machine.dispatch_store_assign hop, hheap, henv, herror]
  · obtain ⟨inner, outer, hchain, hinner, hdefines⟩ := fieldSlot_split h e n
    have hlt := lt_of_mem_chain he hchain
    have hline : Lineage h e (inner ++ h.fieldSlot e n :: outer) := hchain ▸ holder.lineage e
    have hwrites := writes_define host hlt n v
    have hfound := found?_define host hlt hchain (n := n) (v := v) fun t ht => by
      refine ⟨?_, getLocal?_of_not_defines h (hinner t ht).2 (.inr (hinner t ht).1)⟩
      rcases hdefines with hdefines | rfl
      · exact ne_of_defines hdefines (hinner t ht).2
      · cases ht
    exact ⟨hfound, ⟨inner, _, outer, hline, fun t ht => (hinner t ht).1, hwrites⟩,
      fun t ht => hwrites.scopes t (ne_of_outOfReach holder ht hline fun a ha => (hinner a ha).1)⟩

/-- A host with all scopes and no values. -/
def onlooker : Host := { values := fun _ => False, scopes := fun _ => True, remembers := fun _ _ => False }

/-- A global name with the only handle to an object, a scope inside the fields of the object and a scope beside them. -/
def plot : Heap :=
  ((((({} : Heap).newRoot.2.newObject "Point" ⟨0⟩).2.define ⟨0⟩ "x" (.object ⟨0⟩)).newChild ⟨1⟩).2.newChild ⟨0⟩).2

theorem forest_plot : Forest plot := by
  have hroot : Forest ({} : Heap).newRoot.2 := .root .empty
  have hobject : Forest (({} : Heap).newRoot.2.newObject "Point" ⟨0⟩).2 := .object "Point" hroot (by decide)
  exact .child (.child (.define hobject (by decide)) (by decide)) (by decide)

/-- From inside the object, a plain assignment changes the global name; a field assignment leaves it alone. -/
theorem writes_hit_one_slot_plot : Forest plot ∧ 2 < plot.scopes.size ∧ "x" ≠ thisName ∧
    (∃ h', plot.assign ⟨2⟩ "x" (.bool true) = .ok h' ∧ h'.found? onlooker ⟨2⟩ "x" = some (.bool true) ∧
      ∃ s, Nearest plot ⟨2⟩ "x" s ∧ Writes onlooker plot s "x" (.bool true) h') ∧
    (plot.assignField ⟨2⟩ "x" (.bool true)).found? onlooker ⟨2⟩ "x" = some (.bool true) ∧
    (plot.assignField ⟨2⟩ "x" (.bool true)).getLocal? ⟨0⟩ "x" = some (.object ⟨0⟩) := by
  have hexists : (⟨2⟩ : ScopeId).index < plot.scopes.size := by decide
  have hne : "x" ≠ thisName := by decide
  have hread : ∃ w, plot.found? (onlooker.passing (.bool true)) ⟨2⟩ "x" = some w := by
    rw [found?_of_ne hne]
    exact Option.isSome_iff_exists.1 (by decide +kernel)
  have hreach : plot.OutOfReach ⟨2⟩ ⟨0⟩ :=
    .inl ⟨[⟨2⟩], ⟨1⟩, [⟨0⟩], .inside rfl (.inside rfl (.root rfl)), by decide, rfl, .inl (by simp)⟩
  obtain ⟨hplain, hfield⟩ := writes_hit_one_slot forest_plot hexists onlooker (.bool true)
  obtain ⟨hiff, hassigned, -⟩ := hplain "x" hne
  obtain ⟨h', hassign⟩ := hiff.2 hread
  obtain ⟨hfound, -, hkept⟩ := hfield "x"
  refine ⟨forest_plot, hexists, hne, ⟨h', hassign, hassigned h' hassign⟩, hfound, ?_⟩
  rw [getLocal?, hkept _ hreach]
  rfl

/-- Nothing keeps the object once the global name is something else. -/
theorem not_kept_plot : ¬ (plot.define ⟨0⟩ "x" .null).Kept onlooker (.object ⟨0⟩) := by
  rintro ⟨values, scopes, hk, hobject⟩
  rcases hk.value _ hobject with hhost | ⟨s, n, -, hlookup⟩ | ⟨a, -, hmem⟩ | ⟨handle, -, hmemory⟩
  · exact hhost
  · rw [lookup_define] at hlookup
    split at hlookup
    · cases hlookup
    · rename_i hslot
      obtain ⟨_ | _ | _ | _ | i⟩ := s
      · by_cases hn : n = "x"
        · exact hslot ⟨⟨rfl, by decide⟩, hn⟩
        · simp [plot, newRoot, newObject, newChild, newScope, define, scope, Scope.define, insertBinding,
            List.lookup_cons, beq_eq_false_iff_ne.2 hn] at hlookup
      · cases hlookup
      · cases hlookup
      · cases hlookup
      · have hmade : plot.scopes.size ≤ i + 4 := Nat.le_add_left 4 i
        rw [scope_of_le hmade] at hlookup
        cases hlookup
  · simp [elements, plot, newRoot, newObject, newChild, newScope, define] at hmem
  · exact hmemory

/-- An assignment may change what `this` means elsewhere: the global name had the only handle to the object. And where no
fields lie around a scope, a field assignment may go to a scope that lies around the fields of an object. -/
theorem writes_drop_receivers :
    (¬ ∀ (host : Host) (h h' : Heap) (e : ScopeId) (n : String) (v : Value), Forest h → e.index < h.scopes.size →
      n ≠ thisName → h.assign e n v = .ok h' → ∀ s m, ¬ (m = n ∧ Nearest h e n s) →
        h'.seen? host s m = h.seen? (host.passing v) s m) ∧
    ¬ ∀ (host : Host) (h : Heap) (e : ScopeId) (n : String) (v : Value), Forest h → e.index < h.scopes.size →
      ∀ s f, (h.scope f).isBound = true → h.parent? f = some s →
        ∀ m, (h.assignField e n v).seen? host s m = h.seen? (host.passing v) s m := by
  refine ⟨fun hall => ?_, fun hall => ?_⟩
  · have hbefore : plot.seen? (onlooker.passing .null) ⟨1⟩ thisName = some (.object ⟨0⟩) := by
      rw [seen?_of_kept]
      · rfl
      · rintro o ho
        obtain rfl := Option.some.inj ho
        exact .of_lookup (s := ⟨0⟩) (n := "x") trivial rfl
    have hafter : (plot.define ⟨0⟩ "x" .null).seen? onlooker ⟨1⟩ thisName = none :=
      seen?_of_not_kept (o := ⟨0⟩) rfl rfl not_kept_plot
    have hchain : plot.chain ⟨2⟩ = [⟨2⟩, ⟨1⟩, ⟨0⟩] :=
      (forest_plot.older.lineage _).unique (.inside rfl (.inside rfl (.root rfl)))
    have hassign : plot.assign ⟨2⟩ "x" .null = .ok (plot.define ⟨0⟩ "x" .null) := by
      rw [assign, slot, hchain]
      rfl
    have hsame := hall onlooker plot _ ⟨2⟩ "x" .null forest_plot (by decide) (by decide) hassign ⟨1⟩ thisName
      fun hc => absurd hc.1 (by decide)
    rw [hafter, hbefore] at hsame
    cases hsame
  · have hchain : plot.chain ⟨3⟩ = [⟨3⟩, ⟨0⟩] := (forest_plot.older.lineage _).unique (.inside rfl (.root rfl))
    have hslot : plot.fieldSlot ⟨3⟩ "x" = ⟨0⟩ := by
      rw [fieldSlot, hchain]
      rfl
    have hwritten : (plot.assignField ⟨3⟩ "x" .null).seen? onlooker ⟨0⟩ "x" = some .null := by
      rw [assignField, hslot]
      exact seen?_of_lookup rfl
    have hbefore : plot.seen? (onlooker.passing .null) ⟨0⟩ "x" = some (.object ⟨0⟩) := seen?_of_lookup rfl
    have hsame := hall onlooker plot ⟨3⟩ "x" .null forest_plot (by decide) ⟨0⟩ ⟨1⟩ rfl rfl "x"
    rw [hwritten, hbefore] at hsame
    cases hsame

end Heap

end ScriptMachine
