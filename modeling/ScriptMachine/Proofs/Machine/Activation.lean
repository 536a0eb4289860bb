import ScriptMachine.Proofs.Value.Hidden

/-!
# Activation — the scopes of the script and of each call

A machine remembers scopes in many places: its own, and those in loop markers, try regions and frames. Which of them
were made by which call it does not remember. A `History` does: it follows the machine and keeps an `Activation` for
the script and for every call, with the scopes that were made in it. As long as these are hidden and no two activations
share one (`Census`), none of them lies on the chain of another activation (`Census.apart`).
-/

namespace ScriptMachine

/-! ### Activations -/

/-- The script or a call: the scope of the call, the fields of the object that receives it, and the block scopes that
were opened in it. -/
structure Activation where
  scope : Option ScopeId := none
  receiver : Option ScopeId := none
  blocks : List ScopeId := []
  deriving DecidableEq

namespace Activation

/-- The scopes that were made in an activation. -/
def locals (a : Activation) : List ScopeId := a.blocks ++ a.scope.toList

/-- What lies around the blocks of an activation: the scope of the call inside the fields of the receiver or the
globals; around those of the script the globals. -/
def outer (a : Activation) (h : Heap) (globals : ScopeId) : List ScopeId :=
  match a.scope with
  | none => h.chain globals
  | some s => s :: h.chain (a.receiver.getD globals)

/-- An activation with one more block. -/
def opened (a : Activation) (s : ScopeId) : Activation := { a with blocks := s :: a.blocks }

/-- A scope of an activation, a number of blocks inside the scope of the call. -/
structure Holds (a : Activation) (h : Heap) (globals : ScopeId) (k : Nat) (s : ScopeId) : Prop where
  lt : s.index < h.scopes.size
  chain : ∃ blocks, h.chain s = blocks ++ a.outer h globals ∧ blocks.length = k ∧ blocks ⊆ a.blocks

variable {a : Activation} {h h' : Heap} {may : ScopeId → Prop} {globals s env : ScopeId} {k : Nat}

theorem outer_eq_cons (a : Activation) (h : Heap) (globals : ScopeId) : ∃ s rest, a.outer h globals = s :: rest := by
  unfold outer
  split
  · obtain ⟨rest, hrest, -⟩ := h.chain_eq_cons globals
    exact ⟨globals, rest, hrest⟩
  · exact ⟨_, _, rfl⟩

theorem outer_spared (hs : Heap.Spares may h h') (hlt : ∀ t ∈ a.outer h globals, t.index < h.scopes.size) :
    a.outer h' globals = a.outer h globals := by
  unfold outer at hlt ⊢
  split at hlt
  · exact hs.chain (hlt _ (Heap.self_mem_chain h globals))
  · rw [hs.chain (hlt _ (List.mem_cons_of_mem _ (Heap.self_mem_chain h _)))]

theorem Holds.spares (hs : Heap.Spares may h h') (ha : a.Holds h globals k s) : a.Holds h' globals k s := by
  obtain ⟨blocks, hchain, hlen, hsub⟩ := ha.chain
  refine ⟨Nat.lt_of_lt_of_le ha.lt hs.size, blocks, ?_, hlen, hsub⟩
  rw [hs.chain ha.lt, hchain, outer_spared hs]
  intro t ht
  have hmem : t ∈ h.chain s := hchain ▸ List.mem_append_right _ ht
  exact Nat.lt_of_le_of_lt (Heap.le_of_mem_chain hmem) ha.lt

theorem Holds.opened (ha : a.Holds h globals k s) (new : ScopeId) : (a.opened new).Holds h globals k s := by
  obtain ⟨blocks, hchain, hlen, hsub⟩ := ha.chain
  exact ⟨ha.lt, blocks, hchain, hlen, fun t ht => List.mem_cons_of_mem _ (hsub ht)⟩

/-- A block is opened inside a scope of the activation. -/
theorem Holds.enterScope (ha : a.Holds h globals k env) (ho : Heap.Opens h h' s env) :
    (a.opened s).Holds h' globals (k + 1) s := by
  obtain ⟨blocks, hchain, hlen, hsub⟩ := (ha.spares ho.spares).chain
  refine ⟨ho.hidden.lt, s :: blocks, ?_, by rw [List.length_cons, hlen], List.cons_subset_cons s hsub⟩
  rw [ho.chain, hchain]
  rfl

/-- Out of a block there is a scope to go back to, and it is one of the same activation. -/
theorem Holds.leaveScope (ha : a.Holds h globals (k + 1) s) :
    s ∈ a.blocks ∧ ∃ outer, h.parent? s = some outer ∧ a.Holds h globals k outer := by
  obtain ⟨blocks, hchain, hlen, hsub⟩ := ha.chain
  obtain ⟨b, rest, rfl⟩ := List.exists_cons_of_length_eq_add_one hlen
  obtain ⟨first, others, houter⟩ := a.outer_eq_cons h globals
  obtain ⟨i⟩ := s
  rw [Heap.chain, Heap.chainFrom_eq, List.cons_append, List.cons.injEq] at hchain
  obtain ⟨rfl, hrest⟩ := hchain
  refine ⟨hsub List.mem_cons_self, ?_⟩
  cases hp : h.parent? ⟨i⟩ with
  | none =>
    rw [hp, houter] at hrest
    simp at hrest
  | some p =>
    rw [hp] at hrest
    simp only at hrest
    split at hrest
    · rename_i hlt
      refine ⟨p, rfl, Nat.lt_trans hlt ha.lt, rest, hrest, Nat.succ.inj hlen, fun t ht => hsub ?_⟩
      exact List.mem_cons_of_mem _ ht
    · rw [houter] at hrest
      simp at hrest

/-- The scope of a call that begins. -/
theorem holds_entered {receiver : Option ScopeId} (ho : Heap.Opens h h' s (receiver.getD globals)) :
    (⟨some s, receiver, []⟩ : Activation).Holds h' globals 0 s :=
  ⟨ho.hidden.lt, [], ho.chain, rfl, fun _ ht => ht⟩

/-- The globals belong to the script. -/
theorem holds_script (hg : globals.index < h.scopes.size) : ({} : Activation).Holds h globals 0 globals :=
  ⟨hg, [], rfl, rfl, fun _ ht => ht⟩

end Activation

/-- The scopes that were made in some activations. -/
def localsOf (all : List Activation) : List ScopeId := all.flatMap Activation.locals

/-- The scopes of activations are hidden, and no two activations share one. A call that has a receiver defines it in its
own scope. -/
structure Census (h : Heap) (globals : ScopeId) (all : List Activation) : Prop where
  founded : h.Founded
  root : h.parent? globals = none
  plain : (h.scope globals).owner = none
  exist : globals.index < h.scopes.size
  hidden : ∀ s ∈ localsOf all, h.Hidden s ∧ (h.scope s).owner = none
  nodup : (localsOf all).Nodup
  receivers : ∀ a ∈ all, ∀ r, a.receiver = some r → r.index < h.scopes.size ∧ ∀ s ∈ h.chain r, s ∉ localsOf all
  bound : ∀ a ∈ all, ∀ r s, a.receiver = some r → a.scope = some s → (h.scope s).defines thisName = true

namespace Census

variable {h h' : Heap} {may : ScopeId → Prop} {globals s outer : ScopeId} {all all' : List Activation} {a : Activation}

theorem mem_localsOf (ha : a ∈ all) (hscope : a.scope = some s) : s ∈ localsOf all :=
  List.mem_flatMap.2 ⟨a, ha, List.mem_append_right _ (by rw [hscope]; exact List.mem_singleton_self s)⟩

theorem spares (hc : Census h globals all) (hs : Heap.Spares may h h') : Census h' globals all where
  founded := hs.founded
  root := (hs.parent _ hc.exist).trans hc.root
  plain := (hs.owner _ hc.exist).trans hc.plain
  exist := Nat.lt_of_lt_of_le hc.exist hs.size
  hidden s hm := ⟨hs.hidden s (hc.hidden s hm).1, (hs.owner s (hc.hidden s hm).1.lt).trans (hc.hidden s hm).2⟩
  nodup := hc.nodup
  receivers a ha r hr := by
    obtain ⟨hlt, hapart⟩ := hc.receivers a ha r hr
    exact ⟨Nat.lt_of_lt_of_le hlt hs.size, by rw [hs.chain hlt]; exact hapart⟩
  bound a ha r s hr hscope :=
    hs.defined s (hc.hidden s (mem_localsOf ha hscope)).1 _ (hc.bound a ha r s hr hscope)

theorem perm (hc : Census h globals all) (hp : all.Perm all') : Census h globals all' := by
  have hlocals : (localsOf all).Perm (localsOf all') := hp.flatMap_right _
  refine ⟨hc.founded, hc.root, hc.plain, hc.exist, fun s hs => hc.hidden s (hlocals.mem_iff.2 hs),
    hlocals.nodup_iff.1 hc.nodup, fun a ha r hr => ?_, fun a ha => hc.bound a (hp.mem_iff.2 ha)⟩
  obtain ⟨hlt, hapart⟩ := hc.receivers a (hp.mem_iff.2 ha) r hr
  exact ⟨hlt, fun s hs hmem => hapart s hs (hlocals.mem_iff.2 hmem)⟩

/-- One more scope, which is new, and receivers that objects lead to. -/
theorem extend (hc : Census h globals all) (ho : Heap.Opens h h' s outer) (hlocals : localsOf all' = s :: localsOf all)
    (hreceivers : ∀ a ∈ all', ∀ r, a.receiver = some r → (∃ b ∈ all, b.receiver = some r ∧ b.scope = a.scope) ∨
      (∃ o, r = h'.fields o) ∧ ∀ t, a.scope = some t → (h'.scope t).defines thisName = true) :
    Census h' globals all' := by
  have hc' := hc.spares ho.spares
  refine ⟨hc'.founded, hc'.root, hc'.plain, hc'.exist, fun t ht => ?_, ?_, fun a ha r hr => ?_,
    fun a ha r t hr hscope => ?_⟩
  · rw [hlocals] at ht
    rcases List.mem_cons.1 ht with rfl | ht
    · exact ⟨ho.hidden, ho.plain⟩
    · exact hc'.hidden t ht
  · rw [hlocals, List.nodup_cons]
    refine ⟨fun hmem => ?_, hc.nodup⟩
    exact absurd (hc.hidden s hmem).1.lt (Nat.not_lt_of_le ho.fresh)
  · rw [hlocals]
    rcases hreceivers a ha r hr with ⟨b, hb, hbr, -⟩ | ⟨⟨o, rfl⟩, -⟩
    · -- the chain of an old receiver is as old as the receiver
      obtain ⟨hlt, hapart⟩ := hc'.receivers b hb r hbr
      refine ⟨hlt, fun t ht hmem => ?_⟩
      rcases List.mem_cons.1 hmem with rfl | hmem
      · have hle := Heap.le_of_mem_chain ht
        have hold := (hc.receivers b hb r hbr).1
        exact absurd (Nat.lt_of_le_of_lt hle hold) (Nat.not_lt_of_le ho.fresh)
      · exact hapart t ht hmem
    · refine ⟨hc'.founded o, fun t ht hmem => ?_⟩
      have hhidden : h'.Hidden t := by
        rcases List.mem_cons.1 hmem with rfl | hmem
        · exact ho.hidden
        · exact (hc'.hidden t hmem).1
      exact hhidden.2 o ht
  · rcases hreceivers a ha r hr with ⟨b, hb, hbr, hscopes⟩ | ⟨-, hbound⟩
    · exact hc'.bound b hb r t hbr (hscopes.trans hscope)
    · exact hbound t hscope

theorem opened (hc : Census h globals (a :: all)) (ho : Heap.Opens h h' s outer) :
    Census h' globals (a.opened s :: all) := by
  refine hc.extend ho rfl fun b hb r hr => .inl ?_
  rcases List.mem_cons.1 hb with rfl | hb
  · exact ⟨a, List.mem_cons_self, hr, rfl⟩
  · exact ⟨b, List.mem_cons_of_mem _ hb, hr, rfl⟩

theorem entered {receiver : Option ScopeId} (hc : Census h globals all) (ho : Heap.Opens h h' s outer)
    (hr : ∀ r, receiver = some r → (∃ o, r = h'.fields o) ∧ (h'.scope s).defines thisName = true) :
    Census h' globals (⟨some s, receiver, []⟩ :: all) := by
  refine hc.extend ho rfl fun b hb r hbr => ?_
  rcases List.mem_cons.1 hb with rfl | hb
  · obtain ⟨hobject, hbound⟩ := hr r hbr
    exact .inr ⟨hobject, fun t ht => Option.some.inj ht ▸ hbound⟩
  · exact .inl ⟨b, hb, hbr, rfl⟩

/-- The scopes of other activations lie off the chain of an activation. -/
theorem apart {others : List Activation} {k : Nat} {env : ScopeId} (hc : Census h globals (a :: others))
    (hheld : a.Holds h globals k env) {b : Activation} (hb : b ∈ others) {t : ScopeId} (ht : t ∈ b.locals) :
    t ∉ h.chain env := by
  have hmem : t ∈ localsOf others := List.mem_flatMap.2 ⟨b, hb, ht⟩
  have hall : t ∈ localsOf (a :: others) := List.mem_append_right _ hmem
  have hown : t ∉ a.locals := fun h => (List.nodup_append.1 hc.nodup).2.2 t h t hmem rfl
  have hglobal : t ∉ h.chain globals := by
    rw [Heap.chain_root hc.root, List.mem_singleton]
    rintro rfl
    obtain ⟨p, hp⟩ := (hc.hidden t hall).1.1
    rw [hc.root] at hp
    cases hp
  obtain ⟨blocks, hchain, -, hsub⟩ := hheld.chain
  rw [hchain, List.mem_append, not_or]
  refine ⟨fun h => hown (List.mem_append_left _ (hsub h)), fun h => ?_⟩
  unfold Activation.outer at h
  split at h
  · exact hglobal h
  · rename_i s hs
    rcases List.mem_cons.1 h with rfl | h
    · exact hown (List.mem_append_right _ (by rw [hs]; exact List.mem_singleton_self t))
    · cases hr : a.receiver with
      | none =>
        rw [hr] at h
        exact hglobal h
      | some r =>
        rw [hr] at h
        exact (hc.receivers a List.mem_cons_self r hr).2 t h hall

end Census

/-! ### Histories -/

/-- The number of frames among some entries. -/
def frameCount : List Entry → Nat
  | [] => 0
  | .frame _ :: s => frameCount s + 1
  | _ :: s => frameCount s

namespace Machine

/-- The number of calls under way. -/
def frames (m : Machine) : Nat := frameCount m.stack.entries

/-- The object that receives the call that an instruction makes. -/
def receiver? (m : Machine) : Opcode → Option ObjectId
  | .call _ true =>
    match m.stack.entries with
    | _ :: .value receiver :: _ => receivingObject (some receiver)
    | _ => none
  | .createObject _ _ => some ⟨m.heap.objects.size⟩
  | _ => none

/-- The activation of a call that has just begun. -/
def activation (m : Machine) (receiver : Option ObjectId) : Activation :=
  ⟨some m.env, receiver.map m.heap.fields, []⟩

end Machine

/-- The activation at work, those that wait for it, innermost first, and those that are over. -/
structure History where
  current : Activation := {}
  callers : List Activation := []
  past : List Activation := []
  deriving DecidableEq

namespace History

/-- The activations under way. -/
def active (H : History) : List Activation := H.current :: H.callers

/-- All activations but the one at work. -/
def others (H : History) : List Activation := H.callers ++ H.past

def all (H : History) : List Activation := H.current :: H.others

/-- A call begins. -/
def enter (H : History) (a : Activation) : History := ⟨a, H.active, H.past⟩

/-- The activation at work opens a block. -/
def opens (H : History) (s : ScopeId) : History := { H with current := H.current.opened s }

/-- Some activations are over. -/
def leave (H : History) (n : Nat) : History :=
  match H.active.drop n with
  | [] => H
  | a :: as => ⟨a, as, H.active.take n ++ H.past⟩

/-- The history after the instruction at the place of a machine, which leads to another machine: with one more frame a
call has begun, with fewer frames calls are over. -/
def follow (H : History) (v w : Machine) : History :=
  match v.program.instruction? v.sectionIndex v.pc with
  | none => H
  | some i =>
    if v.frames < w.frames then H.enter (w.activation (v.receiver? i.op))
    else
      match i.op with
      | .enterScope => H.opens w.env
      | _ => H.leave (v.frames - w.frames)

/-- The history after some machines that lead to another. -/
def along (H : History) : List Machine → Machine → History
  | [], _ => H
  | v :: vs, w => (H.follow v (vs.headD w)).along vs w

variable {H : History} {v w : Machine} {i : Instruction} {dropped as : List Activation} {b : Activation}

theorem leave_eq (h : H.active = dropped ++ b :: as) : H.leave dropped.length = ⟨b, as, dropped ++ H.past⟩ := by
  simp [leave, h]

theorem all_leave (H : History) (n : Nat) : (H.leave n).all.Perm H.all := by
  unfold leave
  split
  · exact .refl _
  · rename_i a as hdrop
    have hall : H.all = H.active.take n ++ (a :: as ++ H.past) := by
      rw [← hdrop, ← List.append_assoc, List.take_append_drop]
      rfl
    rw [hall]
    show (a :: as ++ (H.active.take n ++ H.past)).Perm _
    rw [← List.append_assoc, ← List.append_assoc]
    exact List.perm_append_comm.append_right _

theorem follow_enter (hi : v.program.instruction? v.sectionIndex v.pc = some i) (hf : w.frames = v.frames + 1) :
    H.follow v w = H.enter (w.activation (v.receiver? i.op)) := by
  simp only [follow, hi, if_pos (show v.frames < w.frames by omega)]

theorem follow_opens (hi : v.program.instruction? v.sectionIndex v.pc = some i) (hop : i.op = .enterScope)
    (hf : w.frames = v.frames) : H.follow v w = H.opens w.env := by
  simp only [follow, hi, hop, if_neg (show ¬ v.frames < w.frames by omega)]

theorem follow_leave {n : Nat} (hi : v.program.instruction? v.sectionIndex v.pc = some i) (hop : i.op ≠ .enterScope)
    (hf : w.frames + n = v.frames) : H.follow v w = H.leave n := by
  obtain rfl : n = v.frames - w.frames := by omega
  simp only [follow, hi, if_neg (show ¬ v.frames < w.frames by omega)]

end History

end ScriptMachine
