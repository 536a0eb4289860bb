import ScriptMachine.Proofs.Compile.Coupling
import ScriptMachine.Proofs.Native.Indifferent
import ScriptMachine.Proofs.Value.Lodging
import ScriptMachine.Proofs.Machine.Exec

/-!
# Abreast — two machines with coupled programs

A machine stands abreast of another when both are at the same place of coupled programs, with the same
entries on their stacks and heaps that lie beside each other. `Tracks` says of two steps that they keep
machines abreast and end the same way; it is proved here of the steps that instructions are made of.
-/

namespace ScriptMachine

open Compile

variable {P Q : Program}

namespace Coupling

/-- Where the code of an instruction begins in the other program. -/
def place (X : Coupling P Q) (x pc : Nat) : Nat := Compile.place (X.sheet x) pc

/-- The hidden scopes at a place. -/
def lodges (X : Coupling P Q) (x pc : Nat) : List Lodge := Compile.lodges (X.sheet x) pc

/-- Places with an instruction. -/
def Inside (X : Coupling P Q) (x pc : Nat) : Prop := pc < (X.sheet x).length

/-- Places where a run can go on: those with an instruction, and the beginnings of sections. -/
def Entrance (X : Coupling P Q) (x pc : Nat) : Prop := pc = 0 ∨ X.Inside x pc

@[simp] theorem place_zero (X : Coupling P Q) (x : Nat) : X.place x 0 = 0 := rfl

@[simp] theorem lodges_zero (X : Coupling P Q) (x : Nat) : X.lodges x 0 = [] := (X.strand x).first

end Coupling

/-- A frame in the other program. -/
def Frame.across (f : Frame) (X : Coupling P Q) : Frame := { f with returnPc := X.place f.returnSection f.returnPc }

/-- A region in the other program. -/
def Region.across (r : Region) (X : Coupling P Q) : Region :=
  { r with handlerPc := X.place r.sectionIndex r.handlerPc, finalPc := r.finalPc.map (X.place r.sectionIndex) }

/-- An entry in the other program. -/
def Entry.across (X : Coupling P Q) : Entry → Entry
  | .value v => .value (v.repooled X.pool)
  | .frame f => .frame (f.across X)
  | .region r => .region (r.across X)
  | .loop env => .loop env

@[simp] theorem Entry.kind_across (X : Coupling P Q) (e : Entry) : (e.across X).kind = e.kind := by
  cases e <;> rfl

namespace Machine

/-- A marker leads back to scopes that are lodged as the code there expects. A script goes on behind its calls. -/
def Housed (X : Coupling P Q) (N : Nooks) (h H : Heap) : Entry → Prop
  | .value _ => True
  | .frame f => Heap.Lodged N h H (X.lodges f.returnSection f.returnPc) f.env ∧
    (f.fromHost = false → X.Inside f.returnSection f.returnPc)
  | .region r => Heap.Lodged N h H [] r.env ∧ X.lodges r.sectionIndex r.handlerPc = [] ∧
    X.Inside r.sectionIndex r.handlerPc
  | .loop env => Heap.Lodged N h H [] env

/-- Machines at the same place of coupled programs. -/
structure Abreast (X : Coupling P Q) (N : Nooks) (m M : Machine) : Prop where
  program : m.program = P
  program' : M.program = Q
  entries : M.stack.entries = m.stack.entries.map (·.across X)
  sectionIndex : M.sectionIndex = m.sectionIndex
  pc : M.pc = X.place m.sectionIndex m.pc
  env : M.env = m.env
  globals : M.globals = m.globals
  state : M.state = m.state
  registry : M.registry = m.registry
  hosts : M.hosts = m.hosts
  log : M.log = m.log
  hostCalls : M.hostCalls = m.hostCalls
  exception : M.lastException = m.lastException.map (·.repooled X.pool)
  grounds : Heap.Grounds X.pool N m.heap M.heap
  global : Heap.Lodged N m.heap M.heap [] m.globals
  lodged : Heap.Lodged N m.heap M.heap (X.lodges m.sectionIndex m.pc) m.env
  housed : ∀ e ∈ m.stack.entries, Housed X N m.heap M.heap e
  indifferent : m.hosts.Indifferent

namespace Abreast

variable {X : Coupling P Q} {N : Nooks} {m M : Machine} {h' H' : Heap} {x pc : Nat} {env : ScopeId}

theorem beside (hm : Abreast X N m M) : Heap.Beside X.pool N.Hidden m.heap M.heap := hm.grounds.beside

theorem housed_step {h H : Heap} {e : Entry} (hi : Heap.InStep X.pool N.Hidden h H h' H') (he : Housed X N h H e) :
    Housed X N h' H' e := by
  cases e with
  | value => trivial
  | frame f => exact ⟨hi.lodged he.1, he.2⟩
  | region r => exact ⟨hi.lodged he.1, he.2⟩
  | loop env => exact hi.lodged he

/-- Other heaps, with the hidden scopes left alone. -/
theorem onHeap (hm : Abreast X N m M) (hi : Heap.InStep X.pool N.Hidden m.heap M.heap h' H') :
    Abreast X N { m with heap := h' } { M with heap := H' } :=
  { hm with
    grounds := hi.grounds hm.grounds, global := hi.lodged hm.global, lodged := hi.lodged hm.lodged
    housed := fun e he => housed_step hi (hm.housed e he) }

/-- Other stacks. -/
theorem onEntries (hm : Abreast X N m M) {s S : Stack} (hS : S.entries = s.entries.map (·.across X))
    (hs : ∀ e ∈ s.entries, Housed X N m.heap M.heap e) : Abreast X N { m with stack := s } { M with stack := S } :=
  { hm with entries := hS, housed := hs }

theorem top (hm : Abreast X N m M) : M.stack.top? = m.stack.top?.map (·.across X) := by
  rw [Stack.top?, hm.entries]
  exact List.head?_map

theorem depth (hm : Abreast X N m M) : M.stack.depth = m.stack.depth := by
  rw [Stack.depth_eq, Stack.depth_eq, hm.entries, List.length_map]

theorem dropped (hm : Abreast X N m M) : Abreast X N { m with stack := m.stack.drop } { M with stack := M.stack.drop } :=
  hm.onEntries (by rw [Stack.entries_drop, Stack.entries_drop, hm.entries, List.map_tail])
    fun e he => hm.housed e (List.mem_of_mem_tail he)

theorem pushed (hm : Abreast X N m M) {e : Entry} (he : Housed X N m.heap M.heap e) :
    Abreast X N { m with stack := m.stack.push e } { M with stack := M.stack.push (e.across X) } :=
  hm.onEntries (by rw [Stack.entries_push, Stack.entries_push, hm.entries, List.map_cons]) fun e' he' => by
    rcases List.mem_cons.1 he' with rfl | he'
    · exact he
    · exact hm.housed e' he'

end Abreast

/-! ### Steps -/

/-- How a step ends on machines that stand abreast. -/
inductive Abreast.Ended {α β : Type} (X : Coupling P Q) (N : Nooks) (R : Machine → Machine → α → β → Prop) :
    EStateM.Result Cause Machine α → EStateM.Result Cause Machine β → Prop where
  | ok {a b m M} : Abreast X N m M → R m M a b → Ended X N R (.ok a m) (.ok b M)
  | error {c m M} : Abreast X N m M → Ended X N R (.error c m) (.error (c.repooled X.pool) M)

/-- Two steps that keep machines abreast, from machines that are related as `I` says, with results that are
related as `R` says of the machines in the end. -/
def Abreast.Tracks {α β : Type} (X : Coupling P Q) (N : Nooks) (I : Machine → Machine → Prop)
    (R : Machine → Machine → α → β → Prop) (x : Exec α) (y : Exec β) : Prop :=
  ∀ m M, Abreast X N m M → I m M → Abreast.Ended X N R (x m) (y M)

namespace Abreast

/-- Machines whose place is as `A` says. -/
def At (A : Nat → Nat → Prop) : Machine → Machine → Prop := fun m _ => A m.sectionIndex m.pc

/-- Results that are the same, where the place is as `A` says. -/
def Equal {α : Type} (A : Nat → Nat → Prop) : Machine → Machine → α → α → Prop :=
  fun m _ a b => A m.sectionIndex m.pc ∧ b = a

/-- A value that is the same up to numbers of constants. -/
def Mirrors (f : Nat → Nat) (A : Nat → Nat → Prop) : Machine → Machine → Value → Value → Prop :=
  fun m _ v w => A m.sectionIndex m.pc ∧ w = v.repooled f

/-- Values in order. -/
def MirrorsAll (f : Nat → Nat) (A : Nat → Nat → Prop) : Machine → Machine → List Value → List Value → Prop :=
  fun m _ vs ws => A m.sectionIndex m.pc ∧ ws = vs.map (·.repooled f)

/-- A value that may be absent. -/
def MirrorsSome (f : Nat → Nat) (A : Nat → Nat → Prop) : Machine → Machine → Option Value → Option Value → Prop :=
  fun m _ v w => A m.sectionIndex m.pc ∧ w = v.map (·.repooled f)

/-- An entry of the stack. -/
def MirrorsEntry (X : Coupling P Q) (N : Nooks) (A : Nat → Nat → Prop) :
    Machine → Machine → Option Entry → Option Entry → Prop :=
  fun m M e e' => A m.sectionIndex m.pc ∧ e' = e.map (·.across X) ∧ ∀ x, e = some x → Housed X N m.heap M.heap x

variable {X : Coupling P Q} {N : Nooks} {A B : Nat → Nat → Prop}

section Rules

variable {α β γ δ : Type} {I J : Machine → Machine → Prop} {R : Machine → Machine → α → β → Prop}
  {S : Machine → Machine → γ → δ → Prop}

theorem Tracks.bind {x : Exec α} {y : Exec β} {f : α → Exec γ} {g : β → Exec δ} (hx : Tracks X N I R x y)
    (hf : ∀ a b, Tracks X N (fun m M => R m M a b) S (f a) (g b)) : Tracks X N I S (x >>= f) (y >>= g) := by
  intro m M hm hI
  have h := hx m M hm hI
  rw [exec_bind, exec_bind]
  revert h
  generalize x m = r, y M = r'
  intro h
  cases h with
  | ok hm' hR => exact hf _ _ _ _ hm' hR
  | error hm' => exact .error hm'

theorem Tracks.weaken {R' : Machine → Machine → α → β → Prop} {x : Exec α} {y : Exec β} (hx : Tracks X N J R x y)
    (hI : ∀ m M, I m M → J m M) (hR : ∀ m M a b, R m M a b → R' m M a b) : Tracks X N I R' x y := by
  intro m M hm hm'
  have h := hx m M hm (hI m M hm')
  revert h
  generalize x m = r, y M = r'
  intro h
  cases h with
  | ok hm' h => exact .ok hm' (hR _ _ _ _ h)
  | error hm' => exact .error hm'

theorem Tracks.map {x : Exec α} {y : Exec β} {f : α → γ} {g : β → δ} (hx : Tracks X N I R x y)
    (hf : ∀ m M a b, R m M a b → S m M (f a) (g b)) : Tracks X N I S (f <$> x) (g <$> y) := by
  intro m M hm hI
  have h := hx m M hm hI
  show Ended X N S (EStateM.map f x m) (EStateM.map g y M)
  unfold EStateM.map
  revert h
  generalize x m = r, y M = r'
  intro h
  cases h with
  | ok hm' hR => exact .ok hm' (hf _ _ _ _ hR)
  | error hm' => exact .error hm'

theorem tracks_pure {a : α} {b : β} (h : ∀ m M, Abreast X N m M → I m M → R m M a b) :
    Tracks X N I R (pure a : Exec α) (pure b : Exec β) := fun m M hm hI => .ok hm (h m M hm hI)

theorem tracks_reads {f : Machine → α} {g : Machine → β}
    (h : ∀ m M, Abreast X N m M → I m M → R m M (f m) (g M)) : Tracks X N I R (reads f) (reads g) :=
  fun m M hm hI => .ok hm (h m M hm hI)

theorem tracks_readsOrFails {f : Machine → Except Cause α} {g : Machine → Except Cause β}
    (h : ∀ m M, Abreast X N m M → I m M → Replies X.pool (R m M) (f m) (g M)) :
    Tracks X N I R (readsOrFails f) (readsOrFails g) := by
  intro m M hm hI
  have h := h m M hm hI
  unfold readsOrFails
  revert h
  generalize f m = r, g M = r'
  intro h
  cases h with
  | ok hR => exact .ok hm hR
  | error c => exact .error hm

theorem tracks_change {f g : Machine → Machine} {S : Machine → Machine → Unit → Unit → Prop}
    (h : ∀ m M, Abreast X N m M → I m M → Abreast X N (f m) (g M) ∧ S (f m) (g M) () ()) :
    Tracks X N I S (change f) (change g) := fun m M hm hI => .ok (h m M hm hI).1 (h m M hm hI).2

theorem tracks_changeOrFail {f : Machine → Except Cause α × Machine} {g : Machine → Except Cause β × Machine}
    (h : ∀ m M, Abreast X N m M → I m M → Abreast X N (f m).2 (g M).2 ∧
      Replies X.pool (R (f m).2 (g M).2) (f m).1 (g M).1) : Tracks X N I R (changeOrFail f) (changeOrFail g) := by
  intro m M hm hI
  obtain ⟨hm', hanswers⟩ := h m M hm hI
  unfold changeOrFail
  revert hm' hanswers
  rcases f m with ⟨r, m'⟩
  rcases g M with ⟨r', M'⟩
  intro hm' hanswers
  cases hanswers with
  | ok hR => exact .ok hm' hR
  | error c => exact .error hm'

/-- A failure that carries no value. -/
theorem tracks_throw {c : Cause} (hc : c.repooled X.pool = c) : Tracks X N I R (throw c : Exec α) (throw c : Exec β) := by
  intro m M hm _
  have h : Ended X N R (.error c m) (.error (c.repooled X.pool) M) := .error hm
  rwa [hc] at h

theorem tracks_unexpected (action : String) (kind : EntryKind) (found : Option Entry) :
    Tracks X N I R (unexpected action kind found : Exec α) (unexpected action kind (found.map (·.across X)) : Exec β) := by
  have hkind : (found.map (·.across X)).map Entry.kind = found.map Entry.kind := by
    cases found <;> simp
  unfold unexpected
  rw [hkind]
  exact tracks_throw rfl

end Rules

/-! ### The stack -/

theorem tracks_push {v w : Value} : Tracks X N (fun m M => Mirrors X.pool A m M v w) (Equal A) (push v) (push w) :=
  tracks_change fun _ _ hm ⟨hA, hw⟩ => ⟨hw ▸ hm.pushed (e := .value v) trivial, hA, rfl⟩

theorem tracks_popEntry : Tracks X N (At A) (MirrorsEntry X N A) popEntry popEntry := by
  intro m M hm hA
  refine .ok hm.dropped ⟨hA, hm.top, fun e he => ?_⟩
  exact hm.housed e (List.mem_of_head? he)

theorem tracks_pop : Tracks X N (At A) (Mirrors X.pool A) pop pop := by
  refine tracks_popEntry.bind fun e e' m M hm ⟨hA, he', _⟩ => ?_
  subst he'
  cases e with
  | none => exact tracks_unexpected (I := At A) "pop" .value none m M hm hA
  | some e =>
    cases e with
    | value v => exact .ok hm ⟨hA, rfl⟩
    | frame f => exact tracks_unexpected (I := At A) "pop" .value (some (.frame f)) m M hm hA
    | region r => exact tracks_unexpected (I := At A) "pop" .value (some (.region r)) m M hm hA
    | loop env => exact tracks_unexpected (I := At A) "pop" .value (some (.loop env)) m M hm hA

theorem tracks_peek : Tracks X N (At A) (Mirrors X.pool A) peek peek := by
  have htop : Tracks X N (At A) (MirrorsEntry X N A) (reads (·.stack.top?)) (reads (·.stack.top?)) :=
    tracks_reads fun m M hm hA => ⟨hA, hm.top, fun e he => hm.housed e (List.mem_of_head? he)⟩
  refine htop.bind fun e e' m M hm ⟨hA, he', _⟩ => ?_
  subst he'
  cases e with
  | none => exact tracks_unexpected (I := At A) "peek" .value none m M hm hA
  | some e =>
    cases e with
    | value v => exact .ok hm ⟨hA, rfl⟩
    | frame f => exact tracks_unexpected (I := At A) "peek" .value (some (.frame f)) m M hm hA
    | region r => exact tracks_unexpected (I := At A) "peek" .value (some (.region r)) m M hm hA
    | loop env => exact tracks_unexpected (I := At A) "peek" .value (some (.loop env)) m M hm hA

/-- Going on with a value. -/
theorem Tracks.onValue {γ δ : Type} {I : Machine → Machine → Prop} {S : Machine → Machine → γ → δ → Prop}
    {x y : Exec Value} {f : Value → Exec γ} {g : Value → Exec δ} (hx : Tracks X N I (Mirrors X.pool A) x y)
    (hf : ∀ v, Tracks X N (At A) S (f v) (g (v.repooled X.pool))) : Tracks X N I S (x >>= f) (y >>= g) :=
  hx.bind fun v _ m M hm ⟨hA, hw⟩ => hw ▸ hf v m M hm hA

/-- Going on with a result that is the same. -/
theorem Tracks.onEqual {α γ δ : Type} {I : Machine → Machine → Prop} {S : Machine → Machine → γ → δ → Prop}
    {x y : Exec α} {f : α → Exec γ} {g : α → Exec δ} (hx : Tracks X N I (Equal A) x y)
    (hf : ∀ a, Tracks X N (At A) S (f a) (g a)) : Tracks X N I S (x >>= f) (y >>= g) :=
  hx.bind fun a _ m M hm ⟨hA, hb⟩ => hb ▸ hf a m M hm hA

/-- Going on with values. -/
theorem Tracks.onValues {γ δ : Type} {I : Machine → Machine → Prop} {S : Machine → Machine → γ → δ → Prop}
    {x y : Exec (List Value)} {f : List Value → Exec γ} {g : List Value → Exec δ}
    (hx : Tracks X N I (MirrorsAll X.pool A) x y)
    (hf : ∀ vs, Tracks X N (At A) S (f vs) (g (vs.map (·.repooled X.pool)))) : Tracks X N I S (x >>= f) (y >>= g) :=
  hx.bind fun vs _ m M hm ⟨hA, hw⟩ => hw ▸ hf vs m M hm hA

/-- A value that is pushed. -/
theorem Tracks.give {I : Machine → Machine → Prop} {x y : Exec Value} (hx : Tracks X N I (Mirrors X.pool A) x y) :
    Tracks X N I (Equal A) (do push (← x); return none : Exec (Option Stop)) (do push (← y); return none) :=
  hx.bind fun _ _ => tracks_push.bind fun _ _ => tracks_pure fun _ _ _ h => ⟨h.1, rfl⟩

/-- A step that goes on. -/
theorem Tracks.next {α β : Type} {I : Machine → Machine → Prop} {R : Machine → Machine → α → β → Prop} {x : Exec α}
    {y : Exec β} (hx : Tracks X N I R x y) (hR : ∀ m M a b, R m M a b → A m.sectionIndex m.pc) (stop : Option Stop) :
    Tracks X N I (Equal A) (do let _ ← x; return stop) (do let _ ← y; return stop) :=
  hx.bind fun _ _ => tracks_pure fun _ _ _ h => ⟨hR _ _ _ _ h, rfl⟩

theorem tracks_popOnto (vs : List Value) (count : Nat) :
    Tracks X N (At A) (MirrorsAll X.pool A) (popOnto vs count) (popOnto (vs.map (·.repooled X.pool)) count) := by
  induction count generalizing vs with
  | zero => exact tracks_pure fun _ _ _ hA => ⟨hA, rfl⟩
  | succ count ih => exact tracks_pop.onValue fun v => ih (v :: vs)

theorem tracks_popArgs (count : Nat) : Tracks X N (At A) (MirrorsAll X.pool A) (popArgs count) (popArgs count) :=
  tracks_popOnto [] count

/-- A value that is taken or absent. -/
theorem tracks_popIf {γ δ : Type} {S : Machine → Machine → γ → δ → Prop} {f : Option Value → Exec γ}
    {g : Option Value → Exec δ} (taken : Bool)
    (hf : ∀ v, Tracks X N (At A) S (f v) (g (v.map (·.repooled X.pool)))) :
    Tracks X N (At A) S (if taken = true then (some <$> pop) >>= f else (pure none) >>= f)
      (if taken = true then (some <$> pop) >>= g else (pure none) >>= g) := by
  have hgo : ∀ {x y : Exec (Option Value)}, Tracks X N (At A) (MirrorsSome X.pool A) x y →
      Tracks X N (At A) S (x >>= f) (y >>= g) := fun hx =>
    hx.bind fun v w m M hm ⟨hA, hw⟩ => hw ▸ hf v m M hm hA
  split
  · exact hgo (tracks_pop.map fun _ _ _ _ h => ⟨h.1, congrArg some h.2⟩)
  · exact hgo (tracks_pure fun _ _ _ hA => ⟨hA, rfl⟩)

theorem tracks_propertyKey (name : String) :
    Tracks X N (At A) (Mirrors X.pool A) (propertyKey name) (propertyKey name) := by
  unfold propertyKey
  split
  · exact tracks_pop
  · exact tracks_pure fun _ _ _ hA => ⟨hA, rfl⟩

end Abreast

end Machine

end ScriptMachine
