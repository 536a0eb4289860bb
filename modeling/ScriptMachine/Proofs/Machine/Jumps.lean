import ScriptMachine.Proofs.Code.Assembly
import ScriptMachine.Proofs.Machine.Surfacing

/-!
# Jumps — where control goes in an accepted program

The table of labels does not know sections, and a try region outlives the instruction that opened it. Still
every place that control is sent to is a label of the section at work: an instruction looks up labels of its
own section only, and the regions above the topmost frame were opened in the section that is current, those
below a frame in the section that the frame returns to (`Anchored`). One instruction keeps this
(`tick_moored`), so every run does, and no request disturbs it, whatever the code and the host do.
-/

namespace ScriptMachine

/-! ### Regions and sections -/

/-- A try region points at labels of its own section. -/
structure Program.Pins (p : Program) (r : Region) : Prop where
  handler : ∃ l, LabelAt p.sections l r.sectionIndex r.handlerPc
  final : ∀ pc, r.finalPc = some pc → ∃ l, LabelAt p.sections l r.sectionIndex pc

/-- Every region of some entries points at labels of its own section. -/
def Program.Pinned (p : Program) (s : List Entry) : Prop := ∀ r, Entry.region r ∈ s → p.Pins r

/-- The regions above the topmost frame belong to a section, those below a frame to the section that it
returns to, and all are pinned. -/
def Program.Anchored (p : Program) : Nat → List Entry → Prop
  | _, [] => True
  | x, .value _ :: s => p.Anchored x s
  | x, .loop _ :: s => p.Anchored x s
  | x, .region r :: s => r.sectionIndex = x ∧ p.Pins r ∧ p.Anchored x s
  | _, .frame f :: s => p.Anchored f.returnSection s

/-- A host value that says of some label that it is unknown. -/
def Native.Forges (native : Native) (l : Nat) : Prop :=
  (∃ name h, native.read name h = .error (.invariant (.unknownLabel l))) ∨
    (∃ name v h, (native.write name v h).1 = .error (.invariant (.unknownLabel l))) ∨
    ∃ this args h, (native.call this args h).result = .error (.invariant (.unknownLabel l))

/-- One of the host values does. -/
def Hosts.Forge (hosts : Hosts) (l : Nat) : Prop := ∃ handle, (hosts.find handle).Forges l

variable {p : Program} {H : Hosts} {F : Nat → Prop}

theorem Program.Pinned.tail {s : List Entry} (h : p.Pinned s) : p.Pinned s.tail := fun r hr =>
  h r (List.mem_of_mem_tail hr)

theorem Program.Anchored.pinned {x : Nat} {s : List Entry} (h : p.Anchored x s) : p.Pinned s := by
  induction s generalizing x with
  | nil => exact fun _ hr => nomatch hr
  | cons e s ih =>
    intro r hr
    cases e with
    | region r' =>
      rcases List.mem_cons.1 hr with he | hmem
      · cases he
        exact h.2.1
      · exact ih h.2.2 r hmem
    | value | loop | frame =>
      rcases List.mem_cons.1 hr with he | hmem
      · cases he
      · exact ih h r hmem

/-- Taking an entry that is no frame. -/
theorem Program.Anchored.pop {x : Nat} {e : Entry} {s : List Entry} (h : p.Anchored x (e :: s))
    (he : e.kind ≠ .frame) : p.Anchored x s := by
  cases e with
  | value | loop => exact h
  | region => exact h.2.2
  | frame => exact absurd rfl he

namespace Machine

/-- A machine of a program whose regions are where they should be. -/
structure Moored (p : Program) (H : Hosts) (m : Machine) : Prop where
  program : m.program = p
  hosts : m.hosts = H
  anchored : p.Anchored m.sectionIndex m.stack.entries

/-- What is left of a machine that fails. Only labels of some kind `F` may be called unknown. -/
structure Adrift (p : Program) (H : Hosts) (F : Nat → Prop) (c : Cause) (m : Machine) : Prop where
  program : m.program = p
  hosts : m.hosts = H
  pinned : p.Pinned m.stack.entries
  moored : c.isCatchable = true → Moored p H m
  known : ∀ l, c = .invariant (.unknownLabel l) → F l

theorem Moored.adrift {m : Machine} {c : Cause} (h : Moored p H m)
    (hc : ∀ l, c = .invariant (.unknownLabel l) → F l) : Adrift p H F c m :=
  ⟨h.program, h.hosts, h.anchored.pinned, fun _ => h, hc⟩

/-- A missing entry is no error that a handler gets, and names no label. -/
theorem adrift_unexpected {m : Machine} {action : String} {kind : EntryKind} {found : Option EntryKind}
    (hprogram : m.program = p) (hhosts : m.hosts = H) (hpinned : p.Pinned m.stack.entries) :
    Adrift p H F (.invariant (.unexpectedEntry action kind found)) m :=
  ⟨hprogram, hhosts, hpinned, fun h => (by cases h), fun _ h => by cases h⟩

/-! ### One instruction -/

/-- A step keeps a machine moored. It starts in a section of the first kind and ends in one of the second. -/
def Secures {α : Type} (p : Program) (H : Hosts) (F S T : Nat → Prop) (x : Exec α) : Prop :=
  ∀ m, Moored p H m → S m.sectionIndex → match x m with
    | .ok _ m' => Moored p H m' ∧ T m'.sectionIndex
    | .error c m' => Adrift p H F c m'

section Rules

variable {α β : Type} {S T U : Nat → Prop}

theorem Secures.bind {x : Exec α} {f : α → Exec β} (hx : Secures p H F S T x) (hf : ∀ a, Secures p H F T U (f a)) :
    Secures p H F S U (x >>= f) := by
  intro m hm hS
  have h := hx m hm hS
  rw [exec_bind]
  cases hr : x m with
  | error c m' => rw [hr] at h; exact h
  | ok a m' =>
    rw [hr] at h
    exact hf a m' h.1 h.2

theorem Secures.map {x : Exec α} {f : α → β} (hx : Secures p H F S T x) : Secures p H F S T (f <$> x) := by
  intro m hm hS
  have h := hx m hm hS
  show match EStateM.map f x m with
    | .ok _ m' => _
    | .error c m' => _
  unfold EStateM.map
  cases hr : x m with
  | ok a m' => rw [hr] at h; exact h
  | error c m' => rw [hr] at h; exact h

theorem secures_pure (a : α) : Secures p H F S S (pure a : Exec α) := fun _ hm hS => ⟨hm, hS⟩

theorem secures_reads (f : Machine → α) : Secures p H F S S (reads f) := fun _ hm hS => ⟨hm, hS⟩

theorem secures_change {f : Machine → Machine}
    (h : ∀ m, Moored p H m → S m.sectionIndex → Moored p H (f m) ∧ T (f m).sectionIndex) :
    Secures p H F S T (change f) := h

theorem secures_allocate (f : Heap → α × Heap) : Secures p H F S S (allocate f) := fun _ hm hS =>
  ⟨⟨hm.program, hm.hosts, hm.anchored⟩, hS⟩

theorem secures_throw {c : Cause} (hc : ∀ l, c ≠ .invariant (.unknownLabel l)) :
    Secures p H F S T (throw c : Exec α) := fun _ hm _ => hm.adrift fun l he => absurd he (hc l)

theorem secures_readsOrFails {f : Machine → Except Cause α}
    (h : ∀ m l, m.hosts = H → f m = .error (.invariant (.unknownLabel l)) → F l) :
    Secures p H F S S (readsOrFails f) := by
  intro m hm hS
  unfold readsOrFails
  cases hr : f m with
  | ok a => exact ⟨hm, hS⟩
  | error c => exact hm.adrift fun l he => h m l hm.hosts (he ▸ hr)

theorem secures_changeOrFail {f : Machine → Except Cause α × Machine}
    (h : ∀ m, (f m).2 = { m with heap := (f m).2.heap, log := (f m).2.log })
    (hf : ∀ m l, m.hosts = H → (f m).1 = .error (.invariant (.unknownLabel l)) → F l) :
    Secures p H F S S (changeOrFail f) := by
  intro m hm hS
  have hmoored : Moored p H (f m).2 ∧ S (f m).2.sectionIndex := by
    rw [h m]
    exact ⟨⟨hm.program, hm.hosts, hm.anchored⟩, hS⟩
  unfold changeOrFail
  cases hr : f m with
  | mk r m' =>
    rw [hr] at hmoored
    cases r with
    | ok a => exact hmoored
    | error c => exact hmoored.1.adrift fun l he => hf m l hm.hosts (by rw [hr, he])

theorem secures_push (v : Value) : Secures p H F S S (push v) :=
  secures_change fun _ hm hS => ⟨⟨hm.program, hm.hosts, hm.anchored⟩, hS⟩

theorem secures_unexpected (action : String) (kind : EntryKind) (found : Option Entry) :
    Secures p H F S T (unexpected action kind found : Exec α) := secures_throw nofun

/-- Taking an entry: a step goes on with one that is no frame, and fails for good with any other. -/
theorem secures_take {f : Option Entry → Exec α} (hgood : ∀ e, e.kind ≠ .frame → Secures p H F S T (f (some e)))
    (hbad : ∀ e m, (∀ e', e = some e' → e'.kind = .frame) →
      ∃ action kind found, f e m = .error (.invariant (.unexpectedEntry action kind found)) m) :
    Secures p H F S T (popEntry >>= f) := by
  intro m hm hS
  rw [exec_bind]
  simp only [popEntry]
  by_cases hk : ∀ e', m.stack.top? = some e' → e'.kind = .frame
  · obtain ⟨action, kind, found, hb⟩ := hbad m.stack.top? { m with stack := m.stack.drop } hk
    rw [hb]
    exact adrift_unexpected hm.program hm.hosts hm.anchored.pinned.tail
  · push Not at hk
    obtain ⟨e, he, hne⟩ := hk
    obtain ⟨s, hs⟩ : ∃ s, m.stack.entries = e :: s := List.head?_eq_some_iff.1 he
    have hanchored := hm.anchored
    rw [hs] at hanchored
    rw [he]
    exact hgood e hne { m with stack := m.stack.drop }
      ⟨hm.program, hm.hosts, by rw [Stack.entries_drop, hs]; exact hanchored.pop hne⟩ hS

theorem secures_pop : Secures p H F S S pop := by
  refine secures_take (fun e he => ?_) fun e m he => ?_
  · cases e with
    | value v => exact secures_pure v
    | _ => exact secures_unexpected _ _ _
  · cases e with
    | none => exact ⟨_, _, _, rfl⟩
    | some e =>
      cases e with
      | value v => exact absurd (he _ rfl) (by simp [Entry.kind])
      | _ => exact ⟨_, _, _, rfl⟩

theorem secures_peek : Secures p H F S S peek := by
  refine (secures_reads _).bind fun e => ?_
  cases e with
  | none => exact secures_unexpected _ _ _
  | some e =>
    cases e with
    | value v => exact secures_pure v
    | _ => exact secures_unexpected _ _ _

theorem secures_popOnto (values : List Value) (n : Nat) : Secures p H F S S (popOnto values n) := by
  induction n generalizing values with
  | zero => exact secures_pure values
  | succ n ih => exact secures_pop.bind fun v => ih (v :: values)

theorem secures_propertyKey (name : String) : Secures p H F S S (propertyKey name) := by
  unfold propertyKey
  split
  · exact secures_pop
  · exact secures_pure _

/-- A step that reads something known. -/
theorem secures_known {x : Exec β} {b : β} (hx : ∀ m, m.program = p → x m = .ok b m) {f : β → Exec α}
    (hf : Secures p H F S T (f b)) : Secures p H F S T (x >>= f) := by
  intro m hm hS
  rw [exec_bind_ok (hx m hm.program)]
  exact hf m hm hS

/-- A label that is in the table is found. -/
theorem resolve_known {l pc : Nat} (hl : p.jumpTarget? l = some pc) (m : Machine) (hm : m.program = p) :
    resolve l m = .ok pc m := by simp only [resolve, readsOrFails, hm, hl]

theorem secures_jump {l pc : Nat} (hl : p.jumpTarget? l = some pc) : Secures p H F S S (jump l) :=
  secures_known (resolve_known hl) (secures_change fun _ hm hS => ⟨⟨hm.program, hm.hosts, hm.anchored⟩, hS⟩)

/-! ### Calls and properties -/

theorem secures_enter (f : ScriptFunction) (receiver : Option Value) (args : List Value) (fromHost : Bool) :
    Secures p H F S (fun _ => True) (change (enterFunction f receiver args fromHost)) :=
  secures_change fun _ hm _ => ⟨⟨hm.program, hm.hosts, hm.anchored⟩, trivial⟩

variable (hF : ∀ l, H.Forge l → F l)

include hF in
theorem secures_callNative (handle : NativeHandle) (receiver : Option Value) (args : List Value) :
    Secures p H F S S (changeOrFail (callNative handle receiver args)) :=
  secures_changeOrFail (fun _ => rfl) fun m l hm hl =>
    hF l ⟨handle, .inr (.inr ⟨receiver, args, m.heap, by rw [← hm]; exact hl⟩)⟩

theorem Secures.weaken {x : Exec α} (hx : Secures p H F S T x) (h : ∀ n, T n → U n) : Secures p H F S U x := by
  intro m hm hS
  have hpost := hx m hm hS
  cases hr : x m with
  | ok a m' => rw [hr] at hpost; exact hpost.imp_right (h _)
  | error c m' => rw [hr] at hpost; exact hpost

include hF in
theorem secures_callValue (callee : Value) (receiver : Option Value) (args : List Value) :
    Secures p H F S (fun _ => True) (callValue callee receiver args) := by
  unfold callValue
  split
  · exact secures_enter _ _ _ _
  · split
    · exact ((secures_callNative hF _ _ _).bind fun v => secures_push v).weaken fun _ _ => trivial
    · exact secures_throw nofun
  · exact secures_throw nofun

include hF in
theorem secures_instantiate (className : String) (args : List Value) :
    Secures p H F S (fun _ => True) (instantiate className args) := by
  refine (secures_reads _).bind fun methods => ?_
  cases methods with
  | some methods =>
    refine (secures_reads _).bind fun globals => (secures_allocate _).bind fun object => ?_
    split
    · exact secures_enter _ _ _ _
    · exact (secures_push _).weaken fun _ _ => trivial
  | none =>
    refine (secures_reads _).bind fun handle => ?_
    split
    · split
      · exact ((secures_callNative hF _ _ _).bind fun v => secures_push v).weaken fun _ _ => trivial
      · exact secures_throw nofun
    · exact secures_throw nofun

theorem secures_createRecord (keys : List String) : Secures p H F S S (createRecord keys) :=
  (secures_popOnto _ _).bind fun _ => (secures_reads _).bind fun _ =>
    (secures_allocate _).bind fun _ => secures_push _

theorem secures_mapHeap (f : Machine → Heap → Heap) : Secures p H F S S (change fun m => m.mapHeap (f m)) :=
  secures_change fun _ hm hS => ⟨⟨hm.program, hm.hosts, hm.anchored⟩, hS⟩

theorem secures_setEnv (env : ScopeId) : Secures p H F S S (change fun m => { m with env }) :=
  secures_change fun _ hm hS => ⟨⟨hm.program, hm.hosts, hm.anchored⟩, hS⟩

theorem secures_pushLoop : Secures p H F S S (change fun m => { m with stack := m.stack.push (.loop m.env) }) :=
  secures_change fun _ hm hS => ⟨⟨hm.program, hm.hosts, hm.anchored⟩, hS⟩

theorem secures_note (line : Machine → String) :
    Secures p H F S S (change fun m => { m with log := m.log.push (line m) }) :=
  secures_change fun _ hm hS => ⟨⟨hm.program, hm.hosts, hm.anchored⟩, hS⟩

theorem slot_known {h : Heap} {env : ScopeId} {name : String} {l : Nat} :
    h.slot env name ≠ .error (.invariant (.unknownLabel l)) := by
  unfold Heap.slot
  split <;> nofun

theorem apply_known {h : Heap} {op : BinaryOp} {a b : Value} {l : Nat} :
    op.apply h a b ≠ .error (.invariant (.unknownLabel l)) := by
  unfold BinaryOp.apply
  split <;> nofun

theorem lookup_known {m : Machine} {name : String} {l : Nat} :
    m.lookup name ≠ .error (.invariant (.unknownLabel l)) := fun h => nomatch lookup_error h

theorem property_known {m : Machine} {target key : Value} {l : Nat}
    (h : m.property target key = .error (.invariant (.unknownLabel l))) : m.hosts.Forge l := by
  cases target with
  | native handle => exact ⟨handle, .inl ⟨_, _, h⟩⟩
  | error =>
    cases key <;> cases h
  | _ => cases h

theorem setProperty_known {m : Machine} {target key v : Value} {l : Nat}
    (h : (m.setProperty target key v).1 = .error (.invariant (.unknownLabel l))) : m.hosts.Forge l := by
  cases target with
  | native handle => exact ⟨handle, .inr (.inl ⟨_, v, m.heap, h⟩)⟩
  | array a =>
    simp only [setProperty] at h
    split at h
    · split at h
      · cases h
      · rename_i hcheck
        cases h
        unfold Heap.checkIndex at hcheck
        split at hcheck <;> cases hcheck
    · cases h
  | _ => cases h

include hF in
theorem secures_setProperty (target key v : Value) : Secures p H F S S (changeOrFail (·.setProperty target key v)) := by
  refine secures_changeOrFail (fun m => ?_) fun m l hm hl => hF l (by rw [← hm]; exact setProperty_known hl)
  unfold setProperty
  split
  · rfl
  · split
    · split <;> rfl
    · rfl
  · rfl
  · rfl

/-! ### Loops, regions and returns -/

theorem anchored_unwindLoop {x : Nat} {s t : List Entry} {env : ScopeId} (h : unwindLoop s = .ok (env, t))
    (hs : p.Anchored x s) : p.Anchored x t := by
  induction s with
  | nil => cases h
  | cons e s ih =>
    cases e with
    | value => exact ih h hs
    | loop =>
      cases h
      exact hs
    | frame | region => cases h

theorem pinned_unwindLoop {s t : List Entry} {found : Option Entry} (h : unwindLoop s = .error (found, t))
    (hs : p.Pinned s) : p.Pinned t := by
  induction s with
  | nil =>
    cases h
    exact hs
  | cons e s ih =>
    cases e with
    | value => exact ih h hs.tail
    | loop => cases h
    | frame | region =>
      cases h
      exact hs.tail

theorem secures_exitLoop {l pc : Nat} (hl : p.jumpTarget? l = some pc) : Secures p H F S S (exitLoop l) := by
  intro m hm hS
  cases hu : unwindLoop m.stack.entries with
  | ok found =>
    rw [exitLoop_ok hu]
    exact secures_jump hl { m with env := found.1, stack := .ofList found.2 }
      ⟨hm.program, hm.hosts, anchored_unwindLoop hu hm.anchored⟩ hS
  | error found =>
    rw [exitLoop_error hu]
    exact adrift_unexpected hm.program hm.hosts (pinned_unwindLoop hu hm.anchored.pinned)

/-- A region is opened in the section whose labels it points at. -/
theorem secures_openRegion {x handler : Nat} {final : Option Nat} (keep : Bool)
    (hl : ∀ l, l = handler ∨ final = some l → ∃ pc, p.jumpTarget? l = some pc ∧ LabelAt p.sections l x pc) :
    Secures p H F (· = x) (· = x) (openRegion handler final keep) := by
  obtain ⟨pc, hpc, hat⟩ := hl handler (.inl rfl)
  have hmark : ∀ (held : Option Value) (finalPc : Option Nat),
      (∀ pc, finalPc = some pc → ∃ l, LabelAt p.sections l x pc) →
        Secures p H F (· = x) (· = x) (markRegion pc finalPc held) := fun held finalPc hfinal => by
    have hpush : Secures p H F (· = x) (· = x) (change fun m =>
        { m with stack := m.stack.push (.region ⟨m.sectionIndex, pc, finalPc, m.env⟩) }) :=
      secures_change fun m hm hS =>
        ⟨⟨hm.program, hm.hosts, rfl, ⟨⟨handler, hS ▸ hat⟩, hS ▸ hfinal⟩, hm.anchored⟩, hS⟩
    refine hpush.bind fun _ => ?_
    cases held with
    | some v => exact secures_push v
    | none => exact secures_pure ()
  have hrest : ∀ held : Option Value, Secures p H F (· = x) (· = x) (openHeld handler final held) := fun held => by
    refine secures_known (resolve_known hpc) ?_
    cases final with
    | none => exact secures_known (fun _ _ => rfl) (hmark held none fun _ h => by cases h)
    | some l =>
      obtain ⟨pc', hpc', hat'⟩ := hl l (.inr rfl)
      have hfinal : ∀ pc, some pc' = some pc → ∃ l, LabelAt p.sections l x pc := fun _ h => by
        cases h
        exact ⟨l, hat'⟩
      refine secures_known (b := some pc') (fun m hm => ?_) (hmark held (some pc') hfinal)
      show EStateM.map some (resolve l) m = _
      simp only [EStateM.map, resolve_known hpc' m hm]
  cases keep with
  | true =>
    rw [openRegion_true]
    exact secures_pop.map.bind fun held => hrest held
  | false =>
    rw [openRegion_false]
    exact hrest none

/-- A return goes back to the section of the frame. -/
theorem secures_returnToFrame : Secures p H F S (fun _ => True) returnToFrame := by
  refine secures_pop.bind fun v m hm hS => ?_
  rw [exec_bind]
  simp only [popEntry]
  cases hs : m.stack.entries with
  | nil =>
    rw [show m.stack.top? = none by rw [Stack.top?, hs]; rfl]
    exact adrift_unexpected hm.program hm.hosts hm.anchored.pinned.tail
  | cons e s =>
    rw [show m.stack.top? = some e by rw [Stack.top?, hs]; rfl]
    have hanchored := hm.anchored
    rw [hs] at hanchored
    cases e with
    | frame f =>
      refine ⟨⟨hm.program, hm.hosts, ?_⟩, trivial⟩
      show p.Anchored f.returnSection (.value v :: m.stack.entries.tail)
      rw [hs]
      exact hanchored
    | _ => exact adrift_unexpected hm.program hm.hosts hm.anchored.pinned.tail

/-- The labels that an instruction names are where it says, in its section. -/
def Resolved (p : Program) (x : Nat) (i : Instruction) : Prop :=
  ∀ l ∈ i.op.targets, ∃ pc, p.jumpTarget? l = some pc ∧ LabelAt p.sections l x pc

/-- **Every instruction keeps a machine moored**, and one that names labels knows them. -/
theorem secures_dispatch {x : Nat} {i : Instruction} (hi : Resolved p x i)
    (hF : i.op.targets = [] → ∀ l, H.Forge l → F l) :
    Secures p H F (· = x) (fun _ => True) (dispatch i) := by
  have hnone : ∀ {T : Nat → Prop}, Secures p H F T (fun _ => True) (pure none : Exec (Option Stop)) :=
    (secures_pure none).weaken fun _ _ => trivial
  unfold dispatch
  cases h : i.op with
  | nop | label => exact hnone
  | const =>
    refine (secures_readsOrFails fun m l _ hl => ?_).bind fun _ => (secures_push _).bind fun _ => hnone
    split at hl <;> cases hl
  | dup => exact secures_peek.bind fun _ => (secures_push _).bind fun _ => hnone
  | pop => exact secures_pop.bind fun _ => hnone
  | fetch name =>
    exact (secures_readsOrFails fun m l _ hl => absurd hl lookup_known).bind fun _ => (secures_push _).bind fun _ => hnone
  | fetchProperty name =>
    have hF := hF (by rw [h]; rfl)
    exact (secures_propertyKey _).bind fun _ => secures_pop.bind fun _ =>
      (secures_readsOrFails fun m l hm hl => hF l (by rw [← hm]; exact property_known hl)).bind fun _ => (secures_push _).bind fun _ => hnone
  | store name =>
    exact secures_pop.bind fun _ => (secures_readsOrFails fun m l _ hl => absurd hl slot_known).bind fun _ =>
      (secures_mapHeap _).bind fun _ => hnone
  | storeProperty name =>
    have hF := hF (by rw [h]; rfl)
    exact (secures_propertyKey _).bind fun _ => secures_pop.bind fun _ => secures_pop.bind fun _ =>
      (secures_setProperty hF _ _ _).bind fun _ => hnone
  | declare name => exact (secures_reads _).bind fun _ => (secures_mapHeap _).bind fun _ => hnone
  | binary op =>
    exact secures_pop.bind fun _ => secures_pop.bind fun _ =>
      (secures_readsOrFails fun m l _ hl => absurd hl apply_known).bind fun _ => (secures_push _).bind fun _ => hnone
  | jump l =>
    obtain ⟨pc, hpc, -⟩ := hi l (by rw [h]; exact List.mem_singleton_self l)
    exact (secures_jump hpc).bind fun _ => hnone
  | jumpTrue l =>
    obtain ⟨pc, hpc, -⟩ := hi l (by rw [h]; exact List.mem_singleton_self l)
    refine secures_pop.bind fun v => ?_
    split
    · exact (secures_jump hpc).bind fun _ => hnone
    · exact hnone
  | jumpFalse l =>
    obtain ⟨pc, hpc, -⟩ := hi l (by rw [h]; exact List.mem_singleton_self l)
    refine secures_pop.bind fun v => ?_
    split
    · exact (secures_jump hpc).bind fun _ => hnone
    · exact hnone
  | call argc isMethod =>
    have hF := hF (by rw [h]; rfl)
    refine secures_pop.bind fun callee => ?_
    cases isMethod with
    | true =>
      exact secures_pop.map.bind fun _ => (secures_popOnto _ _).bind fun _ => (secures_callValue hF _ _ _).bind fun _ => hnone
    | false =>
      exact (secures_pure none).bind fun _ => (secures_popOnto _ _).bind fun _ =>
        (secures_callValue hF _ _ _).bind fun _ => hnone
  | ret => exact secures_returnToFrame
  | enterScope =>
    exact (secures_reads _).bind fun _ => (secures_allocate _).bind fun _ => (secures_setEnv _).bind fun _ => hnone
  | leaveScope =>
    refine (secures_reads _).bind fun outer => ?_
    cases outer with
    | some outer => exact (secures_setEnv outer).bind fun _ => hnone
    | none => exact secures_throw fun _ h => by cases h
  | loopStart => exact secures_pushLoop.bind fun _ => hnone
  | loopEnd =>
    refine secures_take (fun e he => ?_) fun e m he => ?_
    · cases e with
      | loop => exact hnone
      | _ => exact secures_unexpected _ _ _
    · cases e with
      | none => exact ⟨_, _, _, rfl⟩
      | some e =>
        cases e with
        | loop => exact absurd (he _ rfl) (by simp [Entry.kind])
        | _ => exact ⟨_, _, _, rfl⟩
  | loopExit l =>
    obtain ⟨pc, hpc, -⟩ := hi l (by rw [h]; exact List.mem_singleton_self l)
    exact (secures_exitLoop hpc).bind fun _ => hnone
  | tryStart handler final keep =>
    refine (secures_openRegion keep fun l hl => hi l ?_).bind fun _ => hnone
    rw [h]
    cases final <;> simpa [Opcode.targets, Opcode.jumpTarget?, eq_comm] using hl
  | tryEnd =>
    refine secures_take (fun e he => ?_) fun e m he => ?_
    · cases e with
      | region => exact hnone
      | _ => exact secures_unexpected _ _ _
    · cases e with
      | none => exact ⟨_, _, _, rfl⟩
      | some e =>
        cases e with
        | region => exact absurd (he _ rfl) (by simp [Entry.kind])
        | _ => exact ⟨_, _, _, rfl⟩
  | throw => exact secures_pop.bind fun _ => secures_throw fun _ h => by cases h
  | createObject =>
    have hF := hF (by rw [h]; rfl)
    exact (secures_popOnto _ _).bind fun _ => (secures_instantiate hF _ _).bind fun _ => hnone
  | createArray =>
    exact (secures_popOnto _ _).bind fun _ => (secures_allocate _).bind fun _ => (secures_push _).bind fun _ => hnone
  | createRecord => exact (secures_createRecord _).bind fun _ => hnone
  | debugger =>
    refine (secures_reads _).bind fun calls => ?_
    split
    · exact hnone
    · exact (secures_note _).bind fun _ => (secures_pure _).weaken fun _ _ => trivial
  | eof => exact (secures_pure _).weaken fun _ _ => trivial

end Rules

/-! ### Jumps -/

/-- The label that an instruction sends control to, with the top entry of the stack. -/
def sentTo (top : Option Entry) : Opcode → Option Nat
  | .jump l | .loopExit l => some l
  | .jumpTrue l =>
    match top with
    | some (.value v) => if v.isTruthy then some l else none
    | _ => none
  | .jumpFalse l =>
    match top with
    | some (.value v) => if v.isTruthy then none else some l
    | _ => none
  | _ => none

/-- An instruction that is a jump, taken or not. -/
def IsJump : Opcode → Prop
  | .jump _ | .jumpTrue _ | .jumpFalse _ | .loopExit _ => True
  | _ => False

variable {m m' u v w : Machine} {i : Instruction}

/-- There is a value to take, or taking one fails. -/
theorem pop_cases (m : Machine) :
    (∃ x s, m = m.onStack (.value x :: s)) ∨ ∃ c u, pop m = .error c u := by
  cases hs : m.stack.entries with
  | nil => exact .inr ⟨_, _, by simp only [pop, exec_bind, popEntry, Stack.top?, hs]; rfl⟩
  | cons e s =>
    cases e with
    | value x => exact .inl ⟨x, s, eq_onStack hs⟩
    | _ => exact .inr ⟨_, _, by simp only [pop, exec_bind, popEntry, Stack.top?, hs]; rfl⟩

/-- A jump that is taken leads to its label, in the section of the machine; one that is not leaves the place
alone. -/
theorem dispatch_jumps {r : Option Stop} (hi : Resolved m.program m.sectionIndex i) (hop : IsJump i.op)
    (hd : dispatch i m = .ok r u) :
    u.sectionIndex = m.sectionIndex ∧ match sentTo m.stack.top? i.op with
      | some l => LabelAt m.program.sections l m.sectionIndex u.pc
      | none => u.pc = m.pc := by
  cases h : i.op with
  | jump l =>
    obtain ⟨pc, hpc, hat⟩ := hi l (by rw [h]; exact List.mem_singleton_self l)
    rw [dispatch_jump h hpc] at hd
    cases hd
    exact ⟨rfl, hat⟩
  | jumpTrue l =>
    obtain ⟨pc, hpc, hat⟩ := hi l (by rw [h]; exact List.mem_singleton_self l)
    rcases pop_cases m with ⟨x, s, hm⟩ | ⟨c, w, hfail⟩
    · rw [hm, dispatch_jumpTrue h hpc] at hd
      rw [hm]
      cases hd
      cases hx : x.isTruthy <;> simp [sentTo, Stack.top?, onStack, branch, hx, hat, Stack.ofList]
    · simp only [dispatch, h, exec_bind, hfail] at hd
      cases hd
  | jumpFalse l =>
    obtain ⟨pc, hpc, hat⟩ := hi l (by rw [h]; exact List.mem_singleton_self l)
    rcases pop_cases m with ⟨x, s, hm⟩ | ⟨c, w, hfail⟩
    · rw [hm, dispatch_jumpFalse h hpc] at hd
      rw [hm]
      cases hd
      cases hx : x.isTruthy <;> simp [sentTo, Stack.top?, onStack, branch, hx, hat, Stack.ofList]
    · simp only [dispatch, h, exec_bind, hfail] at hd
      cases hd
  | loopExit l =>
    obtain ⟨pc, hpc, hat⟩ := hi l (by rw [h]; exact List.mem_singleton_self l)
    simp only [dispatch, h, exec_bind, exitLoop, reads] at hd
    cases hu : unwindLoop m.stack.entries with
    | ok found =>
      have hjump : jump l { m with env := found.1, stack := .ofList found.2 } =
          .ok () { m with env := found.1, stack := .ofList found.2, pc } := jump_resolved hpc
      rw [hu] at hd
      simp only [exec_bind, change, hjump] at hd
      cases hd
      exact ⟨rfl, hat⟩
    | error found =>
      rw [hu] at hd
      cases hd
  | _ =>
    rw [h] at hop
    cases hop

/-! ### Unwinding -/

/-- What unwinding finds is where it should be. -/
def Landing.Anchored (p : Program) : Landing → Prop
  | .region r below => p.Pins r ∧ p.Anchored r.sectionIndex below
  | .host f below => p.Anchored f.returnSection below
  | .bottom _ => True

theorem unwind_anchored {last : Option Frame} {x : Nat} {s : List Entry} (hs : p.Anchored x s) :
    (unwind last s).1.Anchored p := by
  induction s generalizing last x with
  | nil => trivial
  | cons e s ih =>
    cases e with
    | value | loop => exact ih hs
    | region r =>
      obtain ⟨rfl, hpins, hs⟩ := hs
      exact ⟨hpins, hs⟩
    | frame f =>
      unfold unwind
      split
      · exact hs
      · exact ih hs

/-- A machine at rest: if it has not failed, its regions are where they should be. -/
structure Rested (p : Program) (m : Machine) : Prop where
  program : m.program = p
  pinned : p.Pinned m.stack.entries
  anchored : m.state ≠ .error → p.Anchored m.sectionIndex m.stack.entries

theorem Moored.rested (h : Moored p H m) : Rested p m := ⟨h.program, h.anchored.pinned, fun _ => h.anchored⟩

/-- What an error leads to: a region catches it, and control goes to a label of the section that opened it,
or the machine comes to rest. -/
def Tick.Moors (p : Program) (H : Hosts) : Tick → Prop
  | .next m => Moored p H m
  | .stop _ m => Moored p H m
  | .fault _ m => Rested p m

theorem landed_moored {c : Cause} {thrown : Value} {trace : Trace} {landing : Landing} (hprogram : m.program = p)
    (hhosts : m.hosts = H) (hl : landing.Anchored p) : match landed m c thrown trace landing with
      | (none, u) => Moored p H u ∧ ∃ l, LabelAt p.sections l u.sectionIndex u.pc
      | (some _, u) => Rested p u := by
  cases landing with
  | region r below => exact ⟨⟨hprogram, hhosts, hl.2⟩, hl.1.handler⟩
  | host f below => exact Moored.rested (H := H) ⟨hprogram, hhosts, hl⟩
  | bottom last =>
    refine ⟨?_, fun _ hmem => (nomatch hmem), fun hne => absurd rfl hne⟩
    cases last <;> exact hprogram

theorem handle_moored {c : Cause} (h : Adrift p H F c m) (span : Span) : match m.handle c span with
      | (none, u) => Moored p H u ∧ ∃ l, LabelAt p.sections l u.sectionIndex u.pc
      | (some _, u) => Rested p u := by
  by_cases hc : c.isCatchable = true
  · rw [handle_catchable hc]
    exact landed_moored h.program h.hosts (unwind_anchored (h.moored hc).anchored)
  · unfold handle
    rw [if_pos (by simpa using hc)]
    exact ⟨h.program, h.pinned, fun h => absurd rfl h⟩

/-! ### Runs -/

variable {mode : Mode} {first b : Bool} {fuel : Nat}

/-- The instruction at the place of a machine names labels of its section. -/
theorem Moored.resolved (hp : p.Assembled) (hv : Moored p H v)
    (hi : v.program.instruction? v.sectionIndex v.pc = some i) : Resolved p v.sectionIndex i := fun _ hl =>
  hp.resolves (hv.program ▸ hi) hl

/-- What an instruction does to a moored machine. -/
theorem Moored.dispatch (hp : p.Assembled) (hv : Moored p H v)
    (hi : v.program.instruction? v.sectionIndex v.pc = some i) : match dispatch i v.fetching with
      | .ok _ m => Moored p H m
      | .error c m => Adrift p H (fun l => i.op.targets = [] ∧ H.Forge l) c m := by
  have h := secures_dispatch (H := H) (F := fun l => i.op.targets = [] ∧ H.Forge l) (hv.resolved hp hi)
    (fun hnone l hl => ⟨hnone, hl⟩) v.fetching ⟨hv.program, hv.hosts, hv.anchored⟩ rfl
  cases hd : Machine.dispatch i v.fetching with
  | ok r m =>
    rw [hd] at h
    exact h.1
  | error c m =>
    rw [hd] at h
    exact h

/-- **One instruction keeps a machine moored**, whatever becomes of its errors. -/
theorem tick_moored (hp : p.Assembled) (hv : Moored p H v) (mode : Mode) (first : Bool) :
    (v.tick mode first).Moors p H := by
  rcases tick_cases mode first v with ⟨-, -, ht, -⟩ | ⟨ht, -⟩
  · rw [ht]
    exact hv
  rw [ht]
  by_cases hfetch : v.fetches .run true = true
  · obtain ⟨i, hi, ht⟩ := instruction_of_fetches hfetch
    have hdispatch := hv.dispatch hp hi
    rw [ht]
    cases hd : Machine.dispatch i v.fetching with
    | ok r m =>
      rw [hd] at hdispatch
      cases r <;> exact hdispatch
    | error c m =>
      rw [hd] at hdispatch
      have hhandle := handle_moored hdispatch i.span
      simp only [routed]
      split <;> rename_i hr <;> rw [hr] at hhandle
      · exact hhandle.1
      · exact hhandle
  · obtain ⟨fault, hfault, -⟩ := tick_of_not_fetches (Bool.eq_false_iff.2 hfetch)
    rw [hfault]
    exact ⟨hv.program, hv.anchored.pinned, fun hne => absurd rfl hne⟩

theorem passes_moored (hp : p.Assembled) (hv : Moored p H v) (h : Passes mode first v b w) : Moored p H w := by
  refine h.invariant hv fun b v₁ v₂ hv₁ ht => ?_
  have hmoors := tick_moored hp hv₁ mode b
  rw [ht] at hmoors
  exact hmoors

theorem drive_moored {r : Except Fault Stop} (hp : p.Assembled) (hv : Moored p H v)
    (h : drive mode fuel first v = some (r, u)) : match r with
      | .ok _ => Moored p H u
      | .error _ => Rested p u := by
  obtain ⟨b, w, hpasses, he⟩ := drive_ends h
  have hmoors := tick_moored hp (passes_moored hp hv hpasses) mode b
  obtain ⟨reason, rfl, ht⟩ | ⟨fault, rfl, ht⟩ := he <;> rw [ht] at hmoors <;> exact hmoors

/-! ### Requests -/

theorem Rested.awake (hm : Rested p m) (hlive : m.Live) : Moored p m.hosts m.awake :=
  ⟨hm.program, rfl, hm.anchored hlive.1⟩

theorem Rested.entered (hm : Rested p m) (hstate : m.state ≠ .error) (g : ScriptFunction) (args : List Value) :
    Moored p m.hosts (m.entered g args) := ⟨hm.program, rfl, hm.anchored hstate⟩

/-- A request starts at a moored machine. -/
theorem Rested.starts {request : Request} (hm : Rested p m) (hs : request.Starts m mode v) : Moored p m.hosts v := by
  cases hs with
  | run hlive | step hlive => exact hm.awake hlive
  | call hstate => exact hm.entered hstate _ _

theorem Rested.execute {r : Except Fault RunState} (hp : p.Assembled) (hm : Rested p m)
    (h : m.execute mode fuel = some (r, m')) : Rested p m' := by
  by_cases hlive : m.Live
  · rw [execute_eq hlive] at h
    obtain ⟨⟨result, u⟩, hd, ha⟩ := Option.map_eq_some_iff.1 h
    have hu := drive_moored hp (hm.awake hlive) hd
    cases result with
    | ok reason =>
      cases reason with
      | hostReturn =>
        cases ha
        exact ⟨hu.program, hu.anchored.pinned, fun hne => absurd rfl hne⟩
      | eof | breakpoint | boundary =>
        cases ha
        exact ⟨hu.program, hu.anchored.pinned, fun _ => hu.anchored⟩
    | error fault =>
      cases ha
      exact hu
  · rw [not_live_execute hlive h]
    exact hm

/-- The end of a call takes at most one entry. -/
theorem finishCall_pinned {saved : RunState} {r : Except Fault Stop} {result : Except Fault Value}
    (hu : u.program = p ∧ p.Pinned u.stack.entries)
    (h : finishCall saved (r, { u with hostCalls := u.hostCalls - 1 }) = (result, m')) :
    m'.program = p ∧ p.Pinned m'.stack.entries := by
  unfold finishCall at h
  split at h <;> rename_i he <;> cases he
  · split at h <;> cases h <;> exact ⟨hu.1, hu.2.tail⟩
  · cases h
    exact hu
  · cases h
    split <;> exact hu

theorem Rested.call {name : String} {args : List Value} {result : Except Fault Value} (hp : p.Assembled)
    (hm : Rested p m) (h : m.call fuel name args = some (result, m')) : Rested p m' := by
  have hback := ((call_transparent m name args).1 fuel result m' h).2
  have hkept : m'.program = p ∧ p.Pinned m'.stack.entries := by
    cases calls_of_call h with
    | refused | native => exact ⟨hm.program, hm.pinned⟩
    | function hstate _ hd hf =>
      have hu := drive_moored hp (hm.entered hstate _ _) hd
      refine finishCall_pinned ?_ hf
      split at hu
      · exact ⟨hu.program, hu.anchored.pinned⟩
      · exact ⟨hu.program, hu.pinned⟩
  refine ⟨hkept.1, hkept.2, fun hne => ?_⟩
  -- a call that does not fail for good leaves the stack and the section as they were
  have hsame := hback hne
  have hstate : m.state ≠ .error := by
    rw [hsame] at hne
    exact hne
  rw [hsame]
  exact hm.anchored hstate

/-- **No request disturbs a machine at rest.** -/
theorem Rested.serve {request : Request} {cause : Option Cause} (hp : p.Assembled) (hm : Rested p m)
    (h : m.serve request = some (cause, m')) : Rested p m' := by
  cases request with
  | run fuel | step fuel =>
    obtain ⟨⟨r, u⟩, hx, he⟩ := Option.map_eq_some_iff.1 h
    cases he
    exact hm.execute hp hx
  | call fuel name args =>
    obtain ⟨⟨r, u⟩, hx, he⟩ := Option.map_eq_some_iff.1 h
    cases he
    exact hm.call hp hx
  | reset =>
    cases h
    exact ⟨hm.program, fun _ hmem => (nomatch hmem), fun _ => trivial⟩
  | define | add | prepare | takeLog =>
    cases h
    exact ⟨hm.program, hm.pinned, hm.anchored⟩
  | register name handle =>
    simp only [Machine.serve, Machine.register] at h
    cases hr : m.registry.register name handle with
    | ok registry =>
      rw [hr] at h
      cases h
      exact ⟨hm.program, hm.pinned, hm.anchored⟩
    | error c =>
      rw [hr] at h
      cases h
      exact hm

theorem Lasts.rested {config : Config} {n : Nat} (hp : p.Assembled) (h : Lasts p config n m) : Rested p m := by
  induction h with
  | load => exact ⟨rfl, fun _ hmem => (nomatch hmem), fun _ => trivial⟩
  | serve _ hserve ih => exact ih.serve hp hserve

/-- Where the instruction at the place of a machine sends control. -/
structure Steered (p : Program) (v : Machine) : Prop where
  anchored : p.Anchored v.sectionIndex v.stack.entries
  pinned : p.Pinned v.stack.entries
  /-- The labels that it names are found in the section at work. -/
  resolved : ∀ i, v.program.instruction? v.sectionIndex v.pc = some i → Resolved p v.sectionIndex i
  /-- If it is a jump that is taken, it leads to its label in this section; one that is not taken goes on. -/
  jumps : ∀ i r u, v.program.instruction? v.sectionIndex v.pc = some i → IsJump i.op →
    dispatch i v.fetching = .ok r u → u.sectionIndex = v.sectionIndex ∧
      match sentTo v.stack.top? i.op with
      | some l => LabelAt p.sections l v.sectionIndex u.pc
      | none => u.pc = v.pc + 1
  /-- It reports no label as unknown: only a host value may say so, and no jump uses one. -/
  known : ∀ i l u, v.program.instruction? v.sectionIndex v.pc = some i →
    dispatch i v.fetching = .error (.invariant (.unknownLabel l)) u → i.op.targets = [] ∧ v.hosts.Forge l
  /-- If it fails and a region catches the error, that leads to a label of the section the region is of. -/
  caught : ∀ i c u w, v.program.instruction? v.sectionIndex v.pc = some i → dispatch i v.fetching = .error c u →
    u.handle c i.span = (none, w) → ∃ l, LabelAt p.sections l w.sectionIndex w.pc

theorem Moored.steered (hp : p.Assembled) (hv : Moored p H v) : Steered p v where
  anchored := hv.anchored
  pinned := hv.anchored.pinned
  resolved _ hi := hv.resolved hp hi
  jumps i r u hi hop hd := by
    have hresolved := hv.resolved hp hi
    rw [← hv.program] at hresolved ⊢
    exact dispatch_jumps (m := v.fetching) hresolved hop hd
  known i l u hi hd := by
    have hdispatch := hv.dispatch hp hi
    rw [hd] at hdispatch
    obtain ⟨hnone, hforge⟩ := hdispatch.known l rfl
    exact ⟨hnone, hv.hosts ▸ hforge⟩
  caught i c u w hi hd hw := by
    have hdispatch := hv.dispatch hp hi
    rw [hd] at hdispatch
    have hhandle := handle_moored hdispatch i.span
    rw [hw] at hhandle
    exact hhandle.2

/-- **Jump validation is exact, and it is enough.** Sections are accepted iff there is one, no label stands at
two places, and the labels that an instruction names stand in its section. In every run of an accepted
program, whatever the code is and the host does, control goes to labels of the section at work (`Steered`),
and the regions on the stack point at labels of their own sections, also between requests. -/
theorem jumps_land (sections : Array CodeSection) (constants : Array Value) (functions : Array ScriptFunction)
    (classes : List (String × List Nat)) :
    ((∃ p, Program.assemble sections constants functions classes = .ok p) ↔ Linked sections) ∧
    ∀ p, Program.assemble sections constants functions classes = .ok p → p.sections = sections ∧
      ∀ config n m, Lasts p config n m →
        p.Pinned m.stack.entries ∧ (m.state ≠ .error → p.Anchored m.sectionIndex m.stack.entries) ∧
        ∀ request mode start b v, Request.Starts m request mode start → Passes mode true start b v →
          Steered p v := by
  refine ⟨assemble_ok_iff _ _ _ _, fun p hassemble => ⟨(Compile.assemble_ok hassemble).1, ?_⟩⟩
  have hp := Program.assembled_of_assemble hassemble
  intro config n m hlasts
  have hm := hlasts.rested hp
  refine ⟨hm.pinned, hm.anchored, fun request mode start b v hstarts hpasses => ?_⟩
  exact (passes_moored hp (hm.starts hstarts) hpasses).steered hp

/-- A script that calls a function inside a region; the function jumps and opens a region of its own, and the
error in it is caught there. -/
def nesting : Array CodeSection :=
  #[⟨"<script>", #[{ op := .tryStart 0 (some 1) false }, { op := .fetch "f" }, { op := .call 0 false },
      { op := .label 0 }, { op := .label 1 }, { op := .eof }]⟩,
    ⟨"f", #[{ op := .jump 3 }, { op := .label 2 }, { op := .ret }, { op := .label 3 },
      { op := .tryStart 2 none false }, { op := .fetch "x" }]⟩]

/-- While the name that `f` looks up is missing, the region of `f` lies above that of the script, each
pointing at labels of its section, and the error leads to label 2. -/
theorem jumps_land_nesting : ∃ p v u w,
    Program.assemble nesting #[] #[⟨"f", 1, 0, []⟩] [] = .ok p ∧ Linked nesting ∧ Steered p v ∧
    v.stack.entries.map Entry.kind = [.region, .frame, .region] ∧
    dispatch { op := .fetch "x" } v.fetching = .error (.undefinedVariable "x") u ∧
    u.handle (.undefinedVariable "x") {} = (none, w) ∧ (w.sectionIndex, w.pc) = (1, 1) ∧
    ∃ l, LabelAt p.sections l w.sectionIndex w.pc := by
  have hassemble : ∃ p, Program.assemble nesting #[] #[⟨"f", 1, 0, []⟩] [] = .ok p ∧
      p = { sections := nesting, functions := #[⟨"f", 1, 0, []⟩]
            labels := [(0, ⟨0, 3⟩), (1, ⟨0, 4⟩), (2, ⟨1, 1⟩), (3, ⟨1, 3⟩)] } := ⟨_, by with_unfolding_all rfl, rfl⟩
  obtain ⟨p, hassemble, hp⟩ := hassemble
  have hpasses : ∃ v, Passes .run true (load p {} {} {}).awake false v ∧
      v.stack.entries.map Entry.kind = [.region, .frame, .region] ∧
      v.program.instruction? v.sectionIndex v.pc = some { op := .fetch "x" } ∧ ∃ u w,
      dispatch { op := .fetch "x" } v.fetching = .error (.undefinedVariable "x") u ∧
      u.handle (.undefinedVariable "x") {} = (none, w) ∧ (w.sectionIndex, w.pc) = (1, 1) := by
    subst hp
    with_unfolding_all exact ⟨_, .next (.next (.next (.next (.next (.next .start rfl) rfl) rfl) rfl) rfl) rfl,
      rfl, rfl, _, _, rfl, rfl, rfl⟩
  obtain ⟨v, hpasses, hkinds, hi, u, w, hd, hw, hplace⟩ := hpasses
  obtain ⟨hlinked, hruns⟩ := jumps_land nesting #[] #[⟨"f", 1, 0, []⟩] []
  obtain ⟨-, -, hsteered⟩ := (hruns p hassemble).2 {} 0 (load p {} {} {}) .load
  have hv := hsteered (.run 10) .run _ false v (.run ⟨nofun, nofun⟩) hpasses
  exact ⟨p, v, u, w, hassemble, hlinked.1 ⟨p, hassemble⟩, hv, hkinds, hd, hw, hplace, hv.caught _ _ _ _ hi hd hw⟩

end Machine

end ScriptMachine
