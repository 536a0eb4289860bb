import ScriptMachine.Proofs.Native.Stateless
import ScriptMachine.Proofs.Machine.Course

/-!
# Relocation — a machine with a past

`Machine.atop m past` is the machine `m` with the heap and the log of another machine below its own. It
does what `m` does: `Tracks` says so of the operations that instructions are made of, and one instruction,
a run and a request follow from these. The machines are `Sealed`: they hold no reference to an object that
was never made, and their host values are stateless.
-/

namespace ScriptMachine

/-! ### Machines over others -/

/-- A frame above another heap. -/
def Frame.above (f : Frame) (b : Heap) : Frame := { f with env := f.env.above b }

/-- A region above another heap. -/
def Region.above (r : Region) (b : Heap) : Region := { r with env := r.env.above b }

/-- An entry above another heap. -/
def Entry.above : Entry → Heap → Entry
  | .value v, b => .value (v.above b)
  | .frame f, b => .frame (f.above b)
  | .region r, b => .region (r.above b)
  | .loop env, b => .loop (env.above b)

/-- A fault above another heap. -/
def Fault.above (f : Fault) (b : Heap) : Fault := { f with cause := f.cause.above b }

@[simp] theorem Entry.kind_above (e : Entry) (b : Heap) : (e.above b).kind = e.kind := by
  cases e <;> rfl

namespace Machine

/-- A machine with the heap and the log of another below its own. -/
def atop (m past : Machine) : Machine :=
  { m with
    stack := .ofList (m.stack.entries.map (·.above past.heap)), env := m.env.above past.heap
    globals := m.globals.above past.heap, heap := m.heap.above past.heap, log := past.log ++ m.log
    lastException := m.lastException.map (·.above past.heap) }

/-- A machine that leads to objects of its own only, with constants that refer to nothing and host values
that remember nothing. -/
structure Sealed (m : Machine) : Prop where
  heap : m.heap.Closed
  stack : ∀ v, .value v ∈ m.stack.entries → v.Within m.heap.objects.size
  exception : ∀ v, m.lastException = some v → v.Within m.heap.objects.size
  constants : ∀ v ∈ m.program.constants, v.isPortable = true
  hosts : m.hosts.Stateless

/-- What becomes of a sealed machine, and of the same machine over another. -/
structure Carries (past m m' M' : Machine) : Prop where
  isSealed : m'.Sealed
  size : m.heap.objects.size ≤ m'.heap.objects.size
  eq : M' = m'.atop past

variable {past m m' M' : Machine} {n n' : Nat}

theorem Carries.refl (hm : m.Sealed) : Carries past m m (m.atop past) := ⟨hm, Nat.le_refl _, rfl⟩

theorem Carries.trans {m₁ m₂ M₁ M₂ : Machine} (h : Carries past m m₁ M₁) (h' : Carries past m₁ m₂ M₂) :
    Carries past m m₂ M₂ := ⟨h'.isSealed, Nat.le_trans h.size h'.size, h'.eq⟩

@[simp] theorem depth_atop (m past : Machine) : (m.atop past).stack.depth = m.stack.depth := by
  rw [Stack.depth_eq, Stack.depth_eq]
  simp [atop, Stack.ofList]

theorem top_atop (m past : Machine) : (m.atop past).stack.top? = m.stack.top?.map (·.above past.heap) := List.head?_map

theorem drop_atop (m past : Machine) :
    (m.atop past).stack.drop = .ofList (m.stack.drop.entries.map (·.above past.heap)) := by
  ext1
  exact List.map_tail.symm

/-- A sealed machine with other entries. -/
theorem Sealed.entries (hm : m.Sealed) {stack : Stack}
    (hs : ∀ v, .value v ∈ stack.entries → v.Within m.heap.objects.size) : { m with stack }.Sealed :=
  ⟨hm.heap, hs, hm.exception, hm.constants, hm.hosts⟩

/-- A sealed machine with another heap. -/
theorem Sealed.carries (hm : m.Sealed) {h' H' : Heap} (hc : Heap.Carries past.heap m.heap h' H') :
    Carries past m { m with heap := h' } { m.atop past with heap := H' } :=
  ⟨⟨hc.closed, fun v hv => (hm.stack v hv).mono hc.size, fun v hv => (hm.exception v hv).mono hc.size,
    hm.constants, hm.hosts⟩, hc.size, by rw [hc.eq]; rfl⟩

/-- A machine with another place. -/
theorem Sealed.place (hm : m.Sealed) (sectionIndex pc : Nat) (env : ScopeId) :
    Carries past m { m with sectionIndex, pc, env }
      { m.atop past with sectionIndex, pc, env := env.above past.heap } :=
  ⟨⟨hm.heap, hm.stack, hm.exception, hm.constants, hm.hosts⟩, Nat.le_refl _, rfl⟩

/-! ### Steps of instructions -/

/-- How a step ends on a machine, and on the same machine over another. -/
inductive Ended {α : Type} (past : Machine) (n : Nat) (R : Nat → α → α → Prop) :
    EStateM.Result Cause Machine α → EStateM.Result Cause Machine α → Prop where
  | ok {a a' m} : n ≤ m.heap.objects.size → m.Sealed → R m.heap.objects.size a a' →
      Ended past n R (.ok a m) (.ok a' (m.atop past))
  | error {c : Cause} {m} : n ≤ m.heap.objects.size → m.Sealed → c.Within m.heap.objects.size →
      Ended past n R (.error c m) (.error (c.above past.heap) (m.atop past))

/-- The second step does over another machine what the first one does, if at least `n` objects have been
made. The results are related as `R` says for the number of objects in the end. -/
def Tracks {α : Type} (past : Machine) (n : Nat) (R : Nat → α → α → Prop) (x y : Exec α) : Prop :=
  ∀ m, m.Sealed → n ≤ m.heap.objects.size → Ended past n R (x m) (y (m.atop past))

/-- Results that are equal. -/
def Equal {α : Type} : Nat → α → α → Prop := fun _ a a' => a' = a

/-- Results of which nothing is asked. -/
def Any {α : Type} : Nat → α → α → Prop := fun _ _ _ => True

/-- Scopes. -/
def MirrorsScope (b : Heap) : Nat → ScopeId → ScopeId → Prop := fun _ s s' => s' = s.above b

/-- Values in order. -/
def MirrorsAll (b : Heap) (n : Nat) (vs ws : List Value) : Prop :=
  (∀ v ∈ vs, v.Within n) ∧ ws = vs.map (·.above b)

/-- A value that may be absent. -/
def MirrorsSome (b : Heap) (n : Nat) (v w : Option Value) : Prop :=
  (∀ u, v = some u → u.Within n) ∧ w = v.map (·.above b)

theorem mirrorsSome_none {b : Heap} : MirrorsSome b n none none := ⟨nofun, rfl⟩

section Rules

variable {α β : Type} {R : Nat → α → α → Prop} {S : Nat → β → β → Prop}

theorem Ended.mono {x y : EStateM.Result Cause Machine α} (h : Ended past n' R x y) (hn : n ≤ n') :
    Ended past n R x y := by
  cases h with
  | ok hle hm hR => exact .ok (Nat.le_trans hn hle) hm hR
  | error hle hm hc => exact .error (Nat.le_trans hn hle) hm hc

theorem Tracks.bind {x y : Exec α} {f g : α → Exec β} (hx : Tracks past n R x y)
    (hf : ∀ n' a a', n ≤ n' → R n' a a' → Tracks past n' S (f a) (g a')) :
    Tracks past n S (x >>= f) (y >>= g) := by
  intro m hm hn
  have h := hx m hm hn
  rw [exec_bind, exec_bind]
  revert h
  generalize x m = r, y (m.atop past) = r'
  intro h
  cases h with
  | ok hle hm' hR => exact (hf _ _ _ hle hR _ hm' (Nat.le_refl _)).mono hle
  | error hle hm' hc => exact .error hle hm' hc

/-- Going on with a result that is the same. -/
theorem Tracks.onEqual {x y : Exec α} {f g : α → Exec β} (hx : Tracks past n Equal x y)
    (hf : ∀ n' a, n ≤ n' → Tracks past n' S (f a) (g a)) : Tracks past n S (x >>= f) (y >>= g) :=
  hx.bind fun n' a _ hle ha => (show _ = a from ha) ▸ hf n' a hle

/-- Going on with a value. -/
theorem Tracks.onValue {x y : Exec Value} {f g : Value → Exec β} (hx : Tracks past n (Value.Mirrors past.heap) x y)
    (hf : ∀ n' v, n ≤ n' → v.Within n' → Tracks past n' S (f v) (g (v.above past.heap))) :
    Tracks past n S (x >>= f) (y >>= g) :=
  hx.bind fun n' v _ hle hv => hv.2 ▸ hf n' v hle hv.1

/-- Going on with a scope. -/
theorem Tracks.onScope {x y : Exec ScopeId} {f g : ScopeId → Exec β} (hx : Tracks past n (MirrorsScope past.heap) x y)
    (hf : ∀ n' s, n ≤ n' → Tracks past n' S (f s) (g (s.above past.heap))) : Tracks past n S (x >>= f) (y >>= g) :=
  hx.bind fun n' s _ hle hs => (show _ = s.above past.heap from hs) ▸ hf n' s hle

theorem Tracks.map {x y : Exec α} {f : α → β} (hx : Tracks past n R x y)
    (hf : ∀ n' a a', R n' a a' → S n' (f a) (f a')) : Tracks past n S (f <$> x) (f <$> y) := by
  intro m hm hn
  have h := hx m hm hn
  show Ended past n S (EStateM.map f x m) (EStateM.map f y (m.atop past))
  unfold EStateM.map
  revert h
  generalize x m = r, y (m.atop past) = r'
  intro h
  cases h with
  | ok hle hm' hR => exact .ok hle hm' (hf _ _ _ hR)
  | error hle hm' hc => exact .error hle hm' hc

theorem tracks_pure {a a' : α} (h : ∀ n', n ≤ n' → R n' a a') :
    Tracks past n R (pure a : Exec α) (pure a' : Exec α) := fun _ hm hn => .ok hn hm (h _ hn)

theorem tracks_reads {f : Machine → α} (h : ∀ m : Machine, m.Sealed → R m.heap.objects.size (f m) (f (m.atop past))) :
    Tracks past n R (reads f) (reads f) := fun m hm hn => .ok hn hm (h m hm)

theorem tracks_readsOrFails {f g : Machine → Except Cause α}
    (h : ∀ m : Machine, m.Sealed → n ≤ m.heap.objects.size →
      Alike past.heap m.heap.objects.size (R m.heap.objects.size) (f m) (g (m.atop past))) :
    Tracks past n R (readsOrFails f) (readsOrFails g) := by
  intro m hm hn
  have h := h m hm hn
  unfold readsOrFails
  revert h
  generalize f m = r, g (m.atop past) = r'
  intro h
  cases h with
  | ok hR => exact .ok hn hm hR
  | error hc => exact .error hn hm hc

theorem tracks_change {f g : Machine → Machine}
    (h : ∀ m : Machine, m.Sealed → n ≤ m.heap.objects.size → Carries past m (f m) (g (m.atop past))) :
    Tracks past n Any (change f) (change g) := by
  intro m hm hn
  obtain ⟨hsealed, hsize, heq⟩ := h m hm hn
  show Ended past n Any (.ok () (f m)) (.ok () (g (m.atop past)))
  rw [heq]
  exact .ok (Nat.le_trans hn hsize) hsealed trivial

theorem tracks_changeOrFail {f g : Machine → Except Cause α × Machine}
    (h : ∀ m : Machine, m.Sealed → n ≤ m.heap.objects.size → Carries past m (f m).2 (g (m.atop past)).2 ∧
      Alike past.heap (f m).2.heap.objects.size (R (f m).2.heap.objects.size) (f m).1 (g (m.atop past)).1) :
    Tracks past n R (changeOrFail f) (changeOrFail g) := by
  intro m hm hn
  obtain ⟨hcarries, halike⟩ := h m hm hn
  unfold changeOrFail
  revert hcarries halike
  rcases f m with ⟨r, m'⟩
  rcases g (m.atop past) with ⟨r', M'⟩
  rintro ⟨hsealed, hsize, rfl⟩ halike
  cases halike with
  | ok hR => exact .ok (Nat.le_trans hn hsize) hsealed hR
  | error hc => exact .error (Nat.le_trans hn hsize) hsealed hc

theorem tracks_allocate {f g : Heap → α × Heap}
    (h : ∀ heap : Heap, heap.Closed → n ≤ heap.objects.size →
      Heap.Carries past.heap heap (f heap).2 (g (heap.above past.heap)).2 ∧
        R (f heap).2.objects.size (f heap).1 (g (heap.above past.heap)).1) :
    Tracks past n R (allocate f) (allocate g) := by
  intro m hm hn
  obtain ⟨hcarries, hR⟩ := h m.heap hm.heap hn
  obtain ⟨hsealed, hsize, heq⟩ := hm.carries hcarries
  have hend : Ended past n R (.ok (f m.heap).1 { m with heap := (f m.heap).2 })
      (.ok (g (m.heap.above past.heap)).1 ({ m with heap := (f m.heap).2 }.atop past)) :=
    .ok (Nat.le_trans hn hsize) hsealed hR
  rw [← heq] at hend
  exact hend

/-- A failure that carries no value. -/
theorem tracks_throw {c : Cause} (hc : ∀ v, c ≠ .thrown v) : Tracks past n R (throw c : Exec α) (throw c : Exec α) := by
  intro m hm hn
  have h : Ended past n R (.error c m) (.error (c.above past.heap) (m.atop past)) :=
    .error hn hm (Cause.within_of hc)
  rwa [Cause.above_of hc] at h

theorem tracks_unexpected (action : String) (kind : EntryKind) (found : Option Entry) :
    Tracks past n R (unexpected action kind found : Exec α)
      (unexpected action kind (found.map (·.above past.heap)) : Exec α) := by
  have hkind : (found.map (·.above past.heap)).map Entry.kind = found.map Entry.kind := by
    cases found <;> simp
  unfold unexpected
  rw [hkind]
  exact tracks_throw nofun

end Rules

/-! ### The stack -/

/-- An entry taken from the stack. -/
def MirrorsEntry (b : Heap) (n : Nat) (e e' : Option Entry) : Prop :=
  (∀ v, e = some (.value v) → v.Within n) ∧ e' = e.map (·.above b)

theorem tracks_pushEntry {e : Entry} (he : ∀ v, e = .value v → v.Within n) :
    Tracks past n Any (pushEntry e) (pushEntry (e.above past.heap)) := by
  refine tracks_change fun m hm hn => ⟨hm.entries fun v hv => ?_, Nat.le_refl _, rfl⟩
  rcases List.mem_cons.1 hv with h | h
  · exact (he v h.symm).mono hn
  · exact hm.stack v h

theorem tracks_push {v w : Value} (hv : Value.Mirrors past.heap n v w) : Tracks past n Any (push v) (push w) := by
  obtain ⟨hv, rfl⟩ := hv
  exact tracks_pushEntry fun u hu => by cases hu; exact hv

theorem tracks_popEntry : Tracks past n (MirrorsEntry past.heap) popEntry popEntry := by
  intro m hm hn
  have hdrop : { m.atop past with stack := (m.atop past).stack.drop } = { m with stack := m.stack.drop }.atop past := by
    rw [drop_atop]
    rfl
  show Ended past n _ (.ok m.stack.top? { m with stack := m.stack.drop })
    (.ok (m.atop past).stack.top? { m.atop past with stack := (m.atop past).stack.drop })
  rw [top_atop, hdrop]
  refine .ok hn (hm.entries fun v hv => hm.stack v (List.mem_of_mem_tail hv)) ⟨fun v hv => ?_, rfl⟩
  exact hm.stack v (List.mem_of_head? hv)

/-- Taking an entry and going on with it. -/
theorem Tracks.onEntry {α : Type} {R : Nat → α → α → Prop} {x y : Exec (Option Entry)} {f g : Option Entry → Exec α}
    (hx : Tracks past n (MirrorsEntry past.heap) x y)
    (hf : ∀ n' e, n ≤ n' → (∀ v, e = some (.value v) → v.Within n') →
      Tracks past n' R (f e) (g (e.map (·.above past.heap)))) : Tracks past n R (x >>= f) (y >>= g) :=
  hx.bind fun n' e _ hle ⟨hv, he⟩ => he ▸ hf n' e hle hv

theorem tracks_pop : Tracks past n (Value.Mirrors past.heap) pop pop := by
  refine tracks_popEntry.onEntry fun n' e hle hv => ?_
  cases e with
  | none => exact tracks_unexpected "pop" .value none
  | some e =>
    cases e with
    | value v => exact tracks_pure fun _ hn => ⟨(hv v rfl).mono hn, rfl⟩
    | frame f => exact tracks_unexpected "pop" .value (some (.frame f))
    | region r => exact tracks_unexpected "pop" .value (some (.region r))
    | loop env => exact tracks_unexpected "pop" .value (some (.loop env))

theorem tracks_peek : Tracks past n (Value.Mirrors past.heap) peek peek := by
  refine (tracks_reads fun m hm => ⟨fun v hv => hm.stack v (List.mem_of_head? hv), List.head?_map⟩).onEntry
    fun n' e hle hv => ?_
  cases e with
  | none => exact tracks_unexpected "peek" .value none
  | some e =>
    cases e with
    | value v => exact tracks_pure fun _ hn => ⟨(hv v rfl).mono hn, rfl⟩
    | frame f => exact tracks_unexpected "peek" .value (some (.frame f))
    | region r => exact tracks_unexpected "peek" .value (some (.region r))
    | loop env => exact tracks_unexpected "peek" .value (some (.loop env))

/-- A value that is taken or absent. -/
theorem tracks_popIf {α : Type} {R : Nat → α → α → Prop} {f g : Option Value → Exec α} (taken : Bool)
    (hf : ∀ n' v w, n ≤ n' → MirrorsSome past.heap n' v w → Tracks past n' R (f v) (g w)) :
    Tracks past n R (if taken = true then (some <$> pop) >>= f else (pure none) >>= f)
      (if taken = true then (some <$> pop) >>= g else (pure none) >>= g) := by
  split
  · refine Tracks.bind (tracks_pop.map fun _ v w hv => ?_) hf
    exact ⟨fun u hu => by cases hu; exact hv.1, congrArg some hv.2⟩
  · exact Tracks.bind (tracks_pure fun _ _ => mirrorsSome_none) hf

theorem tracks_popOnto {vs ws : List Value} (hv : MirrorsAll past.heap n vs ws) (count : Nat) :
    Tracks past n (MirrorsAll past.heap) (popOnto vs count) (popOnto ws count) := by
  induction count generalizing n vs ws with
  | zero => exact tracks_pure fun _ hn => ⟨fun v hmem => (hv.1 v hmem).mono hn, hv.2⟩
  | succ count ih =>
    refine tracks_pop.bind fun n' v w hle hvw => ih ⟨fun u hu => ?_, ?_⟩
    · rcases List.mem_cons.1 hu with rfl | hu
      · exact hvw.1
      · exact (hv.1 u hu).mono hle
    · rw [hv.2, hvw.2]
      rfl

theorem tracks_popArgs (count : Nat) : Tracks past n (MirrorsAll past.heap) (popArgs count) (popArgs count) :=
  tracks_popOnto ⟨fun _ hv => (List.not_mem_nil hv).elim, rfl⟩ count

/-! ### Names, jumps and properties -/

theorem tracks_resolve (label : Nat) : Tracks past n Equal (resolve label) (resolve label) := by
  refine tracks_readsOrFails fun m _ _ => ?_
  rw [show (m.atop past).program = m.program from rfl]
  cases m.program.jumpTarget? label with
  | some pc => exact .ok rfl
  | none => exact .fails fun _ h => by cases h

theorem tracks_jump (label : Nat) : Tracks past n Any (jump label) (jump label) := by
  exact (tracks_resolve label).onEqual fun _ pc _ => tracks_change fun m hm _ => hm.place m.sectionIndex pc m.env

theorem tracks_propertyKey (name : String) :
    Tracks past n (Value.Mirrors past.heap) (propertyKey name) (propertyKey name) := by
  unfold propertyKey
  split
  · exact tracks_pop
  · exact tracks_pure fun _ _ => Value.mirrors_of_portable rfl

/-- A name means the same. -/
theorem lookup_alike (hm : m.Sealed) (name : String) :
    Alike past.heap m.heap.objects.size (Value.Mirrors past.heap m.heap.objects.size)
      (m.lookup name) ((m.atop past).lookup name) := by
  have hresolve : (m.atop past).heap.resolve? (m.atop past).env name =
      (m.heap.resolve? m.env name).map (·.above past.heap) := Heap.resolve?_above _ _ _ _
  unfold lookup
  rw [hresolve]
  cases hv : m.heap.resolve? m.env name with
  | some v => exact .ok ⟨hm.heap.resolve? hv, rfl⟩
  | none =>
    rw [show (m.atop past).program = m.program from rfl, show (m.atop past).registry = m.registry from rfl]
    cases hf : m.program.function? name with
    | some v =>
      obtain ⟨index, -, hindex⟩ := Option.bind_eq_some_iff.1 hf
      obtain ⟨f, -, rfl⟩ := Option.map_eq_some_iff.1 hindex
      exact .ok (Value.mirrors_of_portable rfl)
    | none =>
      cases m.registry.get? name with
      | some handle => exact .ok (Value.mirrors_of_portable rfl)
      | none => exact .fails fun _ h => by cases h

theorem mirrors_method (methods : List Builtin) (name : String) (b : Heap) :
    Value.Mirrors b n (Builtin.method methods name) (Builtin.method methods name) := by
  refine Value.mirrors_of_portable ?_
  unfold Builtin.method
  split <;> rfl

theorem mirrors_positional {b : Heap} (key : Value) {elementAt elementAt' : Nat → Option Value}
    (hitem : ∀ i, MirrorsSome b n (elementAt i) (elementAt' i)) (length : Nat) (methods : List Builtin) :
    Value.Mirrors b n (positional key elementAt length methods)
      (positional (key.above b) elementAt' length methods) := by
  unfold positional
  rw [Value.readPosition?_above]
  cases key.readPosition? with
  | some i =>
    obtain ⟨hwithin, heq⟩ := hitem i
    simp only [heq]
    cases hi : elementAt i with
    | none => exact Value.mirrors_of_portable rfl
    | some v => exact ⟨hwithin v hi, rfl⟩
  | none =>
    cases key with
    | string name =>
      simp only [Value.above_string]
      split
      · exact Value.mirrors_of_portable rfl
      · exact mirrors_method _ _ _
    | _ => exact Value.mirrors_of_portable rfl

/-- A property reads the same. -/
theorem property_alike (hm : m.Sealed) {target : Value} (ht : target.Within m.heap.objects.size) (key : Value) :
    Alike past.heap m.heap.objects.size (Value.Mirrors past.heap m.heap.objects.size)
      (m.property target key) ((m.atop past).property (target.above past.heap) (key.above past.heap)) := by
  have hkey : (key.above past.heap).keyName (m.atop past).heap = key.keyName m.heap := Value.keyName_above _ _ _
  unfold property
  cases target with
  | object o =>
    have hget : (m.atop past).heap.getLocal? ((m.atop past).heap.fields (o.above past.heap)) (key.keyName m.heap) =
        (m.heap.getLocal? (m.heap.fields o) (key.keyName m.heap)).map (·.above past.heap) := by
      rw [show (m.atop past).heap.fields (o.above past.heap) = _ from Heap.fields_above (ht o rfl) past.heap]
      exact Heap.getLocal?_above _ _ _ _
    simp only [Value.above_object, hkey, hget]
    cases hv : m.heap.getLocal? (m.heap.fields o) (key.keyName m.heap) with
    | none => exact .ok (Value.mirrors_of_portable rfl)
    | some v => exact .ok ⟨hm.heap.getLocal? hv, rfl⟩
  | array a =>
    have hitems : (m.atop past).heap.elements (a.above past.heap) = (m.heap.elements a).map (·.above past.heap) :=
      Heap.elements_above _ _ _
    simp only [Value.above_array, hitems, Array.size_map]
    refine .ok (mirrors_positional key (fun i => ⟨fun v hv => ?_, ?_⟩) _ _)
    · exact hm.heap.elements a v (Array.mem_of_getElem? hv)
    · rw [Heap.element?, hitems, Array.getElem?_map]
      rfl
  | string s =>
    refine .ok (mirrors_positional key (fun i => ⟨fun v hv => ?_, ?_⟩) _ _)
    · obtain ⟨c, -, rfl⟩ := Option.map_eq_some_iff.1 hv
      exact Value.within_of nofun
    · cases s.toList[i]? <;> rfl
  | regex id p =>
    simp only [Value.above_regex, hkey]
    refine .ok ?_
    split
    · exact Value.mirrors_of_portable rfl
    · exact mirrors_method _ _ _
  | error id message =>
    cases key with
    | string name =>
      refine .ok (Value.mirrors_of_portable ?_)
      split <;> rfl
    | _ => exact .ok (Value.mirrors_of_portable rfl)
  | native handle =>
    simp only [Value.above_native, hkey]
    exact (hm.hosts.find handle).read past.heap m.heap (key.keyName m.heap) hm.heap
  | undefined | null | bool | number | function =>
    simp only [Value.above_undefined, Value.above_null, Value.above_bool, Value.above_number, Value.above_function,
      Value.kind, hkey]
    exact .fails nofun

theorem mem_place {i : Nat} {v w : Value} {items : Array Value} (hw : w ∈ Heap.place i v items) :
    w = v ∨ w = .undefined ∨ w ∈ items := by
  unfold Heap.place at hw
  split at hw
  · rcases Array.mem_or_eq_of_mem_setIfInBounds hw with h | h
    · exact .inr (.inr h)
    · exact .inl h
  · rcases Array.mem_push.1 hw with h | h
    · rcases Array.mem_append.1 h with h | h
      · exact .inr (.inr h)
      · exact .inr (.inl (Array.eq_of_mem_replicate h))
    · exact .inl h

theorem place_above (i : Nat) (v : Value) (items : Array Value) (b : Heap) :
    Heap.place i (v.above b) (items.map (·.above b)) = (Heap.place i v items).map (·.above b) := by
  simp only [Heap.place, Array.size_map]
  split
  · simp
  · simp

/-- A property is written the same way. -/
theorem setProperty_alike (hm : m.Sealed) {target v : Value} (ht : target.Within m.heap.objects.size) (key : Value)
    (hv : v.Within m.heap.objects.size) :
    Carries past m (m.setProperty target key v).2
        ((m.atop past).setProperty (target.above past.heap) (key.above past.heap) (v.above past.heap)).2 ∧
      Alike past.heap (m.setProperty target key v).2.heap.objects.size (fun _ _ => True)
        (m.setProperty target key v).1
        ((m.atop past).setProperty (target.above past.heap) (key.above past.heap) (v.above past.heap)).1 := by
  have hkey : (key.above past.heap).keyName (m.atop past).heap = key.keyName m.heap := Value.keyName_above _ _ _
  unfold setProperty
  cases target with
  | object o =>
    have hslot : (m.atop past).heap.fieldSlot ((m.atop past).heap.fields (o.above past.heap)) (key.keyName m.heap) =
        (m.heap.fieldSlot (m.heap.fields o) (key.keyName m.heap)).above past.heap := by
      rw [show (m.atop past).heap.fields (o.above past.heap) = _ from Heap.fields_above (ht o rfl) past.heap]
      exact Heap.fieldSlot_above _ _ _ _
    simp only [Value.above_object, hkey, hslot]
    exact ⟨hm.carries ⟨hm.heap.define hv _ _, Nat.le_refl _, Heap.define_above _ _ _ _ _⟩, .ok trivial⟩
  | array a =>
    simp only [Value.above_array, Value.toPosition?_above, hkey]
    cases key.toPosition? with
    | none => exact ⟨.refl hm, .fails nofun⟩
    | some i =>
      simp only [Heap.checkIndex]
      split
      · rename_i hindex
        split at hindex
        · cases hindex
        · refine ⟨hm.carries ⟨hm.heap.modifyArray a fun items hitems w hw => ?_, Nat.le_refl _, ?_⟩, .ok trivial⟩
          · rcases mem_place hw with rfl | rfl | hw
            · exact hv
            · exact Value.within_of nofun
            · exact hitems w hw
          · exact Heap.modifyArray_above _ _ _ fun items => place_above i v items past.heap
      · rename_i hindex
        split at hindex
        · cases hindex
          exact ⟨.refl hm, .fails nofun⟩
        · cases hindex
  | native handle =>
    simp only [Value.above_native, hkey]
    obtain ⟨hcarries, halike⟩ :=
      (hm.hosts.find handle).write past.heap m.heap (key.keyName m.heap) v hm.heap hv
    exact ⟨hm.carries hcarries, halike⟩
  | undefined | null | bool | number | string | function | error | regex =>
    simp only [Value.above_undefined, Value.above_null, Value.above_bool, Value.above_number, Value.above_string,
      Value.above_function, Value.above_error, Value.above_regex, Value.kind, hkey]
    exact ⟨.refl hm, .fails nofun⟩

theorem alike_apply {b : Heap} (op : BinaryOp) (h : Heap) (v w : Value) :
    Alike b n (Value.Mirrors b n) (op.apply h v w) (op.apply h v w) := by
  unfold BinaryOp.apply
  split
  · exact .ok (Value.mirrors_of_portable rfl)
  · exact .ok (Value.mirrors_of_portable rfl)
  · refine .ok (Value.mirrors_of_portable ?_)
    unfold BinaryOp.onNumbers
    split <;> rfl
  · exact .ok (Value.mirrors_of_portable rfl)
  · exact .ok (Value.mirrors_of_portable rfl)
  · exact .fails nofun

/-! ### Calls -/

theorem bindParams_above (params : List String) (args : List Value) (b : Heap) :
    bindParams params (args.map (·.above b)) = (bindParams params args).map (Prod.map id (·.above b)) := by
  induction params generalizing args with
  | nil => rfl
  | cons p ps ih =>
    cases args with
    | nil => exact congrArg (_ :: ·) (ih [])
    | cons v vs => exact congrArg (_ :: ·) (ih vs)

/-- The scope of a call. -/
theorem callScope_above {h : Heap} {receiver : Option Value} (hr : ∀ v, receiver = some v → v.Within h.objects.size)
    (globals : ScopeId) (b : Heap) :
    callScope (globals.above b) (receiver.map (·.above b)) (h.above b) =
      ((callScope globals receiver h).1.above b, (callScope globals receiver h).2.above b) := by
  cases receiver with
  | none => exact Heap.newChild_above h b globals
  | some v =>
    cases v with
    | object o =>
      have hfields := Heap.fields_above (hr _ rfl o rfl) b
      have hchild := Heap.newChild_above h b (h.fields o)
      simp only [callScope, Option.map_some, Value.above_object, hfields, hchild]
      exact congrArg _ (Heap.define_above _ b _ thisName (.object o))
    | _ => exact Heap.newChild_above h b globals

theorem callScope_closed {h : Heap} {receiver : Option Value} (hh : h.Closed)
    (hr : ∀ v, receiver = some v → v.Within h.objects.size) (globals : ScopeId) :
    (callScope globals receiver h).2.Closed ∧ (callScope globals receiver h).2.objects.size = h.objects.size := by
  unfold callScope
  split
  · rename_i o
    exact ⟨(hh.newScope rfl fun _ ho => (by cases ho)).define (hr _ rfl) _ _, rfl⟩
  · exact ⟨hh.newScope rfl fun _ ho => (by cases ho), rfl⟩

theorem objects_defineAll (h : Heap) (s : ScopeId) (vars : List (String × Value)) :
    (h.defineAll s vars).objects = h.objects := by
  induction vars generalizing h with
  | nil => rfl
  | cons x rest ih => exact ih _

/-- A function is entered the same way. -/
theorem enterFunction_carries (hm : m.Sealed) (f : ScriptFunction) {receiver receiver' : Option Value}
    {args args' : List Value} (hr : MirrorsSome past.heap m.heap.objects.size receiver receiver')
    (ha : MirrorsAll past.heap m.heap.objects.size args args') (fromHost : Bool) :
    Carries past m (enterFunction f receiver args fromHost m)
      (enterFunction f receiver' args' fromHost (m.atop past)) := by
  obtain ⟨hr, rfl⟩ := hr
  obtain ⟨ha, rfl⟩ := ha
  obtain ⟨hclosed, hsize⟩ := callScope_closed hm.heap hr m.globals
  have hscope := callScope_above hr m.globals past.heap
  have hparams : ∀ x ∈ bindParams f.params args, x.2.Within (callScope m.globals receiver m.heap).2.objects.size :=
    fun x hx => by
      rw [hsize]
      rcases Regime.mem_bindParams hx with he | he
      · rw [he]
        exact Value.within_of nofun
      · exact ha _ he
  have hheap : Heap.Carries past.heap m.heap
      ((callScope m.globals receiver m.heap).2.defineAll (callScope m.globals receiver m.heap).1
        (bindParams f.params args))
      ((callScope (m.globals.above past.heap) (receiver.map (·.above past.heap)) (m.heap.above past.heap)).2.defineAll
        (callScope (m.globals.above past.heap) (receiver.map (·.above past.heap)) (m.heap.above past.heap)).1
        (bindParams f.params (args.map (·.above past.heap)))) := by
    refine ⟨?_, Nat.le_of_eq ?_, ?_⟩
    · rw [Heap.Closed, objects_defineAll]
      exact hclosed.defineAll hparams _
    · rw [objects_defineAll, hsize]
    · rw [hscope, bindParams_above]
      exact Heap.defineAll_above _ _ _ _
  obtain ⟨hsealed, hsize', heq⟩ := hm.carries hheap
  refine ⟨⟨hsealed.heap, fun v hv => ?_, hsealed.exception, hm.constants, hm.hosts⟩, hsize', ?_⟩
  · rcases List.mem_cons.1 hv with h | h
    · cases h
    · exact hsealed.stack v h
  · have hscope' : callScope (m.atop past).globals (receiver.map (·.above past.heap)) (m.atop past).heap = _ := hscope
    simp only [enterFunction, onHeap_eq, hscope', bindParams_above, Heap.defineAll_above]
    rfl

/-- A host value is called the same way. -/
theorem callNative_alike (hm : m.Sealed) (handle : NativeHandle) {receiver receiver' : Option Value}
    {args args' : List Value} (hr : MirrorsSome past.heap m.heap.objects.size receiver receiver')
    (ha : MirrorsAll past.heap m.heap.objects.size args args') :
    Carries past m (callNative handle receiver args m).2 (callNative handle receiver' args' (m.atop past)).2 ∧
      Alike past.heap (callNative handle receiver args m).2.heap.objects.size
        (Value.Mirrors past.heap (callNative handle receiver args m).2.heap.objects.size)
        (callNative handle receiver args m).1 (callNative handle receiver' args' (m.atop past)).1 := by
  obtain ⟨hr, rfl⟩ := hr
  obtain ⟨ha, rfl⟩ := ha
  have hcall := (hm.hosts.find handle).call past.heap m.heap receiver args hm.heap hr ha
  obtain ⟨hsealed, hsize, -⟩ := hm.carries hcall.heap
  refine ⟨⟨⟨hsealed.heap, hsealed.stack, hsealed.exception, hm.constants, hm.hosts⟩, hsize, ?_⟩, hcall.result⟩
  have hlog : ∀ lines : List String, past.log ++ m.log ++ lines = past.log ++ (m.log ++ lines) := fun lines => by
    apply Array.ext'
    simp [Array.toList_appendList]
  have hheap : ((m.atop past).hosts.find handle |>.call (receiver.map (·.above past.heap))
      (args.map (·.above past.heap)) (m.atop past).heap).heap = _ := hcall.heap.eq
  have hlines : ((m.atop past).hosts.find handle |>.call (receiver.map (·.above past.heap))
      (args.map (·.above past.heap)) (m.atop past).heap).log = _ := hcall.log
  simp only [callNative, onHeap_eq, hheap, hlines]
  simp only [atop, hlog]

theorem tracks_callNative (handle : NativeHandle) {receiver receiver' : Option Value} {args args' : List Value}
    (hr : MirrorsSome past.heap n receiver receiver') (ha : MirrorsAll past.heap n args args') :
    Tracks past n (Value.Mirrors past.heap) (changeOrFail (callNative handle receiver args))
      (changeOrFail (callNative handle receiver' args')) :=
  tracks_changeOrFail fun _ hm hn => callNative_alike hm handle
    ⟨fun v hv => (hr.1 v hv).mono hn, hr.2⟩ ⟨fun v hv => (ha.1 v hv).mono hn, ha.2⟩

theorem tracks_enterFunction (f : ScriptFunction) {receiver receiver' : Option Value} {args args' : List Value}
    (hr : MirrorsSome past.heap n receiver receiver') (ha : MirrorsAll past.heap n args args') :
    Tracks past n Any (change (enterFunction f receiver args false)) (change (enterFunction f receiver' args' false)) :=
  tracks_change fun _ hm hn => enterFunction_carries hm f
    ⟨fun v hv => (hr.1 v hv).mono hn, hr.2⟩ ⟨fun v hv => (ha.1 v hv).mono hn, ha.2⟩ false

theorem tracks_callValue {callee callee' : Value} {receiver receiver' : Option Value} {args args' : List Value}
    (hc : Value.Mirrors past.heap n callee callee') (hr : MirrorsSome past.heap n receiver receiver')
    (ha : MirrorsAll past.heap n args args') :
    Tracks past n Any (callValue callee receiver args) (callValue callee' receiver' args') := by
  obtain ⟨-, rfl⟩ := hc
  cases callee with
  | function id f => exact tracks_enterFunction f hr ha
  | native handle =>
    simp only [Value.above_native, callValue]
    split
    · exact (tracks_callNative handle hr ha).bind fun _ _ _ _ hv => tracks_push hv
    · exact tracks_throw fun _ h => by cases h
  | _ => exact tracks_throw fun _ h => by cases h

/-! ### Objects -/

/-- A new object, as a result. -/
def MirrorsObject (b : Heap) (n : Nat) (o o' : ObjectId) : Prop := o.index < n ∧ o' = o.above b

theorem MirrorsObject.value {b : Heap} {o o' : ObjectId} (ho : MirrorsObject b n o o') :
    Value.Mirrors b n (.object o) (.object o') :=
  ⟨fun _ h => by cases h; exact ho.1, congrArg Value.object ho.2⟩

/-- An object is made the same way. -/
theorem newInstance_carries {h b : Heap} (hh : h.Closed) (className : String) (globals : ScopeId)
    {vars : List (String × Value)} (hv : ∀ x ∈ vars, x.2.Within h.objects.size) :
    Heap.Carries b h (newInstance className globals vars h).2
        (newInstance className (globals.above b) (vars.map (Prod.map id (·.above b))) (h.above b)).2 ∧
      MirrorsObject b (newInstance className globals vars h).2.objects.size (newInstance className globals vars h).1
        (newInstance className (globals.above b) (vars.map (Prod.map id (·.above b))) (h.above b)).1 := by
  have hsize : (h.newObject className globals).2.objects.size = h.objects.size + 1 := by
    simp [Heap.newObject, Heap.newScope]
  have hlt : (h.newObject className globals).1.index < (h.newObject className globals).2.objects.size := by
    rw [hsize]
    exact Nat.lt_succ_self _
  have hclosed := hh.newObject className globals
  unfold newInstance
  rw [Heap.newObject_above, Heap.fields_above hlt, objects_defineAll]
  refine ⟨⟨?_, ?_, Heap.defineAll_above _ _ _ _⟩, hlt, rfl⟩
  · rw [Heap.Closed, objects_defineAll]
    exact hclosed.defineAll (fun x hx => (hv x hx).mono (by omega)) _
  · rw [objects_defineAll, hsize]
    exact Nat.le_succ _

theorem tracks_newInstance (className : String) (globals : ScopeId) (vars : List (String × Value))
    {vars' : List (String × Value)} (hv : ∀ x ∈ vars, x.2.Within n)
    (hvars : vars' = vars.map (Prod.map id (·.above past.heap))) :
    Tracks past n (MirrorsObject past.heap) (allocate (newInstance className globals vars))
      (allocate (newInstance className (globals.above past.heap) vars')) := by
  subst hvars
  exact tracks_allocate fun _ hh hn => newInstance_carries hh className globals fun x hx => (hv x hx).mono hn

theorem tracks_instantiate (className : String) {args args' : List Value} (ha : MirrorsAll past.heap n args args') :
    Tracks past n Any (instantiate className args) (instantiate className args') := by
  refine Tracks.onEqual (tracks_reads fun _ _ => rfl) fun n₁ methods h₁ => ?_
  cases methods with
  | some methods =>
    refine Tracks.onScope (tracks_reads fun _ _ => rfl) fun n₂ globals h₂ => ?_
    refine (tracks_newInstance className globals (methodFields (namedMethods className methods)) ?_ ?_).bind
      fun n₃ object object' h₃ hobject => ?_
    · intro x hx
      obtain ⟨y, -, rfl⟩ := List.mem_map.1 hx
      exact Value.within_of fun _ h => by cases h
    · simp [methodFields, Identity.above]
    · have hle : n ≤ n₃ := Nat.le_trans h₁ (Nat.le_trans h₂ h₃)
      split
      · exact tracks_enterFunction _ ⟨fun v hv => by cases hv; exact hobject.value.1, congrArg some hobject.value.2⟩
          ⟨fun v hv => (ha.1 v hv).mono hle, ha.2⟩
      · exact tracks_push hobject.value
  | none =>
    refine Tracks.onEqual (tracks_reads fun _ _ => rfl) fun n₂ handle h₂ => ?_
    have hle : n ≤ n₂ := Nat.le_trans h₁ h₂
    cases handle with
    | some handle =>
      simp only
      split
      · exact (tracks_callNative handle mirrorsSome_none ⟨fun v hv => (ha.1 v hv).mono hle, ha.2⟩).bind
          fun _ _ _ _ hv => tracks_push hv
      · exact tracks_throw fun _ h => by cases h
    | none => exact tracks_throw fun _ h => by cases h

theorem tracks_createRecord (keys : List String) : Tracks past n Any (createRecord keys) (createRecord keys) := by
  refine (tracks_popArgs keys.length).bind fun n₁ values values' h₁ hvalues =>
    Tracks.onScope (tracks_reads fun _ _ => rfl) fun n₂ globals h₂ => ?_
  refine (tracks_newInstance recordClass globals (keys.zip values) (fun x hx => ?_) ?_).bind
    fun _ _ _ _ hobject => tracks_push hobject.value
  · exact (hvalues.1 _ (List.of_mem_zip hx).2).mono h₂
  · rw [hvalues.2, List.zip_map_right]

/-! ### Markers -/

theorem unwindLoop_above (entries : List Entry) (b : Heap) :
    unwindLoop (entries.map (·.above b)) = match unwindLoop entries with
      | .ok (env, rest) => .ok (env.above b, rest.map (·.above b))
      | .error (found, rest) => .error (found.map (·.above b), rest.map (·.above b)) := by
  induction entries with
  | nil => rfl
  | cons e rest ih =>
    cases e with
    | value v => exact ih
    | _ => rfl

/-- What unwinding leaves was there before. -/
theorem unwindLoop_subset (entries rest : List Entry) :
    (∀ env, unwindLoop entries = .ok (env, rest) → rest ⊆ entries) ∧
      ∀ found, unwindLoop entries = .error (found, rest) → rest ⊆ entries := by
  induction entries with
  | nil =>
    refine ⟨nofun, fun _ h => ?_⟩
    cases h
    exact List.Subset.refl _
  | cons e tail ih =>
    cases e with
    | value v =>
      exact ⟨fun env h => List.subset_cons_of_subset _ (ih.1 env h),
        fun found h => List.subset_cons_of_subset _ (ih.2 found h)⟩
    | loop env =>
      refine ⟨fun _ h => ?_, nofun⟩
      cases h
      exact List.Subset.refl _
    | frame | region =>
      refine ⟨nofun, fun _ h => ?_⟩
      cases h
      exact List.subset_cons_self _ _

theorem tracks_exitLoop (label : Nat) : Tracks past n Any (exitLoop label) (exitLoop label) := by
  intro m hm hn
  have hunwind : unwindLoop (m.atop past).stack.entries = _ := unwindLoop_above m.stack.entries past.heap
  have hrun : ∀ M : Machine, exitLoop label M = match unwindLoop M.stack.entries with
      | .ok (env, entries) => jump label { M with env, stack := .ofList entries }
      | .error (found, rest) => unexpected "LOOP_EXIT" .loop found { M with stack := .ofList rest } := by
    intro M
    simp only [exitLoop, exec_bind, reads]
    cases unwindLoop M.stack.entries with
    | ok x => rfl
    | error x => rfl
  rw [hrun, hrun, hunwind]
  cases hu : unwindLoop m.stack.entries with
  | ok x =>
    obtain ⟨env, entries⟩ := x
    have hkeep : ({ m with env, stack := .ofList entries } : Machine).Sealed :=
      ⟨hm.heap, fun v hv => hm.stack v ((unwindLoop_subset _ _).1 env hu hv), hm.exception, hm.constants, hm.hosts⟩
    exact tracks_jump label _ hkeep hn
  | error x =>
    obtain ⟨found, entries⟩ := x
    have hkeep : ({ m with stack := .ofList entries } : Machine).Sealed :=
      hm.entries fun v hv => hm.stack v ((unwindLoop_subset _ _).2 found hu hv)
    exact tracks_unexpected "LOOP_EXIT" .loop found _ hkeep hn

theorem tracks_returnToFrame : Tracks past n Equal returnToFrame returnToFrame := by
  refine tracks_pop.bind fun n₁ v w h₁ hv => tracks_popEntry.onEntry fun n₂ e h₂ _ => ?_
  cases e with
  | none => exact tracks_unexpected "RETURN" .frame none
  | some e =>
    cases e with
    | frame f =>
      refine (tracks_change fun m hm _ => hm.place f.returnSection f.returnPc f.env).bind fun n₃ _ _ h₃ _ => ?_
      refine (tracks_push ⟨hv.1.mono (Nat.le_trans h₂ h₃), hv.2⟩).bind fun _ _ _ _ _ => tracks_pure fun _ _ => rfl
    | value v => exact tracks_unexpected "RETURN" .frame (some (.value v))
    | region r => exact tracks_unexpected "RETURN" .frame (some (.region r))
    | loop env => exact tracks_unexpected "RETURN" .frame (some (.loop env))

theorem tracks_openRegion (handler : Nat) (final : Option Nat) (keep : Bool) :
    Tracks past n Any (openRegion handler final keep) (openRegion handler final keep) := by
  refine tracks_popIf keep fun n₁ held held' h₁ hh => (tracks_resolve handler).onEqual fun n₂ handlerPc h₂ => ?_
  -- the region goes below the operand that is kept
  have hpush : ∀ (n₃ : Nat) (finalPc : Option Nat), n₂ ≤ n₃ →
      Tracks past n₃ Any (markRegion handlerPc finalPc held) (markRegion handlerPc finalPc held') := by
    intro n₃ finalPc h₃
    refine Tracks.bind (tracks_change fun m hm _ => ⟨hm.entries fun v hv => ?_, Nat.le_refl _, rfl⟩)
      fun n₄ _ _ h₄ _ => ?_
    · rcases List.mem_cons.1 hv with h | h
      · cases h
      · exact hm.stack v h
    · obtain ⟨hwithin, rfl⟩ := hh
      cases held with
      | none => exact tracks_pure fun _ _ => trivial
      | some v => exact tracks_push ⟨(hwithin v rfl).mono (Nat.le_trans h₂ (Nat.le_trans h₃ h₄)), rfl⟩
  cases final with
  | none =>
    exact Tracks.onEqual (tracks_pure fun _ _ => rfl) fun n₃ finalPc h₃ => hpush n₃ finalPc h₃
  | some l =>
    exact Tracks.onEqual ((tracks_resolve l).map fun _ _ _ h => congrArg some h) fun n₃ finalPc h₃ =>
      hpush n₃ finalPc h₃

/-! ### Instructions -/

/-- A step that goes on. -/
theorem Tracks.next {α : Type} {R : Nat → α → α → Prop} {x y : Exec α} (hx : Tracks past n R x y) (a : Option Stop) :
    Tracks past n Equal (do let _ ← x; return a) (do let _ ← y; return a) :=
  hx.bind fun _ _ _ _ _ => tracks_pure fun _ _ => rfl

/-- A value that is pushed. -/
theorem Tracks.give {x y : Exec Value} (hx : Tracks past n (Value.Mirrors past.heap) x y) :
    Tracks past n Equal (do push (← x); return none : Exec (Option Stop)) (do push (← y); return none) :=
  hx.bind fun _ _ _ _ hv => (tracks_push hv).next none

/-- A marker that is taken off the stack. -/
theorem tracks_takeMarker (action : String) (kind : EntryKind) {f : Option Entry → Exec (Option Stop)}
    (hf : ∀ e, f e = Pure.pure none ∧ f (e.map (·.above past.heap)) = Pure.pure none ∨
      f e = unexpected action kind e ∧
        f (e.map (·.above past.heap)) = unexpected action kind (e.map (·.above past.heap))) :
    Tracks past n Equal (popEntry >>= f) (popEntry >>= f) := by
  refine tracks_popEntry.onEntry fun _ e _ _ => ?_
  rcases hf e with ⟨he, he'⟩ | ⟨he, he'⟩
  · rw [he, he']
    exact tracks_pure fun _ _ => rfl
  · rw [he, he']
    exact tracks_unexpected action kind e

/-- **An instruction** does the same over another machine. -/
theorem tracks_dispatch (i : Instruction) : Tracks past n Equal (dispatch i) (dispatch i) := by
  unfold dispatch
  cases i.op with
  | nop | label => exact tracks_pure fun _ _ => rfl
  | const index =>
    refine Tracks.give (tracks_readsOrFails fun m hm _ => ?_)
    rw [show (m.atop past).program = m.program from rfl]
    cases hv : m.program.constants[index]? with
    | some v => exact .ok (Value.mirrors_of_portable (hm.constants v (Array.mem_of_getElem? hv)))
    | none => exact .fails fun _ h => by cases h
  | dup => exact tracks_peek.give
  | pop => exact tracks_pop.next none
  | fetch name => exact Tracks.give (tracks_readsOrFails fun m hm _ => lookup_alike hm name)
  | fetchProperty name =>
    refine (tracks_propertyKey name).onValue fun _ key _ _ => tracks_pop.onValue fun _ target _ ht => ?_
    exact Tracks.give (tracks_readsOrFails fun m hm hn => property_alike hm (ht.mono hn) key)
  | store name =>
    refine tracks_pop.onValue fun n₁ v _ hv =>
      Tracks.onScope (tracks_readsOrFails fun m _ _ => ?_) fun n₂ slot h₂ => ?_
    · have hslot : (m.atop past).heap.slot (m.atop past).env name = _ := Heap.slot_above m.heap past.heap m.env name
      rw [hslot]
      unfold Heap.slot
      cases m.heap.definer? (m.heap.chain m.env) name with
      | some s => exact .ok rfl
      | none => exact .fails fun _ h => by cases h
    · refine Tracks.next (tracks_change fun m hm hn => ?_) none
      exact hm.carries ⟨hm.heap.define (hv.mono (Nat.le_trans h₂ hn)) slot name, Nat.le_refl _,
        Heap.define_above m.heap past.heap slot name v⟩
  | storeProperty name =>
    refine (tracks_propertyKey name).onValue fun _ key _ _ => tracks_pop.onValue fun _ target _ ht =>
      tracks_pop.onValue fun _ v h₃ hv => ?_
    exact (tracks_changeOrFail (R := Any) fun m hm hn =>
      setProperty_alike hm (ht.mono (Nat.le_trans h₃ hn)) key (hv.mono hn)).next none
  | declare name =>
    refine Tracks.onScope (tracks_reads fun _ _ => rfl) fun _ env _ => ?_
    refine Tracks.next (tracks_change fun m hm hn => ?_) none
    exact hm.carries ⟨hm.heap.define (v := .undefined) (Value.within_of fun _ h => by cases h) env name, Nat.le_refl _,
      Heap.define_above m.heap past.heap env name .undefined⟩
  | binary op =>
    refine tracks_pop.onValue fun _ w _ _ => tracks_pop.onValue fun _ v _ _ => ?_
    refine Tracks.give (tracks_readsOrFails fun m _ _ => ?_)
    rw [show op.apply (m.atop past).heap _ _ = _ from BinaryOp.apply_above op m.heap past.heap v w]
    exact alike_apply op m.heap v w
  | jump label => exact (tracks_jump label).next none
  | jumpTrue label | jumpFalse label =>
    refine tracks_pop.onValue fun _ v _ _ => ?_
    rw [Value.isTruthy_above]
    split
    · exact (tracks_jump label).next none
    · exact tracks_pure fun _ _ => rfl
  | call argc isMethod =>
    refine tracks_pop.bind fun n₁ callee _ h₁ hcallee => ?_
    refine tracks_popIf isMethod fun n₂ receiver _ h₂ hr => (tracks_popArgs argc).bind fun n₃ args _ h₃ ha => ?_
    exact (tracks_callValue ⟨hcallee.1.mono (Nat.le_trans h₂ h₃), hcallee.2⟩
      ⟨fun v hv => (hr.1 v hv).mono h₃, hr.2⟩ ha).next none
  | ret => exact tracks_returnToFrame
  | enterScope =>
    refine Tracks.onScope (tracks_reads fun _ _ => rfl) fun _ env _ =>
      Tracks.onScope (tracks_allocate fun h hh hn => ?_) fun _ inner _ => ?_
    · rw [Heap.newChild_above]
      exact ⟨⟨hh.newScope rfl fun _ ho => (by cases ho), Nat.le_refl _, rfl⟩, rfl⟩
    · exact (tracks_change fun m hm _ => hm.place m.sectionIndex m.pc inner).next none
  | leaveScope =>
    refine (tracks_reads (R := fun _ s s' => s' = s.map (·.above past.heap)) fun m _ => ?_).bind
      fun n₁ outer _ h₁ houter => ?_
    · exact Heap.parent?_above m.heap past.heap m.env
    · obtain rfl := houter
      cases outer with
      | some outer => exact (tracks_change fun m hm _ => hm.place m.sectionIndex m.pc outer).next none
      | none => exact tracks_throw fun _ h => by cases h
  | loopStart =>
    refine Tracks.next (tracks_change fun m hm _ => ?_) none
    refine ⟨hm.entries fun v hv => ?_, Nat.le_refl _, rfl⟩
    rcases List.mem_cons.1 hv with h | h
    · cases h
    · exact hm.stack v h
  | loopEnd =>
    refine tracks_takeMarker "LOOP_END" .loop fun e => ?_
    rcases e with _ | (_ | _ | _ | _)
    all_goals first | exact .inl ⟨rfl, rfl⟩ | exact .inr ⟨rfl, rfl⟩
  | loopExit label => exact (tracks_exitLoop label).next none
  | tryStart handler final keep => exact (tracks_openRegion handler final keep).next none
  | tryEnd =>
    refine tracks_takeMarker "END_TRY" .region fun e => ?_
    rcases e with _ | (_ | _ | _ | _)
    all_goals first | exact .inl ⟨rfl, rfl⟩ | exact .inr ⟨rfl, rfl⟩
  | throw =>
    refine tracks_pop.onValue fun _ v _ hv m hm hn => ?_
    exact .error hn hm fun w hw => by cases hw; exact hv.mono hn
  | createObject className argc =>
    exact (tracks_popArgs argc).bind fun _ _ _ _ ha => (tracks_instantiate className ha).next none
  | createArray count =>
    refine (tracks_popArgs count).bind fun n₁ items _ h₁ hitems => ?_
    obtain ⟨hitems, rfl⟩ := hitems
    refine (tracks_allocate (R := fun _ a a' => a' = a.above past.heap) fun h hh hn => ?_).bind
      fun _ a _ _ ha => ?_
    · rw [← List.map_toArray, Heap.newArray_above]
      exact ⟨⟨hh.newArray fun v hv => (hitems v (List.mem_toArray.1 hv)).mono hn, Nat.le_refl _, rfl⟩, rfl⟩
    · obtain rfl := ha
      exact (tracks_push (v := .array a) ⟨Value.within_of fun _ h => (by cases h), rfl⟩).next none
  | createRecord keys => exact (tracks_createRecord keys).next none
  | debugger =>
    refine Tracks.onEqual (tracks_reads fun _ _ => rfl) fun _ calls _ => ?_
    split
    · exact tracks_pure fun _ _ => rfl
    · refine Tracks.next (tracks_change fun m hm _ => ?_) (some .breakpoint)
      refine ⟨⟨hm.heap, hm.stack, hm.exception, hm.constants, hm.hosts⟩, Nat.le_refl _, ?_⟩
      simp only [atop, Array.append_push]
      rfl
  | eof => exact tracks_pure fun _ _ => rfl

end Machine

end ScriptMachine
