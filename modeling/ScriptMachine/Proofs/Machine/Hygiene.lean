import ScriptMachine.Proofs.Machine.Limits
import ScriptMachine.Proofs.Machine.Regions
import ScriptMachine.Proofs.Value.Hygiene

/-!
# Hygiene — machines that use a name for fields only

A program that neither declares a name nor has it for a parameter gives it to no scope but the fields of objects. A
machine is `Hygienic` for such a name if this holds of its heap, and if the values on its stack lead to objects that
were made. One instruction keeps a machine hygienic (`upkeep_dispatch`), unwinding keeps it, and so does every request
of a host who does not define the name (`Attended.hygienic`).
-/

namespace ScriptMachine

/-- A program that does not use a name. -/
structure Program.Avoids (p : Program) (n : String) : Prop where
  functions : ∀ f ∈ p.functions, n ∉ f.params
  constants : ∀ v ∈ p.constants, v.Clean n 0
  declares : ∀ x pc i, p.instruction? x pc = some i → i.op ≠ .declare n
  this : n ≠ thisName

namespace Machine

/-- A machine of a program that uses a name for fields only. -/
structure Hygienic (p : Program) (n : String) (m : Machine) : Prop where
  program : m.program = p
  hosts : m.hosts.Hygienic n
  heap : m.heap.Hygienic n
  stack : ∀ v, .value v ∈ m.stack.entries → v.Clean n m.heap.objects.size
  exception : ∀ v, m.lastException = some v → v.Clean n m.heap.objects.size

variable {p : Program} {n : String} {k k' : Nat} {m u v w : Machine}

/-- A hygienic machine with another heap. -/
theorem Hygienic.keeps (hm : Hygienic p n m) {h : Heap} (hk : Heap.Keeps n m.heap h) :
    Hygienic p n { m with heap := h } :=
  ⟨hm.program, hm.hosts, hk.hygienic, fun v hv => (hm.stack v hv).mono hk.size,
    fun v hv => (hm.exception v hv).mono hk.size⟩

/-- A hygienic machine with other entries. -/
theorem Hygienic.entries (hm : Hygienic p n m) {stack : Stack}
    (hs : ∀ v, .value v ∈ stack.entries → v.Clean n m.heap.objects.size) : Hygienic p n { m with stack } :=
  ⟨hm.program, hm.hosts, hm.heap, hs, hm.exception⟩

/-! ### Steps of instructions -/

/-- An end on a hygienic machine with at least `k` objects. The result is as `R` says for their number. -/
def Upkept {α : Type} (p : Program) (n : String) (k : Nat) (R : Nat → α → Prop) : EStateM.Result Cause Machine α → Prop
  | .ok a u => Hygienic p n u ∧ k ≤ u.heap.objects.size ∧ R u.heap.objects.size a
  | .error c u => Hygienic p n u ∧ k ≤ u.heap.objects.size ∧ c.Clean n u.heap.objects.size

/-- Steps that keep a machine with at least `k` objects hygienic. -/
def Upkeep {α : Type} (p : Program) (n : String) (k : Nat) (R : Nat → α → Prop) (steps : Exec α) : Prop :=
  ∀ m, Hygienic p n m → k ≤ m.heap.objects.size → Upkept p n k R (steps m)

/-- Results of which nothing is asked. -/
def AnyResult {α : Type} : Nat → α → Prop := fun _ _ => True

/-- Clean values. -/
def CleanAll (n : String) (k : Nat) (vs : List Value) : Prop := ∀ v ∈ vs, v.Clean n k

/-- A clean value, or none. -/
def CleanSome (n : String) (k : Nat) (v : Option Value) : Prop := ∀ w, v = some w → w.Clean n k

theorem cleanAll_nil : CleanAll n k [] := nofun

theorem cleanSome_none : CleanSome n k none := nofun

theorem CleanAll.mono {vs : List Value} (hv : CleanAll n k vs) (hk : k ≤ k') : CleanAll n k' vs := fun v hm =>
  (hv v hm).mono hk

theorem CleanSome.mono {v : Option Value} (hv : CleanSome n k v) (hk : k ≤ k') : CleanSome n k' v := fun w hw =>
  (hv w hw).mono hk

section Rules

variable {α β : Type} {R : Nat → α → Prop} {S : Nat → β → Prop}

theorem Upkept.mono {r : EStateM.Result Cause Machine α} (h : Upkept p n k' R r) (hk : k ≤ k') : Upkept p n k R r := by
  cases r with
  | ok => exact ⟨h.1, Nat.le_trans hk h.2.1, h.2.2⟩
  | error => exact ⟨h.1, Nat.le_trans hk h.2.1, h.2.2⟩

theorem Upkeep.bind {a : Exec α} {f : α → Exec β} (ha : Upkeep p n k R a)
    (hf : ∀ k' b, k ≤ k' → R k' b → Upkeep p n k' S (f b)) : Upkeep p n k S (a >>= f) := by
  intro m hm hk
  have h := ha m hm hk
  rw [exec_bind]
  cases hr : a m with
  | error c u => rw [hr] at h; exact h
  | ok b u =>
    rw [hr] at h
    obtain ⟨hu, hle, hb⟩ := h
    exact (hf _ b hle hb u hu (Nat.le_refl _)).mono hle

theorem Upkeep.map {a : Exec α} {f : α → β} (ha : Upkeep p n k R a) (hf : ∀ k' b, R k' b → S k' (f b)) :
    Upkeep p n k S (f <$> a) := by
  intro m hm hk
  have h := ha m hm hk
  show Upkept p n k S (EStateM.map f a m)
  unfold EStateM.map
  cases hr : a m <;> rw [hr] at h
  · exact ⟨h.1, h.2.1, hf _ _ h.2.2⟩
  · exact h

theorem upkeep_pure {a : α} (ha : ∀ k', k ≤ k' → R k' a) : Upkeep p n k R (pure a : Exec α) := fun _ hm hk =>
  ⟨hm, hk, ha _ hk⟩

/-- The result of steps does not matter. -/
theorem Upkeep.returning {a : Exec α} (ha : Upkeep p n k R a) (b : β) :
    Upkeep p n k AnyResult (a >>= fun _ => (pure b : Exec β)) := ha.bind fun _ _ _ _ => upkeep_pure fun _ _ => trivial

theorem upkeep_reads {f : Machine → α} (h : ∀ m, Hygienic p n m → R m.heap.objects.size (f m)) :
    Upkeep p n k R (reads f) := fun m hm hk => ⟨hm, hk, h m hm⟩

theorem upkeep_look (f : Machine → α) : Upkeep p n k AnyResult (reads f) := upkeep_reads fun _ _ => trivial

theorem upkeep_readsOrFails {f : Machine → Except Cause α} (h : ∀ m, Hygienic p n m → k ≤ m.heap.objects.size →
    match f m with
    | .ok a => R m.heap.objects.size a
    | .error c => c.Clean n m.heap.objects.size) : Upkeep p n k R (readsOrFails f) := by
  intro m hm hk
  have h := h m hm hk
  unfold readsOrFails
  cases hr : f m <;> rw [hr] at h <;> exact ⟨hm, hk, h⟩

/-- A value that is read. -/
theorem upkeep_answer {f : Machine → Except Cause Value}
    (h : ∀ m, Hygienic p n m → k ≤ m.heap.objects.size → Cleans n m.heap.objects.size (f m)) :
    Upkeep p n k (Value.Clean n) (readsOrFails f) :=
  upkeep_readsOrFails fun m hm hk => by
    have h := h m hm hk
    revert h
    cases f m <;> exact id

theorem upkeep_change {f : Machine → Machine} (h : ∀ m, Hygienic p n m → k ≤ m.heap.objects.size →
    Hygienic p n (f m) ∧ m.heap.objects.size ≤ (f m).heap.objects.size) : Upkeep p n k AnyResult (change f) :=
  fun m hm hk => ⟨(h m hm hk).1, Nat.le_trans hk (h m hm hk).2, trivial⟩

/-- A change that leaves the heap, the host values and the values on the stack alone. -/
theorem upkeep_aside {f : Machine → Machine} (hprogram : ∀ m, (f m).program = m.program)
    (hhosts : ∀ m, (f m).hosts = m.hosts) (hheap : ∀ m, (f m).heap = m.heap)
    (hstack : ∀ m v, .value v ∈ (f m).stack.entries → .value v ∈ m.stack.entries)
    (hexception : ∀ m, (f m).lastException = m.lastException) : Upkeep p n k AnyResult (change f) :=
  upkeep_change fun m hm _ => by
    refine ⟨⟨(hprogram m).trans hm.program, ?_, ?_, fun v hv => ?_, fun v hv => ?_⟩, ?_⟩
    · rw [hhosts]
      exact hm.hosts
    · rw [hheap]
      exact hm.heap
    · rw [hheap]
      exact hm.stack v (hstack m v hv)
    · rw [hheap]
      rw [hexception] at hv
      exact hm.exception v hv
    · rw [hheap]

theorem upkeep_mapHeap {f : Machine → Heap → Heap}
    (h : ∀ m, Hygienic p n m → k ≤ m.heap.objects.size → Heap.Keeps n m.heap (f m m.heap)) :
    Upkeep p n k AnyResult (change fun m => m.mapHeap (f m)) :=
  upkeep_change fun m hm hk => ⟨hm.keeps (h m hm hk), (h m hm hk).size⟩

theorem upkeep_allocate {f : Heap → α × Heap} (h : ∀ heap : Heap, heap.Hygienic n → k ≤ heap.objects.size →
    Heap.Keeps n heap (f heap).2 ∧ R (f heap).2.objects.size (f heap).1) : Upkeep p n k R (allocate f) :=
  fun m hm hk => by
    obtain ⟨hkeeps, hR⟩ := h m.heap hm.heap hk
    exact ⟨hm.keeps hkeeps, Nat.le_trans hk hkeeps.size, hR⟩

theorem upkeep_changeOrFail {f : Machine → Except Cause α × Machine} (h : ∀ m, Hygienic p n m →
    k ≤ m.heap.objects.size → Hygienic p n (f m).2 ∧ m.heap.objects.size ≤ (f m).2.heap.objects.size ∧
      match (f m).1 with
      | .ok a => R (f m).2.heap.objects.size a
      | .error c => c.Clean n (f m).2.heap.objects.size) : Upkeep p n k R (changeOrFail f) := by
  intro m hm hk
  have h := h m hm hk
  unfold changeOrFail
  revert h
  rcases f m with ⟨r, u⟩
  cases r <;> exact fun ⟨hu, hle, hr⟩ => ⟨hu, Nat.le_trans hk hle, hr⟩

theorem upkeep_throw {c : Cause} (hc : ∀ k', k ≤ k' → c.Clean n k') : Upkeep p n k R (throw c : Exec α) :=
  fun _ hm hk => ⟨hm, hk, hc _ hk⟩

/-- A failure that carries no value. -/
theorem upkeep_fail {c : Cause} (hc : ∀ v, c ≠ .thrown v) : Upkeep p n k R (throw c : Exec α) :=
  upkeep_throw fun _ _ => Cause.clean_of hc

end Rules

/-! ### The stack -/

theorem upkeep_push {v : Value} (hv : v.Clean n k) : Upkeep p n k AnyResult (push v) :=
  upkeep_change fun _ hm hk => ⟨hm.entries fun w hw => by
    rcases List.mem_cons.1 hw with he | hw
    · cases he
      exact hv.mono hk
    · exact hm.stack w hw, Nat.le_refl _⟩

theorem upkeep_popEntry : Upkeep p n k (fun k' e => ∀ v, e = some (.value v) → v.Clean n k') popEntry :=
  fun _ hm hk => ⟨hm.entries fun w hw => hm.stack w (List.mem_of_mem_tail hw), hk,
    fun v hv => hm.stack v (List.mem_of_mem_head? hv)⟩

theorem upkeep_pop : Upkeep p n k (Value.Clean n) pop := by
  refine upkeep_popEntry.bind fun k' e _ he => ?_
  split
  · rename_i v
    exact upkeep_pure fun _ hk => (he v rfl).mono hk
  · exact upkeep_fail nofun

theorem upkeep_peek : Upkeep p n k (Value.Clean n) peek := by
  have htop : Upkeep p n k (fun k' e => ∀ v, e = some (.value v) → v.Clean n k') (reads (·.stack.top?)) :=
    upkeep_reads fun _ hm v hv => hm.stack v (List.mem_of_mem_head? hv)
  refine htop.bind fun k' e _ he => ?_
  split
  · rename_i v
    exact upkeep_pure fun _ hk => (he v rfl).mono hk
  · exact upkeep_fail nofun

/-- A value that is taken and kept for later. -/
theorem upkeep_held : Upkeep p n k (CleanSome n) (some <$> pop) :=
  upkeep_pop.map fun _ _ hv w hw => by
    cases hw
    exact hv

theorem upkeep_popOnto {vs : List Value} (hv : CleanAll n k vs) (count : Nat) :
    Upkeep p n k (CleanAll n) (popOnto vs count) := by
  induction count generalizing k vs with
  | zero => exact upkeep_pure fun _ hk => hv.mono hk
  | succ count ih =>
    refine upkeep_pop.bind fun k' v hk hvalue => ih fun w hw => ?_
    rcases List.mem_cons.1 hw with rfl | hw
    · exact hvalue
    · exact (hv w hw).mono hk

theorem upkeep_popArgs (count : Nat) : Upkeep p n k (CleanAll n) (popArgs count) := upkeep_popOnto cleanAll_nil count

theorem upkeep_jump (l : Nat) : Upkeep p n k AnyResult (jump l) := by
  have hresolve : Upkeep p n k AnyResult (resolve l) := upkeep_readsOrFails fun m _ _ => by
    cases m.program.jumpTarget? l
    · exact Cause.clean_of nofun
    · trivial
  exact hresolve.bind fun _ pc _ _ =>
    upkeep_aside (fun _ => rfl) (fun _ => rfl) (fun _ => rfl) (fun _ _ => id) fun _ => rfl

theorem upkeep_propertyKey (name : String) : Upkeep p n k (Value.Clean n) (propertyKey name) := by
  unfold propertyKey
  split
  · exact upkeep_pop
  · exact upkeep_pure fun _ _ => Value.clean_of nofun nofun

/-! ### Names and properties -/

variable (hp : p.Avoids n)

include hp in
theorem Hygienic.lookup (hm : Hygienic p n m) (name : String) : Cleans n m.heap.objects.size (m.lookup name) := by
  unfold Machine.lookup
  split
  · rename_i v hv
    exact hm.heap.resolve? hv
  · split
    · rename_i v hv
      obtain ⟨i, -, hi⟩ := Option.bind_eq_some_iff.1 hv
      obtain ⟨f, hf, rfl⟩ := Option.map_eq_some_iff.1 hi
      exact Value.clean_function (hp.functions f (hm.program ▸ Array.mem_of_getElem? hf))
    · split
      · exact Value.clean_of nofun nofun
      · exact Cause.clean_of nofun

theorem clean_method (methods : List Builtin) (name : String) : (Builtin.method methods name).Clean n k := by
  unfold Builtin.method
  split <;> exact Value.clean_of nofun nofun

theorem clean_positional {key : Value} {elementAt : Nat → Option Value} {length : Nat} {methods : List Builtin}
    (he : ∀ i v, elementAt i = some v → v.Clean n k) : (positional key elementAt length methods).Clean n k := by
  unfold positional
  split
  · rename_i i _
    cases hi : elementAt i with
    | none => exact Value.clean_of nofun nofun
    | some v => exact he i v hi
  · split
    · split
      · exact Value.clean_of nofun nofun
      · exact clean_method _ _
    · exact Value.clean_of nofun nofun

theorem Hygienic.property (hm : Hygienic p n m) (target key : Value) :
    Cleans n m.heap.objects.size (m.property target key) := by
  unfold Machine.property
  cases target with
  | object o =>
    show Value.Clean n _ ((m.heap.getLocal? (m.heap.fields o) (key.keyName m.heap)).getD .undefined)
    cases hv : m.heap.getLocal? (m.heap.fields o) (key.keyName m.heap) with
    | none => exact Value.clean_of nofun nofun
    | some v => exact hm.heap.getLocal? hv
  | array a => exact clean_positional fun i v hv => hm.heap.elements a v (Array.mem_of_getElem? hv)
  | string s =>
    refine clean_positional fun i v hv => ?_
    obtain ⟨_, -, rfl⟩ := Option.map_eq_some_iff.1 hv
    exact Value.clean_of nofun nofun
  | regex id pattern =>
    show Value.Clean n _ (if key.keyName m.heap = "source" then .string pattern.source
      else Builtin.method Builtin.regexMethods (key.keyName m.heap))
    split
    · exact Value.clean_of nofun nofun
    · exact clean_method _ _
  | error id message =>
    cases key with
    | string name =>
      show Value.Clean n _ (if name = "message" then .string message else .undefined)
      split <;> exact Value.clean_of nofun nofun
    | _ => exact Value.clean_of nofun nofun
  | native handle => exact (hm.hosts.find handle).read _ _ hm.heap
  | _ => exact Cause.clean_of nofun

theorem cleans_apply (op : BinaryOp) (h : Heap) (a b : Value) : Cleans n k (op.apply h a b) :=
  cleans_of (alike_apply (b := {}) op h a b) (Regime.gives_apply op h a b)

/-- Writing a property keeps a machine hygienic: an object of its own has fields of its own. -/
theorem Hygienic.setProperty (hm : Hygienic p n m) {target value : Value} (ht : target.Clean n m.heap.objects.size)
    (hv : value.Clean n m.heap.objects.size) (key : Value) :
    Heap.Keeps n m.heap (m.setProperty target key value).2.heap ∧
      ∀ c, (m.setProperty target key value).1 = .error c →
        c.Clean n (m.setProperty target key value).2.heap.objects.size := by
  unfold Machine.setProperty
  cases target with
  | object o =>
    have ho := ht.within o rfl
    refine ⟨hm.heap.define hv fun _ => ?_, nofun⟩
    rw [hm.heap.fieldSlot ho]
    exact hm.heap.fields o ho
  | array a =>
    simp only
    split
    · split
      · exact ⟨hm.heap.place hv a _, nofun⟩
      · rename_i c hc
        refine ⟨.refl hm.heap, fun c' hc' => ?_⟩
        cases hc'
        unfold Heap.checkIndex at hc
        split at hc <;> cases hc
        exact Cause.clean_of nofun
    · exact ⟨.refl hm.heap, fun c hc => by cases hc; exact Cause.clean_of nofun⟩
  | native handle => exact (hm.hosts.find handle).write (key.keyName m.heap) value m.heap hm.heap hv
  | _ => exact ⟨.refl hm.heap, fun c hc => by cases hc; exact Cause.clean_of nofun⟩

theorem upkeep_setProperty {target value : Value} (ht : target.Clean n k) (hv : value.Clean n k) (key : Value) :
    Upkeep p n k AnyResult (changeOrFail (·.setProperty target key value)) :=
  upkeep_changeOrFail fun m hm hk => by
    obtain ⟨hkeeps, hfails⟩ := hm.setProperty (ht.mono hk) (hv.mono hk) key
    refine ⟨?_, hkeeps.size, ?_⟩
    · rw [setProperty_heap]
      exact hm.keeps hkeeps
    · split
      · trivial
      · rename_i c hc
        exact hfails c hc

/-- An assignment goes to a scope that has the name already. -/
theorem upkeep_store {value : Value} (hv : value.Clean n k) (name : String) :
    Upkeep p n k AnyResult (do
      let slot ← readsOrFails fun m => m.heap.slot m.env name
      change fun m => m.mapHeap (·.define slot name value)
      return none : Exec (Option Stop)) := by
  intro m hm hk
  simp only [exec_bind, readsOrFails]
  cases hslot : m.heap.slot m.env name with
  | error c =>
    refine ⟨hm, hk, Cause.clean_of ?_⟩
    rintro v rfl
    unfold Heap.slot at hslot
    split at hslot <;> cases hslot
  | ok s =>
    have hdefines : (m.heap.scope s).defines name = true := by
      unfold Heap.slot at hslot
      split at hslot
      · rename_i t ht
        cases hslot
        exact List.find?_some (p := fun s => (m.heap.scope s).defines name) ht
      · cases hslot
    have hkeeps : Heap.Keeps n m.heap (m.heap.define s name value) :=
      hm.heap.define (hv.mono hk) fun he => hm.heap.names s (he ▸ hdefines)
    exact ⟨hm.keeps hkeeps, Nat.le_trans hk hkeeps.size, trivial⟩

/-! ### Calls -/

theorem fst_mem_bindParams {params : List String} {args : List Value} {b : String × Value}
    (hb : b ∈ bindParams params args) : b.1 ∈ params := by
  induction params generalizing args with
  | nil => cases hb
  | cons first rest ih =>
    cases args with
    | nil | cons =>
      rcases List.mem_cons.1 hb with rfl | hb
      · exact List.mem_cons_self
      · exact List.mem_cons_of_mem _ (ih hb)

include hp in
/-- The scope of a call does not have the name. -/
theorem Hygienic.callScope {h : Heap} (hh : h.Hygienic n) {receiver : Option Value}
    (hr : CleanSome n h.objects.size receiver) {f : ScriptFunction} (hf : n ∉ f.params) {args : List Value}
    (ha : CleanAll n h.objects.size args) (globals : ScopeId) :
    Heap.Keeps n h ((callScope globals receiver h).2.defineAll (callScope globals receiver h).1
      (bindParams f.params args)) := by
  have hscope : Heap.Keeps n h (Machine.callScope globals receiver h).2 := by
    unfold Machine.callScope
    split
    · rename_i o
      have hchild := hh.newChild (h.fields o)
      exact hchild.trans (hchild.hygienic.define ((hr _ rfl).mono hchild.size) fun he => absurd he.symm hp.this)
    · exact hh.newChild globals
  refine hscope.trans (hscope.hygienic.defineAll (fun x hx => ?_) (.inr fun x hx he => hf (he ▸ fst_mem_bindParams hx)))
  rcases Regime.mem_bindParams hx with he | he
  · rw [he]
    exact Value.clean_of nofun nofun
  · exact (ha _ he).mono hscope.size

include hp in
theorem Hygienic.enterFunction (hm : Hygienic p n m) {f : ScriptFunction} (hf : n ∉ f.params)
    {receiver : Option Value} (hr : CleanSome n m.heap.objects.size receiver) {args : List Value}
    (ha : CleanAll n m.heap.objects.size args) (fromHost : Bool) :
    Hygienic p n (enterFunction f receiver args fromHost m) ∧
      m.heap.objects.size ≤ (enterFunction f receiver args fromHost m).heap.objects.size := by
  have hkeeps := Hygienic.callScope hp hm.heap hr hf ha m.globals
  refine ⟨⟨hm.program, hm.hosts, hkeeps.hygienic, fun v hv => ?_, fun v hv => (hm.exception v hv).mono hkeeps.size⟩,
    hkeeps.size⟩
  exact (hm.stack v ((List.mem_cons.1 hv).resolve_left nofun)).mono hkeeps.size

theorem upkeep_callNative (handle : NativeHandle) {receiver : Option Value} (hr : CleanSome n k receiver)
    {args : List Value} (ha : CleanAll n k args) :
    Upkeep p n k (Value.Clean n) (changeOrFail (callNative handle receiver args)) :=
  upkeep_changeOrFail fun m hm hk => by
    obtain ⟨hkeeps, hcleans⟩ :=
      (hm.hosts.find handle).call receiver args m.heap hm.heap (hr.mono hk) (ha.mono hk)
    refine ⟨⟨hm.program, hm.hosts, hkeeps.hygienic, fun v hv => (hm.stack v hv).mono hkeeps.size,
      fun v hv => (hm.exception v hv).mono hkeeps.size⟩, hkeeps.size, ?_⟩
    revert hcleans
    rw [show ((m.hosts.find handle).call receiver args m.heap).result = (callNative handle receiver args m).1 from rfl]
    cases (callNative handle receiver args m).1 <;> exact id

include hp

theorem upkeep_enter {f : ScriptFunction} (hf : n ∉ f.params) {receiver : Option Value} (hr : CleanSome n k receiver)
    {args : List Value} (ha : CleanAll n k args) :
    Upkeep p n k AnyResult (change (enterFunction f receiver args false)) :=
  upkeep_change fun _ hm hk => hm.enterFunction hp hf (hr.mono hk) (ha.mono hk) false

theorem upkeep_callValue {callee : Value} (hc : callee.Clean n k) {receiver : Option Value}
    (hr : CleanSome n k receiver) {args : List Value} (ha : CleanAll n k args) :
    Upkeep p n k AnyResult (callValue callee receiver args) := by
  unfold callValue
  split
  · rename_i id f
    exact upkeep_enter hp (hc.admits id f rfl) hr ha
  · split
    · exact (upkeep_callNative _ hr ha).bind fun _ v _ hv => upkeep_push hv
    · exact upkeep_fail nofun
  · exact upkeep_fail nofun

theorem upkeep_instantiate (className : String) {args : List Value} (ha : CleanAll n k args) :
    Upkeep p n k AnyResult (instantiate className args) := by
  have hmethods : Upkeep p n k (fun _ found => ∀ methods, found = some methods → ∀ x ∈ methods, n ∉ x.2.params)
      (reads (·.program.classMethods? className)) := by
    refine upkeep_reads fun m hm methods hfound x hx => ?_
    obtain ⟨indices, -, rfl⟩ := Option.map_eq_some_iff.1 hfound
    obtain ⟨i, -, hi⟩ := List.mem_filterMap.1 hx
    obtain ⟨f, hf, rfl⟩ := Option.map_eq_some_iff.1 hi
    exact hp.functions f (hm.program ▸ Array.mem_of_getElem? hf)
  refine hmethods.bind fun k' found hk hfound => ?_
  cases found with
  | some methods =>
    have hnamed : ∀ x ∈ namedMethods className methods, n ∉ x.2.2.params := by
      intro x hx
      obtain ⟨y, hy, hx⟩ := List.mem_filterMap.1 hx
      obtain ⟨name, -, rfl⟩ := Option.map_eq_some_iff.1 hx
      exact hfound methods rfl y hy
    refine (upkeep_look _).bind fun k₁ globals hk₁ _ => ?_
    have hmake : Upkeep p n k₁ (fun j (o : ObjectId) => o.index < j)
        (allocate (newInstance className globals (methodFields (namedMethods className methods)))) := by
      refine upkeep_allocate fun h hh _ => ⟨hh.newInstance className globals fun x hx => ?_, ?_⟩
      · obtain ⟨y, hy, rfl⟩ := List.mem_map.1 hx
        exact Value.clean_function (hnamed y hy)
      · rw [show (newInstance className globals _ h).2.objects.size = h.objects.size + 1 by
          simp [newInstance, objects_defineAll, Heap.newObject, Heap.newScope]]
        exact Nat.lt_succ_self _
    refine hmake.bind fun k₂ o hk₂ ho => ?_
    split
    · rename_i name i f hfind
      have hle : k ≤ k₂ := Nat.le_trans hk (Nat.le_trans hk₁ hk₂)
      refine upkeep_enter hp (hnamed _ (List.mem_reverse.1 (List.mem_of_find?_eq_some hfind))) ?_ (ha.mono hle)
      intro v hv
      cases hv
      exact Value.clean_object ho
    · exact upkeep_push (Value.clean_object ho)
  | none =>
    refine (upkeep_look _).bind fun k₁ handle hk₁ _ => ?_
    split
    · split
      · exact (upkeep_callNative _ cleanSome_none (ha.mono (Nat.le_trans hk hk₁))).bind fun _ v _ hv => upkeep_push hv
      · exact upkeep_fail fun _ he => by cases he
    · exact upkeep_fail fun _ he => by cases he

omit hp

theorem upkeep_createRecord (keys : List String) : Upkeep p n k AnyResult (createRecord keys) := by
  refine (upkeep_popArgs _).bind fun k₁ values _ hvalues => (upkeep_look _).bind fun k₂ globals hk₂ _ => ?_
  have hmake : Upkeep p n k₂ (fun j (o : ObjectId) => o.index < j)
      (allocate (newInstance recordClass globals (keys.zip values))) := by
    refine upkeep_allocate fun h hh hk => ⟨hh.newInstance recordClass globals fun x hx => ?_, ?_⟩
    · exact (hvalues _ (List.of_mem_zip hx).2).mono (Nat.le_trans hk₂ hk)
    · rw [show (newInstance recordClass globals _ h).2.objects.size = h.objects.size + 1 by
        simp [newInstance, objects_defineAll, Heap.newObject, Heap.newScope]]
      exact Nat.lt_succ_self _
  exact hmake.bind fun k₃ o _ ho => upkeep_push (Value.clean_object ho)

theorem upkeep_returnToFrame : Upkeep p n k AnyResult returnToFrame := by
  refine upkeep_pop.bind fun k₁ v _ hv => upkeep_popEntry.bind fun k₂ e hk₂ _ => ?_
  split
  · rename_i f _
    have hback : Upkeep p n k₂ AnyResult
        (change fun m => { m with sectionIndex := f.returnSection, pc := f.returnPc, env := f.env }) :=
      upkeep_aside (fun _ => rfl) (fun _ => rfl) (fun _ => rfl) (fun _ _ => id) fun _ => rfl
    exact hback.bind fun k₃ _ hk₃ _ => (upkeep_push (hv.mono (Nat.le_trans hk₂ hk₃))).bind fun _ _ _ _ =>
      upkeep_pure fun _ _ => trivial
  · exact upkeep_fail nofun

theorem upkeep_exitLoop (l : Nat) : Upkeep p n k AnyResult (exitLoop l) := by
  intro m hm hk
  cases hu : unwindLoop m.stack.entries with
  | ok found =>
    rw [exitLoop_ok hu]
    refine upkeep_jump l { m with env := found.1, stack := .ofList found.2 } ?_ hk
    exact ⟨hm.program, hm.hosts, hm.heap, fun v hv => hm.stack v ((unwindLoop_suffix hu).subset hv), hm.exception⟩
  | error found =>
    rw [exitLoop_error hu]
    exact ⟨hm.entries fun v hv => hm.stack v ((unwindLoop_error_suffix hu).subset hv), hk, Cause.clean_of nofun⟩

theorem upkeep_openRegion (l : Nat) (final : Option Nat) (keep : Bool) : Upkeep p n k AnyResult (openRegion l final keep) := by
  have hresolve : ∀ k l, Upkeep p n k AnyResult (resolve l) := fun k l => upkeep_readsOrFails fun m _ _ => by
    cases m.program.jumpTarget? l
    · exact Cause.clean_of nofun
    · trivial
  have hopen : ∀ {k held}, CleanSome n k held → Upkeep p n k AnyResult (openHeld l final held) := by
    intro k held hheld
    have hmark : ∀ k₁ handlerPc finalPc, k ≤ k₁ → Upkeep p n k₁ AnyResult (markRegion handlerPc finalPc held) := by
      intro k₁ handlerPc finalPc hk₁
      have hpush : Upkeep p n k₁ AnyResult (change fun m =>
          { m with stack := m.stack.push (.region ⟨m.sectionIndex, handlerPc, finalPc, m.env⟩) }) :=
        upkeep_aside (fun _ => rfl) (fun _ => rfl) (fun _ => rfl)
          (fun _ _ hv => (List.mem_cons.1 hv).resolve_left nofun) fun _ => rfl
      refine hpush.bind fun k₂ _ hk₂ _ => ?_
      cases held with
      | some v => exact upkeep_push ((hheld v rfl).mono (Nat.le_trans hk₁ hk₂))
      | none => exact upkeep_pure fun _ _ => trivial
    refine (hresolve k l).bind fun k₁ handlerPc hk₁ _ => ?_
    cases final with
    | some l =>
      exact ((hresolve k₁ l).map fun _ _ _ => trivial).bind (R := AnyResult) fun k₂ finalPc hk₂ _ =>
        hmark k₂ handlerPc finalPc (Nat.le_trans hk₁ hk₂)
    | none => exact hmark k₁ handlerPc none hk₁
  cases keep with
  | true =>
    rw [openRegion_true]
    exact upkeep_held.bind fun _ held _ hheld => hopen hheld
  | false =>
    rw [openRegion_false]
    exact hopen cleanSome_none

/-- **Every instruction keeps a machine hygienic.** -/
theorem upkeep_dispatch (hp : p.Avoids n) {x pc : Nat} {i : Instruction} (hi : p.instruction? x pc = some i) :
    Upkeep p n k AnyResult (dispatch i) := by
  have haside : ∀ {k} {f : Machine → ScopeId}, Upkeep p n k AnyResult (change fun m => { m with env := f m }) :=
    upkeep_aside (fun _ => rfl) (fun _ => rfl) (fun _ => rfl) (fun _ _ => id) fun _ => rfl
  unfold dispatch
  cases hop : i.op with
  | nop | label | eof => exact upkeep_pure fun _ _ => trivial
  | const index =>
    refine (upkeep_answer fun m hm _ => ?_).bind fun _ v _ hv => (upkeep_push hv).returning _
    split
    · rename_i v hv
      exact (hp.constants v (hm.program ▸ Array.mem_of_getElem? hv)).mono (Nat.zero_le _)
    · exact Cause.clean_of nofun
  | dup => exact upkeep_peek.bind fun _ v _ hv => (upkeep_push hv).returning _
  | pop => exact upkeep_pop.returning _
  | fetch name =>
    exact (upkeep_answer fun m hm _ => hm.lookup hp name).bind fun _ v _ hv => (upkeep_push hv).returning _
  | fetchProperty name =>
    exact (upkeep_propertyKey name).bind fun _ key _ _ => upkeep_pop.bind fun _ target _ _ =>
      (upkeep_answer fun m hm _ => hm.property target key).bind fun _ v _ hv => (upkeep_push hv).returning _
  | store name =>
    exact upkeep_pop.bind fun _ v _ hv => upkeep_store hv name
  | storeProperty name =>
    exact (upkeep_propertyKey name).bind fun _ key _ _ => upkeep_pop.bind fun _ target _ ht =>
      upkeep_pop.bind fun _ v hk hv => (upkeep_setProperty (ht.mono hk) hv key).returning _
  | declare name =>
    refine (upkeep_look _).bind fun _ env _ _ => (upkeep_mapHeap fun m hm _ => ?_).returning _
    have hundefined : Value.undefined.Clean n m.heap.objects.size := Value.clean_of nofun nofun
    exact hm.heap.define hundefined fun he => absurd (he ▸ hop) (hp.declares x pc i hi)
  | binary op =>
    exact upkeep_pop.bind fun _ b _ _ => upkeep_pop.bind fun _ a _ _ =>
      (upkeep_answer fun m _ _ => cleans_apply op m.heap a b).bind fun _ v _ hv => (upkeep_push hv).returning _
  | jump l => exact (upkeep_jump l).returning _
  | jumpTrue l | jumpFalse l =>
    refine upkeep_pop.bind fun _ v _ _ => ?_
    split
    · exact (upkeep_jump l).returning _
    · exact upkeep_pure fun _ _ => trivial
  | call argc isMethod =>
    refine upkeep_pop.bind fun k₁ callee _ hcallee => ?_
    have hcall : ∀ k₂ receiver, k₁ ≤ k₂ → CleanSome n k₂ receiver → Upkeep p n k₂ AnyResult (do
        let args ← popArgs argc
        callValue callee receiver args
        return none : Exec (Option Stop)) := fun k₂ receiver hk₂ hr =>
      (upkeep_popArgs argc).bind fun k₃ args hk₃ ha =>
        (upkeep_callValue hp (hcallee.mono (Nat.le_trans hk₂ hk₃)) (hr.mono hk₃) ha).returning _
    cases isMethod with
    | true => exact upkeep_held.bind fun k₂ receiver hk₂ hr => hcall k₂ receiver hk₂ hr
    | false => exact hcall k₁ none (Nat.le_refl _) cleanSome_none
  | ret => exact upkeep_returnToFrame
  | enterScope =>
    refine (upkeep_look _).bind fun k₁ env _ _ => ?_
    have hchild : Upkeep p n k₁ AnyResult (allocate (·.newChild env)) :=
      upkeep_allocate fun h hh _ => ⟨hh.newChild env, trivial⟩
    exact hchild.bind fun _ inner _ _ => haside.returning _
  | leaveScope =>
    refine (upkeep_look _).bind fun _ outer _ _ => ?_
    cases outer with
    | some outer => exact haside.returning _
    | none => exact upkeep_fail nofun
  | loopStart =>
    have hpush : Upkeep p n k AnyResult (change fun m => { m with stack := m.stack.push (.loop m.env) }) :=
      upkeep_aside (fun _ => rfl) (fun _ => rfl) (fun _ => rfl)
        (fun _ _ hv => (List.mem_cons.1 hv).resolve_left nofun) fun _ => rfl
    exact hpush.returning _
  | loopEnd | tryEnd =>
    refine upkeep_popEntry.bind fun _ e _ _ => ?_
    split
    · exact upkeep_pure fun _ _ => trivial
    · exact upkeep_fail nofun
  | loopExit l => exact (upkeep_exitLoop l).returning _
  | tryStart l final keep => exact (upkeep_openRegion l final keep).returning _
  | throw =>
    refine upkeep_pop.bind fun _ v _ hv => upkeep_throw fun _ hk w hw => ?_
    cases hw
    exact hv.mono hk
  | createObject className argc =>
    exact (upkeep_popArgs argc).bind fun _ args _ ha => (upkeep_instantiate hp className ha).returning _
  | createArray count =>
    refine (upkeep_popArgs count).bind fun k₁ items _ hitems => ?_
    have hmake : Upkeep p n k₁ AnyResult (allocate (·.newArray items.toArray)) := upkeep_allocate fun h hh hk =>
      ⟨hh.newArray fun v hv => (hitems v (List.mem_toArray.1 hv)).mono hk, trivial⟩
    have harray : ∀ k a, (Value.array a).Clean n k := fun _ _ => Value.clean_of nofun nofun
    exact hmake.bind fun k₂ a _ _ => (upkeep_push (harray k₂ a)).returning _
  | createRecord keys => exact (upkeep_createRecord keys).returning _
  | debugger =>
    refine (upkeep_look _).bind fun k₁ calls _ _ => ?_
    split
    · exact upkeep_pure fun _ _ => trivial
    · have hnote : ∀ line : Machine → String,
          Upkeep p n k₁ AnyResult (change fun m => { m with log := m.log.push (line m) }) := fun _ =>
        upkeep_aside (fun _ => rfl) (fun _ => rfl) (fun _ => rfl) (fun _ _ => id) fun _ => rfl
      exact (hnote _).returning _

/-! ### Unwinding and runs -/

variable {mode : Mode} {first b : Bool} {fuel : Nat} {m' : Machine}

theorem Hygienic.thrownValue {h : Heap} (hh : h.Hygienic n) {c : Cause} (hc : c.Clean n h.objects.size) :
    Heap.Keeps n h (thrownValue c h).2 ∧ (thrownValue c h).1.Clean n (thrownValue c h).2.objects.size := by
  cases c with
  | thrown v => exact ⟨.refl hh, hc v rfl⟩
  | _ => exact ⟨hh.newError _, Value.clean_of nofun nofun⟩

/-- Where unwinding ends, a machine is hygienic still. -/
theorem Hygienic.landed (hm : Hygienic p n m) (c : Cause) {thrown : Value} (ht : thrown.Clean n m.heap.objects.size)
    (trace : Trace) {landing : Landing} {frames : List Frame} (hl : unwind none m.stack.entries = (landing, frames)) :
    Hygienic p n (landed m c thrown trace landing).2 := by
  have hthrown : ∀ v, some thrown = some v → v.Clean n m.heap.objects.size := fun v hv => by
    cases hv
    exact ht
  cases landing with
  | region r below =>
    have hsub := unwind_subset hl (.inl ⟨r, rfl⟩)
    refine ⟨hm.program, hm.hosts, hm.heap, fun v hv => ?_, hm.exception⟩
    rcases List.mem_cons.1 hv with he | hv
    · cases he
      exact ht
    · exact hm.stack v (hsub hv)
  | host f below =>
    have hsub := unwind_subset hl (.inr ⟨f, rfl⟩)
    exact ⟨hm.program, hm.hosts, hm.heap, fun v hv => hm.stack v (hsub hv), hthrown⟩
  | bottom last => cases last <;> exact ⟨hm.program, hm.hosts, hm.heap, nofun, hthrown⟩

/-- Routing an error keeps a machine hygienic. -/
theorem Hygienic.handle (hm : Hygienic p n m) {c : Cause} (hc : c.Clean n m.heap.objects.size) (span : Span) :
    Hygienic p n (m.handle c span).2 := by
  by_cases hcatch : c.isCatchable = true
  · rw [handle_catchable hcatch]
    obtain ⟨hkeeps, hthrown⟩ := Hygienic.thrownValue hm.heap hc
    exact (hm.keeps hkeeps).landed c hthrown _ rfl
  · unfold Machine.handle
    rw [if_pos (by simpa using hcatch)]
    exact ⟨hm.program, hm.hosts, hm.heap, hm.stack, hm.exception⟩

theorem Hygienic.fetching (hm : Hygienic p n m) : Hygienic p n m.fetching :=
  ⟨hm.program, hm.hosts, hm.heap, hm.stack, hm.exception⟩

/-- **One instruction keeps a machine hygienic**, whatever becomes of its errors. -/
theorem tick_hygienic (hp : p.Avoids n) (hv : Hygienic p n v) (mode : Mode) (first : Bool) :
    Hygienic p n (v.tick mode first).machine := by
  rcases tick_cases mode first v with ⟨-, -, ht, -⟩ | ⟨ht, -⟩
  · rw [ht]
    exact hv
  rw [ht]
  by_cases hfetch : v.fetches .run true = true
  · obtain ⟨i, hi, ht⟩ := instruction_of_fetches hfetch
    have hdispatch := upkeep_dispatch hp (hv.program ▸ hi) v.fetching hv.fetching (Nat.zero_le _)
    rw [ht]
    cases hd : dispatch i v.fetching with
    | ok r m =>
      rw [hd] at hdispatch
      cases r <;> exact hdispatch.1
    | error c m =>
      rw [hd] at hdispatch
      have hhandle := hdispatch.1.handle hdispatch.2.2 i.span
      simp only [routed]
      split <;> rename_i hr <;> rw [hr] at hhandle <;> exact hhandle
  · obtain ⟨fault, hfault, -⟩ := tick_of_not_fetches (Bool.eq_false_iff.2 hfetch)
    rw [hfault]
    exact ⟨hv.program, hv.hosts, hv.heap, hv.stack, hv.exception⟩

theorem passes_hygienic (hp : p.Avoids n) (hv : Hygienic p n v) (h : Passes mode first v b w) : Hygienic p n w := by
  refine h.invariant hv fun b v₁ v₂ hv₁ ht => ?_
  have hnext := tick_hygienic hp hv₁ mode b
  rw [ht] at hnext
  exact hnext

/-- So is every machine whose instruction a run executes. -/
theorem visited_hygienic (hp : p.Avoids n) (hv : Hygienic p n v) (hw : w ∈ visited mode fuel first v) :
    Hygienic p n w := by
  induction fuel generalizing first v with
  | zero => cases hw
  | succ fuel ih =>
    unfold visited at hw
    split at hw
    · rcases List.mem_cons.1 hw with rfl | hw
      · exact hv
      · have hnext := tick_hygienic hp hv mode first
        revert hw hnext
        cases v.tick mode first with
        | next u => exact fun hw hu => ih hu hw
        | stop | fault =>
          intro hw
          cases hw
    · cases hw

theorem drive_hygienic (hp : p.Avoids n) {r : Except Fault Stop} (hv : Hygienic p n v)
    (h : drive mode fuel first v = some (r, u)) : Hygienic p n u := by
  obtain ⟨b, w, hpasses, he⟩ := drive_ends h
  have hlast := tick_hygienic hp (passes_hygienic hp hv hpasses) mode b
  obtain ⟨reason, rfl, ht⟩ | ⟨fault, rfl, ht⟩ := he <;> rw [ht] at hlast <;> exact hlast

/-! ### Requests -/

theorem Hygienic.awake (hm : Hygienic p n m) : Hygienic p n m.awake :=
  ⟨hm.program, hm.hosts, hm.heap, hm.stack, hm.exception⟩

/-- A function that the host calls is one of the values that it can name. -/
theorem Hygienic.entered (hp : p.Avoids n) (hm : Hygienic p n m) {name : String} {id : Identity} {g : ScriptFunction}
    (hl : m.lookup name = .ok (.function id g)) {args : List Value} (ha : CleanAll n m.heap.objects.size args) :
    Hygienic p n (m.entered g args) := by
  have hclean := hm.lookup hp name
  rw [hl] at hclean
  have hstart : Hygienic p n { m with state := .running, hostCalls := m.hostCalls + 1 } :=
    ⟨hm.program, hm.hosts, hm.heap, hm.stack, hm.exception⟩
  exact (hstart.enterFunction hp (hclean.admits id g rfl) cleanSome_none ha true).1

theorem Hygienic.execute (hp : p.Avoids n) {r : Except Fault RunState} (hm : Hygienic p n m)
    (h : m.execute mode fuel = some (r, m')) : Hygienic p n m' := by
  by_cases hlive : m.Live
  · rw [execute_eq hlive] at h
    obtain ⟨⟨result, u⟩, hd, ha⟩ := Option.map_eq_some_iff.1 h
    have hu := drive_hygienic hp hm.awake hd
    cases result with
    | ok reason => cases reason <;> cases ha <;> exact ⟨hu.program, hu.hosts, hu.heap, hu.stack, hu.exception⟩
    | error fault =>
      cases ha
      exact hu
  · rw [not_live_execute hlive h]
    exact hm

theorem Hygienic.finishCall {saved : RunState} {r : Except Fault Stop} {result : Except Fault Value}
    (hu : Hygienic p n u) (h : finishCall saved (r, { u with hostCalls := u.hostCalls - 1 }) = (result, m')) :
    Hygienic p n m' := by
  unfold Machine.finishCall at h
  split at h <;> rename_i he <;> cases he
  · split at h <;> cases h <;>
      exact ⟨hu.program, hu.hosts, hu.heap, fun v hv => hu.stack v (List.mem_of_mem_tail hv), hu.exception⟩
  · cases h
    exact ⟨hu.program, hu.hosts, hu.heap, hu.stack, hu.exception⟩
  · cases h
    split <;> exact ⟨hu.program, hu.hosts, hu.heap, hu.stack, hu.exception⟩

end Machine

/-- A request that brings in nothing under a name. -/
def Request.Omits (n : String) (m : Machine) : Request → Prop
  | .call _ _ args => Machine.CleanAll n m.heap.objects.size args
  | .define name v => name ≠ n ∧ v.Clean n m.heap.objects.size
  | .add native => native.Hygienic n
  | .prepare heap => m.heap.Hygienic n → Heap.Keeps n m.heap heap
  | .run _ | .step _ | .reset | .register _ _ | .takeLog => True

/-- The machines that a program can be in between requests, in the hands of a host that uses no reserved name. -/
inductive Attended (p : Program) : Machine → Prop where
  | load {config heap hosts} : (∀ n, reserved n = true → heap.Hygienic n) →
      (∀ n, reserved n = true → hosts.Hygienic n) → Attended p (Machine.load p config heap hosts)
  | serve {m m' : Machine} {request : Request} {cause : Option Cause} : Attended p m →
      (∀ n, reserved n = true → request.Omits n m) → m.serve request = some (cause, m') → Attended p m'

namespace Machine

variable {p : Program} {n : String} {m m' w : Machine}

/-- **Every request keeps a machine hygienic** that brings in nothing under the name. -/
theorem Hygienic.serve (hp : p.Avoids n) {request : Request} {cause : Option Cause} (hm : Hygienic p n m)
    (homits : request.Omits n m) (h : m.serve request = some (cause, m')) : Hygienic p n m' := by
  cases request with
  | run fuel | step fuel =>
    obtain ⟨⟨r, u⟩, hx, he⟩ := Option.map_eq_some_iff.1 h
    cases he
    exact hm.execute hp hx
  | call fuel name args =>
    obtain ⟨⟨r, u⟩, hx, he⟩ := Option.map_eq_some_iff.1 h
    cases he
    cases calls_of_call hx with
    | refused => exact hm
    | @native handle =>
      have hcall := upkeep_callNative handle cleanSome_none homits m hm (Nat.le_refl _)
      unfold changeOrFail at hcall
      revert hcall
      rcases callNative handle none args m with ⟨_ | _, u⟩ <;> exact fun hcall => hcall.1
    | function _ hl hd hf => exact (drive_hygienic hp (hm.entered hp hl homits) hd).finishCall hf
  | reset =>
    cases h
    have hroot := hm.heap.newRoot
    exact ⟨hm.program, hm.hosts, hroot.hygienic, nofun, nofun⟩
  | define name v =>
    cases h
    exact hm.keeps (hm.heap.define homits.2 fun he => absurd he homits.1)
  | add native =>
    cases h
    refine ⟨hm.program, fun x hx => ?_, hm.heap, hm.stack, hm.exception⟩
    rcases Array.mem_push.1 hx with hx | rfl
    · exact hm.hosts x hx
    · exact homits
  | prepare heap =>
    cases h
    exact hm.keeps (homits hm.heap)
  | takeLog =>
    cases h
    exact ⟨hm.program, hm.hosts, hm.heap, hm.stack, hm.exception⟩
  | register name handle =>
    simp only [Machine.serve, Machine.register] at h
    cases hr : m.registry.register name handle with
    | ok registry =>
      rw [hr] at h
      cases h
      exact ⟨hm.program, hm.hosts, hm.heap, hm.stack, hm.exception⟩
    | error c =>
      rw [hr] at h
      cases h
      exact hm

end Machine

open Machine

variable {p : Program} {n : String} {m w : Machine}

/-- A machine is hygienic for every reserved name that its program avoids. -/
theorem Attended.hygienic (hp : p.Avoids n) (hn : reserved n = true) (h : Attended p m) :
    Hygienic p n m := by
  induction h with
  | load hheap hhosts =>
    exact ⟨rfl, hhosts n hn, (hheap n hn).newRoot.hygienic, nofun, nofun⟩
  | serve _ homits hserve ih => exact ih.serve hp (homits n hn) hserve

/-- So is every machine that executes an instruction. -/
theorem Attended.course_hygienic (hp : p.Avoids n) (hn : reserved n = true) (h : Attended p m) {request : Request}
    (homits : request.Omits n m) (hw : w ∈ request.course m) : Hygienic p n w := by
  have hm := h.hygienic hp hn
  cases request with
  | run | step =>
    simp only [Request.course] at hw
    split at hw
    · exact visited_hygienic hp hm.awake hw
    · cases hw
  | call fuel name args =>
    simp only [Request.course] at hw
    split at hw
    · cases hw
    · split at hw
      · rename_i hl
        exact visited_hygienic hp (hm.entered hp hl homits) hw
      · cases hw
  | _ => cases hw

end ScriptMachine
