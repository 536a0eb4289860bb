import ScriptMachine.Proofs.Machine.Stage
import ScriptMachine.Proofs.Script.Meaning

/-!
# Does — code that computes what the script means

`Does` says that operations turn some values on top of the stack into others, as a computation on the
heap of the script does: the machine comes to the end of the code with the results on its stack, or to
the error of the computation, with heaps that still agree. Code in sequence, code with more values
below and code that branches get rules of their own, and then every instruction that expressions use.
-/

namespace ScriptMachine

open Compile Heap Machine Meaning

/-- Values as entries, the top first. -/
def entriesOf (vs : List Value) : List Entry := vs.map .value

@[simp] theorem entriesOf_cons (v : Value) (vs : List Value) :
    entriesOf (v :: vs) = .value v :: entriesOf vs := rfl

@[simp] theorem entriesOf_nil : entriesOf [] = [] := rfl

@[simp] theorem entriesOf_append (a b : List Value) : entriesOf (a ++ b) = entriesOf a ++ entriesOf b :=
  List.map_append

@[simp] theorem length_entriesOf (vs : List Value) : (entriesOf vs).length = vs.length := List.length_map _

theorem kind_entriesOf {vs : List Value} {e : Entry} (he : e ∈ entriesOf vs) :
    e.kind = .value ∨ e.kind = .loop := by
  obtain ⟨v, -, rfl⟩ := List.mem_map.1 he
  exact .inl rfl

namespace Stage

variable (Z : Stage)

/-- Where code leaves a machine that follows a computation. The results are no more than `most`. The code of
what has no meaning is left open. -/
def Follows {α : Type} (v : Machine) (h : Heap) (pc most : Nat) (post : α → List Value) (S : List Entry) :
    EStateM.Result Cause Heap α → Prop
  | .ok a h' => (post a).length ≤ most ∧
      ∃ v', Steps v v' ∧ Z.Shows pc (entriesOf (post a) ++ S) h' v' ∧ Z.Quiet h h' v v'
  | .error c h' => c ≠ .halted → ∃ u, Faults v c u ∧ Z.Fails S h' u ∧
      Grows Z.base never h h' ∧ Grows Z.base never v.heap u.heap

/-- Operations turn values on the stack into others as a computation does. -/
def Does {α : Type} (names : List String) (known : List (String × Value)) (env : ScopeId)
    (ops : List Opcode) (pre : List Value) (x : Calc α) (post : α → List Value) : Prop :=
  ∀ pc S h v, Z.Has pc ops → pre.length + S.length + ops.length ≤ Z.world.config.maxStack →
    Z.Shows pc (entriesOf pre ++ S) h v → Z.Sees names env h v → Z.Knows known v →
    Z.Follows v h (pc + ops.length) (pre.length + ops.length) post S (x h)

variable {Z} {α β : Type} {names : List String} {known : List (String × Value)} {env : ScopeId}
  {A B ops : List Opcode} {op : Opcode} {pre : List Value} {x : Calc α} {f : α → Calc β}
  {post : α → List Value} {S : List Entry} {h h' : Heap} {v v' : Machine} {pc : Nat}

/-- A machine that goes on quietly before it follows the rest. -/
theorem Follows.after {r : EStateM.Result Cause Heap α} {most most' : Nat} (hs : Steps v v')
    (hq : Z.Quiet h h' v v') (hf : Z.Follows v' h' pc most post S r) (hm : most ≤ most') :
    Z.Follows v h pc most' post S r := by
  cases r with
  | ok a h'' =>
    obtain ⟨hlen, v'', hs', hshow, hq'⟩ := hf
    exact ⟨Nat.le_trans hlen hm, v'', hs.trans hs', hshow, hq.trans hq'⟩
  | error c h'' =>
    intro hc
    obtain ⟨u, hr, hfail, hg, hG⟩ := hf hc
    exact ⟨u, hs.faults hr, hfail, hq.script.trans_same hg, hq.machine.trans_same hG⟩

theorem Fails.under {T : List Entry} {u : Machine} (hf : Z.Fails (T ++ S) h u)
    (hT : ∀ e ∈ T, e.kind = .value ∨ e.kind = .loop) : Z.Fails S h u := by
  obtain ⟨above, he, ha⟩ := hf.entries
  refine ⟨hf.toPeer, ⟨above ++ T, by rw [he, List.append_assoc], fun e hmem => ?_⟩, hf.agrees⟩
  rcases List.mem_append.1 hmem with hmem | hmem
  · exact ha e hmem
  · exact hT e hmem

/-! ### Sequences -/

theorem bind_ok {a : α} (hx : x h = .ok a h') : (x >>= f) h = f a h' := by
  show EStateM.bind x f h = _
  simp only [EStateM.bind, hx]

theorem bind_error {c : Cause} (hx : x h = .error c h') : (x >>= f) h = .error c h' := by
  show EStateM.bind x f h = _
  simp only [EStateM.bind, hx]

theorem bind_eq_ok {b : β} {h'' : Heap} (hxf : (x >>= f) h = .ok b h'') :
    ∃ a h', x h = .ok a h' ∧ f a h' = .ok b h'' := by
  cases hx : x h with
  | ok a h' => exact ⟨a, h', rfl, by rwa [bind_ok hx] at hxf⟩
  | error c h' =>
    rw [bind_error hx] at hxf
    cases hxf

/-- **Sequence**: code after code does what one computation after the other does. -/
theorem Does.seqOf {mid : α → List Value} {post : β → List Value}
    (hA : Z.Does names known env A pre x mid)
    (hB : ∀ a h h', x h = .ok a h' → Z.Does names known env B (mid a) (f a) post) :
    Z.Does names known env (A ++ B) pre (x >>= f) post := by
  intro pc S h v hc hroom hshow hsees hknows
  rw [List.length_append] at hroom
  have hfirst := hA pc S h v hc.left (by omega) hshow hsees hknows
  cases hx : x h with
  | error c h' =>
    rw [hx] at hfirst
    rw [bind_error hx]
    exact hfirst
  | ok a h' =>
    rw [hx] at hfirst
    obtain ⟨hlen, v', hs, hshow', hq⟩ := hfirst
    rw [bind_ok hx, List.length_append, ← Nat.add_assoc]
    exact Follows.after hs hq (hB a h h' hx _ S h' v' hc.right (by omega) hshow'
      (hsees.quiet hshow hq) (hknows.quiet hshow hq)) (by omega)

theorem Does.seq {mid : α → List Value} {post : β → List Value}
    (hA : Z.Does names known env A pre x mid)
    (hB : ∀ a, Z.Does names known env B (mid a) (f a) post) :
    Z.Does names known env (A ++ B) pre (x >>= f) post := hA.seqOf fun a _ _ _ => hB a

/-- More values may lie below. -/
theorem Does.under (hd : Z.Does names known env ops pre x post) (below : List Value) :
    Z.Does names known env ops (pre ++ below) x fun a => post a ++ below := by
  intro pc S h v hc hroom hshow hsees hknows
  rw [List.length_append] at hroom
  rw [entriesOf_append, List.append_assoc] at hshow
  have hfollows := hd pc (entriesOf below ++ S) h v hc
    (by rw [List.length_append, length_entriesOf]; omega) hshow hsees hknows
  cases hx : x h with
  | ok a h' =>
    rw [hx] at hfollows
    obtain ⟨hlen, v', hs, hshow', hq⟩ := hfollows
    refine ⟨by rw [List.length_append, List.length_append]; omega, v', hs, ?_, hq⟩
    rw [entriesOf_append, List.append_assoc]
    exact hshow'
  | error c h' =>
    rw [hx] at hfollows
    intro hc
    obtain ⟨u, hr, hfail, hgrows⟩ := hfollows hc
    exact ⟨u, hr, hfail.under fun _ => kind_entriesOf, hgrows⟩

/-- No code does nothing. -/
theorem Does.pure (a : α) (hpost : post a = pre) : Z.Does names known env [] pre (Pure.pure a) post :=
  fun _ _ h v _ _ hshow _ _ => ⟨by rw [hpost]; exact Nat.le_refl _, v, .refl, by rw [hpost]; exact hshow,
    .refl h v⟩

theorem Does.congr {y : Calc α} (hd : Z.Does names known env ops pre x post) (hxy : x = y) :
    Z.Does names known env ops pre y post := hxy ▸ hd

/-- A result can be named otherwise. -/
theorem Does.map {g : α → β} {post' : β → List Value} (hd : Z.Does names known env ops pre x post)
    (hpost : ∀ a, post' (g a) = post a) : Z.Does names known env ops pre (x >>= fun a => Pure.pure (g a)) post' := by
  have hnone : ∀ a, Z.Does names known env [] (post a) (Pure.pure (g a)) post' := fun a => .pure (g a) (hpost a)
  have hseq := hd.seq hnone
  rwa [List.append_nil] at hseq

/-! ### Instructions -/

/-- What an instruction leaves, if it follows a computation. -/
def Executes (i : Instruction) (u : Machine) (h : Heap) (pc : Nat) (post : α → List Value)
    (S : List Entry) : EStateM.Result Cause Heap α → Prop
  | .ok a h' => ∃ u', dispatch i u = .ok none u' ∧ Z.Shows pc (entriesOf (post a) ++ S) h' u' ∧
      Z.Quiet h h' u u'
  | .error c h' => ∃ u', dispatch i u = .error c u' ∧ Z.Fails S h' u' ∧ Grows Z.base never h h' ∧
      Grows Z.base never u.heap u'.heap

/-- One instruction does what a computation does. -/
theorem Does.single (hlen : ∀ a, (post a).length ≤ pre.length + 1)
    (hop : ∀ i u pc S h, i.op = op → Z.Shows pc (entriesOf pre ++ S) h u → Z.Sees names env h u →
      Z.Knows known u → Executes (Z := Z) i u h pc post S (x h)) :
    Z.Does names known env [op] pre x post := by
  intro pc S h v hc hroom hshow hsees hknows
  obtain ⟨i, hi, hnext, -, hraise⟩ := hshow.tick hc (by
    rw [List.length_append, length_entriesOf]
    simp only [List.length_singleton] at hroom
    omega)
  have hexec := hop i v.fetching (pc + 1) S h hi hshow.fetching ⟨hsees.opened, hsees.shadows⟩ hknows
  cases hx : x h with
  | ok a h' =>
    rw [hx] at hexec
    obtain ⟨u, hd, hshow', hq⟩ := hexec
    exact ⟨hlen a, u, hnext u hd, hshow', hq.script, hq.machine, hq.env⟩
  | error c h' =>
    rw [hx] at hexec
    obtain ⟨u, hd, hfail, hgrows⟩ := hexec
    exact fun _ => ⟨u, hraise c u hd, hfail, hgrows⟩

theorem Shows.fails (hshow : Z.Shows pc S h v) (T : List Entry) : Z.Fails T h (v.onStack T) :=
  ⟨(hshow.onStack T).toPeer, ⟨[], rfl, nofun⟩, hshow.agrees⟩

/-- The machine with other values on top of its stack has done nothing else. -/
theorem Executes.stack {i : Instruction} {a : α} (hshow : Z.Shows pc S h v) (T : List Entry)
    (hd : dispatch i v = .ok none (v.onStack (entriesOf (post a) ++ T))) :
    Executes (Z := Z) i v h pc post T (.ok a h) :=
  ⟨_, hd, hshow.onStack _, .refl _ _ _, .refl _ _ _, rfl⟩

/-- An instruction that pushes what it reads. -/
theorem Executes.give {i : Instruction} {g : Machine → Except Cause Value} {below : List Value}
    (hshow : Z.Shows pc (entriesOf pre ++ S) h v)
    (hd : dispatch i v = Machine.give v (entriesOf below ++ S) (g { Z.world with env, heap := h })) :
    Executes (Z := Z) i v h pc (fun a => a :: below) S (look Z.world env g h) := by
  unfold look
  generalize g { Z.world with env, heap := h } = r at hd
  cases r with
  | ok a => exact .stack hshow S hd
  | error c =>
    exact ⟨_, hd, (hshow.fails (entriesOf below ++ S)).under fun _ => kind_entriesOf, .refl _ _ _, .refl _ _ _⟩

/-- The stack of a machine at an instruction can be written out. -/
theorem Shows.dispatch (hshow : Z.Shows pc S h v) (i : Instruction) :
    Machine.dispatch i v = Machine.dispatch i (v.onStack S) :=
  congrArg (Machine.dispatch i) (eq_onStack hshow.entries)

theorem does_const {index : Nat} {w : Value} (hw : Z.world.program.constants[index]? = some w) :
    Z.Does names known env [.const index] pre (Pure.pure w : Calc Value) fun a => a :: pre := by
  refine .single (fun _ => Nat.le_refl _) fun i u pc S h hi hshow _ _ => .stack hshow S ?_
  exact (hshow.dispatch i).trans (dispatch_const hi (by rw [hshow.program]; exact hw))

/-- A name is read as the script reads it. -/
theorem does_fetch {name : String} (hn : name ∈ names) (hr : reserved name = false) :
    Z.Does names known env [.fetch name] pre (look Z.world env (·.lookup name)) fun a => a :: pre := by
  refine .single (fun _ => Nat.le_refl _) fun i u pc S h hi hshow hsees _ => ?_
  have hd := (hshow.dispatch i).trans (dispatch_fetch hi)
  rw [lookup_eq hshow hsees hn hr] at hd
  exact .give hshow hd

/-- A hidden name is read as it is known. -/
theorem does_fetchKnown {name : String} {w : Value} (hb : (name, w) ∈ known) :
    Z.Does names known env [.fetch name] pre (Pure.pure w : Calc Value) fun a => a :: pre := by
  refine .single (fun _ => Nat.le_refl _) fun i u pc S h hi hshow _ hknows => ?_
  have hd := (hshow.dispatch i).trans (dispatch_fetch hi)
  rw [hknows.lookup hb] at hd
  exact .stack hshow S hd

theorem Shows.property (hshow : Z.Shows pc S h v) (env : ScopeId) (target key : Value) :
    v.property target key = Machine.property { Z.world with env, heap := h } target key :=
  property_agrees (m := { Z.world with env, heap := h }) hshow.agrees hshow.hosts Z.discreet target key

theorem does_fetchProperty {name : String} {target : Value} (hn : name ≠ indexer) :
    Z.Does names known env [.fetchProperty name] (target :: pre)
      (look Z.world env (·.property target (.string name))) fun a => a :: pre := by
  refine .single (fun _ => by simp) fun i u pc S h hi hshow _ _ => ?_
  have hd := (hshow.dispatch i).trans (dispatch_fetchProperty hi hn)
  rw [hshow.property env] at hd
  exact .give hshow hd

theorem does_fetchElement {target key : Value} :
    Z.Does names known env [.fetchProperty indexer] (key :: target :: pre)
      (look Z.world env (·.property target key)) fun a => a :: pre := by
  refine .single (fun _ => by simp) fun i u pc S h hi hshow _ _ => ?_
  have hd := (hshow.dispatch i).trans (dispatch_fetchElement hi)
  rw [hshow.property env] at hd
  exact .give hshow hd

theorem does_binary {op : BinaryOp} {a b : Value} :
    Z.Does names known env [.binary op] (b :: a :: pre)
      (look Z.world env fun m => op.apply m.heap a b) fun a => a :: pre := by
  refine .single (fun _ => by simp) fun i u pc S h hi hshow _ _ => ?_
  have hd := (hshow.dispatch i).trans (dispatch_binary hi)
  rw [hshow.agrees.apply] at hd
  exact .give hshow hd

theorem does_dup {w : Value} :
    Z.Does names known env [.dup] (w :: pre) (Pure.pure () : Calc Unit) fun _ => w :: w :: pre := by
  refine .single (fun _ => by simp) fun i u pc S h hi hshow _ _ => .stack hshow S ?_
  exact (hshow.dispatch i).trans (dispatch_dup hi)

theorem does_pop {w : Value} :
    Z.Does names known env [.pop] (w :: pre) (Pure.pure () : Calc Unit) fun _ => pre := by
  refine .single (fun _ => by simp; omega) fun i u pc S h hi hshow _ _ => .stack hshow S ?_
  exact (hshow.dispatch i).trans (dispatch_pop hi)

/-- Heaps that agree stay in agreement when both define a name that is not reserved where it is
defined already. -/
theorem Shows.assigned {slot : ScopeId} {name : String} {w : Value} (hshow : Z.Shows pc S h v)
    (hr : reserved name = false) (hdef : (h.scope slot).defines name = true) (T : List Entry) :
    Z.Shows pc T (h.define slot name w) ((v.mapHeap (·.define slot name w)).onStack T) ∧
      Z.Quiet h (h.define slot name w) v ((v.mapHeap (·.define slot name w)).onStack T) := by
  have hDef : (v.heap.scope slot).defines name = true := by rw [hshow.agrees.defines slot hr]; exact hdef
  have hgrows : Grows Z.base never v.heap (v.heap.define slot name w) := .define (.inr (.inl ⟨hDef, hr⟩))
  refine ⟨(hshow.moved (hshow.agrees.define slot name w) ?_).onStack T, .define (.inr (.inl ⟨hdef, hr⟩)),
    hgrows, rfl⟩
  rw [size_define]
  exact hshow.env

theorem definer_defines {scopes : List ScopeId} {name : String} {slot : ScopeId}
    (hs : h.definer? scopes name = some slot) : (h.scope slot).defines name = true :=
  List.find?_some (p := fun s => (h.scope s).defines name) hs

theorem does_store {name : String} {w : Value} (hn : name ∈ names) (hr : reserved name = false) :
    Z.Does names known env [.store name] (w :: pre) (Meaning.assign env name w) fun _ => pre := by
  refine .single (fun _ => by simp; omega) fun i u pc S h hi hshow hsees _ => ?_
  have hd := (hshow.dispatch i).trans (dispatch_store hi)
  rw [slot_eq hshow hsees hn hr] at hd
  unfold Meaning.assign
  unfold Heap.slot at hd ⊢
  cases hfind : h.definer? (h.chain env) name with
  | none =>
    rw [hfind] at hd
    exact ⟨_, hd, (hshow.fails (entriesOf pre ++ S)).under fun _ => kind_entriesOf, .refl _ _ _, .refl _ _ _⟩
  | some slot =>
    rw [hfind] at hd
    obtain ⟨hshow', hq⟩ := hshow.assigned (w := w) hr (definer_defines hfind) (entriesOf pre ++ S)
    exact ⟨_, hd, hshow', hq⟩

/-- Writing a property does the same to both heaps. -/
theorem Executes.write {i : Instruction} {target key w : Value} {below : List Value}
    (hshow : Z.Shows pc (entriesOf pre ++ S) h v)
    (hd : dispatch i v = settleWrite (entriesOf below ++ S) (v.setProperty target key w)) :
    Executes (Z := Z) i v h pc (fun _ => below) S (Meaning.setProperty Z.world env target key w h) := by
  obtain ⟨hfst, hagrees, hgrows, hGrows⟩ := setProperty_agrees (m := { Z.world with env, heap := h })
    hshow.agrees hshow.hosts Z.discreet target key w
  have hm : (v.setProperty target key w).2 = { v with heap := (v.setProperty target key w).2.heap } := by
    unfold Machine.setProperty
    cases target with
    | array a =>
      simp only
      cases key.toPosition? with
      | none => rfl
      | some i => simp only; cases Heap.checkIndex i <;> rfl
    | _ => rfl
  have henv : v.env.index < (v.setProperty target key w).2.heap.scopes.size :=
    Nat.lt_of_lt_of_le hshow.env hGrows.size
  unfold Meaning.setProperty
  generalize Machine.setProperty { Z.world with env, heap := h } target key w = written at hfst hagrees hgrows
  generalize v.setProperty target key w = Written at hfst hagrees hGrows hm hd henv
  obtain ⟨r, m'⟩ := written
  obtain ⟨r', v'⟩ := Written
  simp only at hfst hagrees hgrows hGrows hm henv
  subst hfst
  have hmoved : Z.Shows pc (entriesOf pre ++ S) m'.heap v' := by
    rw [hm]
    exact hshow.moved hagrees henv
  cases r' with
  | ok _ => exact ⟨_, hd, hmoved.onStack _, hgrows, hGrows, by rw [hm]; rfl⟩
  | error c =>
    exact ⟨_, hd, (hmoved.fails (entriesOf below ++ S)).under fun _ => kind_entriesOf, hgrows, hGrows⟩

theorem does_storeProperty {name : String} {target w : Value} (hn : name ≠ indexer) :
    Z.Does names known env [.storeProperty name] (target :: w :: pre)
      (Meaning.setProperty Z.world env target (.string name) w) fun _ => pre := by
  refine .single (fun _ => by simp; omega) fun i u pc S h hi hshow _ _ => ?_
  exact .write hshow ((hshow.dispatch i).trans (dispatch_storeProperty hi hn))

theorem does_storeElement {target key w : Value} :
    Z.Does names known env [.storeProperty indexer] (key :: target :: w :: pre)
      (Meaning.setProperty Z.world env target key w) fun _ => pre := by
  refine .single (fun _ => by simp; omega) fun i u pc S h hi hshow _ _ => ?_
  exact .write hshow ((hshow.dispatch i).trans (dispatch_storeElement hi))

/-- The last value lies on top. -/
theorem entriesOf_reverse (vs : List Value) (S : List Entry) : entriesOf vs.reverse ++ S = pushed vs S := rfl

/-- Something new on both heaps. -/
theorem Executes.make {i : Instruction} {g : Heap → α × Heap}
    (hshow : Z.Shows pc S h v) (T : List Entry) (hfst : (g v.heap).1 = (g h).1)
    (hagrees : (g h).2.Agrees Z.base (g v.heap).2)
    (hgrows : ∀ h₀ : Heap, Grows Z.base never h₀ (g h₀).2)
    (hd : Machine.dispatch i v =
      .ok none ({ v with heap := (g v.heap).2 }.onStack (entriesOf (post (g v.heap).1) ++ T))) :
    Executes (Z := Z) i v h pc post T (Meaning.make g h) := by
  have henv : v.env.index < (g v.heap).2.scopes.size := Nat.lt_of_lt_of_le hshow.env (hgrows _).size
  rw [hfst] at hd
  exact ⟨_, hd, (hshow.moved hagrees henv).onStack _, hgrows h, hgrows v.heap, rfl⟩

theorem does_createArray {items : List Value} :
    Z.Does names known env [.createArray items.length] (items.reverse ++ pre)
      (Meaning.make (·.newArray items.toArray)) fun a => .array a :: pre := by
  refine .single (fun _ => by simp) fun i u pc S h hi hshow _ _ => ?_
  rw [entriesOf_append, List.append_assoc, entriesOf_reverse] at hshow
  obtain ⟨hfst, hagrees⟩ := hshow.agrees.newArray items.toArray
  exact .make hshow S hfst hagrees (fun _ => .of_scopes rfl)
    ((hshow.dispatch i).trans (dispatch_createArray hi))

theorem does_createRecord {keys : List String} {items : List Value} (hk : keys.length = items.length) :
    Z.Does names known env [.createRecord keys] (items.reverse ++ pre)
      (Meaning.make (newInstance recordClass Z.world.globals (keys.zip items)))
      fun o => .object o :: pre := by
  refine .single (fun _ => by simp) fun i u pc S h hi hshow _ _ => ?_
  rw [entriesOf_append, List.append_assoc, entriesOf_reverse] at hshow
  obtain ⟨hfst, hagrees⟩ := hshow.agrees.newInstance recordClass Z.world.globals (keys.zip items)
  refine .make hshow S hfst hagrees (fun h₀ => .newInstance h₀ _ _ _) ?_
  rw [← hshow.globals]
  exact (hshow.dispatch i).trans (dispatch_createRecord hi hk)

/-! ### Branches -/

/-- A label does nothing. -/
theorem does_label {l : Nat} : Z.Does names known env [.label l] pre (Pure.pure () : Calc Unit) fun _ => pre := by
  refine .single (fun _ => by simp) fun i u pc S h hi hshow _ _ => .stack hshow S ?_
  rw [hshow.dispatch i]
  exact dispatch_skip (.inr ⟨l, hi⟩)

/-- The machine goes on at a label. -/
theorem Shows.jump {l : Nat} (hshow : Z.Shows pc S h v) (hc : Z.Has pc (.jump l :: ops))
    (hroom : S.length ≤ Z.world.config.maxStack) {pc' : Nat}
    (hl : Z.world.program.jumpTarget? l = some pc') :
    ∃ v', Steps v v' ∧ Z.Shows pc' S h v' ∧ Z.Quiet h h v v' := by
  obtain ⟨i, hi, hnext, -⟩ := hshow.tick hc hroom
  have hd := dispatch_jump (m := v.fetching) hi (by rw [hshow.fetching.program]; exact hl)
  exact ⟨_, hnext _ hd, hshow.fetching.at pc', .refl _ _ _, .refl _ _ _, rfl⟩

/-- A conditional jump and when it is taken. -/
def Jumps (l : Nat) (op : Opcode) (taken : Value → Bool) : Prop :=
  op = .jumpTrue l ∧ taken = Value.isTruthy ∨ op = .jumpFalse l ∧ taken = fun w => !w.isTruthy

theorem Shows.branch {l : Nat} {taken : Value → Bool} {w : Value}
    (hshow : Z.Shows pc (.value w :: S) h v) (hc : Z.Has pc (op :: ops)) (hj : Jumps l op taken)
    (hroom : S.length + 1 ≤ Z.world.config.maxStack) {pc' : Nat}
    (hl : Z.world.program.jumpTarget? l = some pc') :
    ∃ v', Steps v v' ∧ Z.Shows (if taken w then pc' else pc + 1) S h v' ∧ Z.Quiet h h v v' := by
  obtain ⟨i, hi, hnext, -⟩ := hshow.tick hc hroom
  have hfetch := hshow.fetching
  have hl : v.fetching.program.jumpTarget? l = some pc' := by rw [hfetch.program]; exact hl
  have hd : Machine.dispatch i v.fetching = .ok none ((v.fetching.branch (taken w) pc').onStack S) := by
    rcases hj with ⟨rfl, rfl⟩ | ⟨rfl, rfl⟩
    · exact (hfetch.dispatch i).trans (dispatch_jumpTrue hi hl)
    · exact (hfetch.dispatch i).trans (dispatch_jumpFalse hi hl)
  cases htaken : taken w with
  | true =>
    rw [htaken] at hd
    exact ⟨_, hnext _ hd, (hfetch.at pc').onStack S, .refl _ _ _, .refl _ _ _, rfl⟩
  | false =>
    rw [htaken] at hd
    exact ⟨_, hnext _ hd, hfetch.onStack S, .refl _ _ _, .refl _ _ _, rfl⟩

theorem Shows.to {pc' : Nat} (hshow : Z.Shows pc S h v) (hpc : pc = pc') : Z.Shows pc' S h v := hpc ▸ hshow

theorem Has.to {pc' : Nat} (hc : Z.Has pc ops) (hpc : pc = pc') : Z.Has pc' ops := hpc ▸ hc

theorem Does.afterLabel (hd : Z.Does names known env ops pre x post) (l : Nat) :
    Z.Does names known env (.label l :: ops) pre x post :=
  does_label.seq fun _ => hd

theorem Does.beforeLabel (hd : Z.Does names known env ops pre x post) (l : Nat) :
    Z.Does names known env (ops ++ [.label l]) pre x post := by
  have hlabel : ∀ a, Z.Does names known env [.label l] (post a) (Pure.pure a) post := fun a =>
    (Does.pure a rfl).afterLabel l
  exact (hd.seq hlabel).congr (funext fun h => by
    cases hx : x h with
    | ok a h' => rw [bind_ok hx]; rfl
    | error c h' => rw [bind_error hx])

/-- **Branches**: a test decides between two computations, and both ways meet. -/
theorem Does.either {test : Calc Value} {yes no : Calc α} {l l' : Nat} {T Y N : List Opcode}
    {taken : Value → Bool} (hj : Jumps l op taken)
    (hT : Z.Does names known env T pre test fun w => w :: pre)
    (hY : Z.Does names known env Y pre yes post) (hN : Z.Does names known env N pre no post) :
    Z.Does names known env (T ++ [op] ++ Y ++ [.jump l', .label l] ++ N ++ [.label l']) pre
      (test >>= fun w => if taken w then no else yes) post := by
  intro pc S h v hc hroom hshow hsees hknows
  simp only [List.length_append, List.length_cons, List.length_nil] at hroom ⊢
  have hlabels := hc.left.left.right
  have hend := hc.right
  have hno : Z.Has (pc + (T ++ [op] ++ Y).length + 1) (.label l :: (N ++ [.label l'])) := by
    rw [List.append_assoc, List.append_assoc] at hc
    exact hc.right.tail
  have htest := hT pc S h v hc.left.left.left.left.left (by omega) hshow hsees hknows
  cases ht : test h with
  | error c h₁ =>
    rw [ht] at htest
    rw [bind_error ht]
    exact htest
  | ok w h₁ =>
    rw [ht] at htest
    obtain ⟨-, v₁, hs₁, hshow₁, hq₁⟩ := htest
    rw [bind_ok ht]
    have hpushed : Z.Shows (pc + T.length) (.value w :: (entriesOf pre ++ S)) h₁ v₁ := hshow₁
    obtain ⟨v₂, hs₂, hshow₂, hq₂⟩ := hpushed.branch hc.left.left.left.left.right hj
      (by rw [List.length_append, length_entriesOf]; omega) hno.target
    have hq := hq₁.trans hq₂
    have hsees₂ := hsees.quiet hshow hq
    have hknows₂ := hknows.quiet hshow hq
    cases htaken : taken w with
    | true =>
      rw [htaken, if_pos rfl] at hshow₂
      have hd := (hN.beforeLabel l').afterLabel l
      have hf := hd _ S h₁ v₂ hno (by simp only [List.length_append, List.length_cons, List.length_nil]; omega)
        hshow₂ hsees₂ hknows₂
      simp only [List.length_append, List.length_cons, List.length_nil] at hf
      have hpc : pc + (T.length + (0 + 1) + Y.length) + 1 + (N.length + (0 + 1) + 1) =
          pc + (T.length + (0 + 1) + Y.length + (0 + 1 + 1) + N.length + (0 + 1)) := by omega
      rw [hpc] at hf
      exact Follows.after (hs₁.trans hs₂) hq hf (by omega)
    | false =>
      rw [htaken, if_neg Bool.false_ne_true] at hshow₂
      have hf := hY _ S h₁ v₂ (hc.left.left.left.right.to (by simp only [List.length_append, List.length_singleton]; omega))
        (by omega) hshow₂ hsees₂ hknows₂
      refine Follows.after (hs₁.trans hs₂) hq ?_ (Nat.le_refl _)
      simp only [Bool.false_eq_true, if_false]
      cases hy : yes h₁ with
      | error c h₂ =>
        rw [hy] at hf
        exact hf
      | ok a h₂ =>
        rw [hy] at hf
        obtain ⟨hlen, v₃, hs₃, hshow₃, hq₃⟩ := hf
        have hroom₃ : (entriesOf (post a) ++ S).length ≤ Z.world.config.maxStack := by
          rw [List.length_append, length_entriesOf]
          omega
        obtain ⟨v₄, hs₄, hshow₄, hq₄⟩ := Shows.jump (hshow₃.to (by
          simp only [List.length_append, List.length_singleton]; omega)) hlabels hroom₃ hend.target
        have hlabel : Z.Does names known env [.label l'] (post a) (Pure.pure a) post :=
          (Does.pure a rfl).afterLabel l'
        have hf := hlabel _ S h₂ v₄ hend (by simp only [List.length_singleton]; omega) hshow₄
          (hsees₂.quiet hshow₂ (hq₃.trans hq₄)) (hknows₂.quiet hshow₂ (hq₃.trans hq₄))
        simp only [List.length_append, List.length_cons, List.length_nil] at hf
        obtain ⟨-, v₅, hs₅, hshow₅, hq₅⟩ := hf
        exact ⟨by omega, v₅, (hs₃.trans hs₄).trans hs₅, hshow₅.to (by omega), (hq₃.trans hq₄).trans hq₅⟩

/-! ### Scopes -/

/-- A scope is opened for the script and for the machine; both get the same. -/
theorem Shows.enter (hshow : Z.Shows pc S h v) (hsees : Z.Sees names env h v)
    (hc : Z.Has pc (.enterScope :: ops)) (hroom : S.length ≤ Z.world.config.maxStack) :
    ∃ v', Steps v v' ∧ Z.Shows (pc + 1) S (h.newChild env).2 v' ∧ v'.env = (h.newChild env).1 ∧
      v'.heap = (v.heap.newChild v.env).2 ∧ Z.Sees names (h.newChild env).1 (h.newChild env).2 v' ∧
      Private Z.base (h.newChild env).2 (h.newChild env).1 := by
  obtain ⟨i, hi, hnext, -⟩ := hshow.tick hc hroom
  have hd := dispatch_enterScope (m := v.fetching) hi
  have hfst := hshow.agrees.fst_newChild env v.env
  have hsize := hshow.agrees.size
  refine ⟨_, hnext _ hd, hshow.fetching.moved (hshow.agrees.newChild env v.env) ?_, hfst, rfl, ⟨?_, ?_⟩, ?_, ?_⟩
  · show (v.heap.newChild v.env).1.index < (v.heap.newChild v.env).2.scopes.size
    rw [index_newChild, size_newChild]
    omega
  · rw [index_newChild, size_newChild]
    omega
  · show Shadows Z.base (h.newChild env).2 names ((h.newChild env).2.chain (h.newChild env).1)
      ((v.heap.newChild v.env).2.chain (v.heap.newChild v.env).1)
    rw [chain_newChild hsees.opened, chain_newChild hshow.env, hfst]
    have hgrows : Grows Z.base never h (h.newChild env).2 := .newChild h env
    refine .both (hsees.shadows.grows hgrows (fun s hs => ?_) fun _ _ _ _ hf => hf)
    have hle := le_of_mem_chain hs
    have hlt := hshow.env
    omega
  · rw [index_newChild]
    exact hshow.agrees.base_le
  · rw [scope_newChild]

theorem Shows.leave {outer : ScopeId} (hshow : Z.Shows pc S h v) (hc : Z.Has pc (.leaveScope :: ops))
    (hroom : S.length ≤ Z.world.config.maxStack) (hp : v.heap.parent? v.env = some outer)
    (ho : outer.index < v.heap.scopes.size) :
    ∃ v', Steps v v' ∧ Z.Shows (pc + 1) S h v' ∧ v'.env = outer ∧ v'.heap = v.heap := by
  obtain ⟨i, hi, hnext, -⟩ := hshow.tick hc hroom
  have hd := dispatch_leaveScope (m := v.fetching) hi hp
  exact ⟨_, hnext _ hd, hshow.fetching.moved hshow.agrees ho, rfl, rfl⟩

/-- A scope that grew since it was opened still lies in the scope in which it was opened. -/
theorem parent_opened {may : ScopeId → String → Prop} {H H' : Heap} {e : ScopeId}
    (hG : Grows Z.base may (H.newChild e).2 H') : H'.parent? (H.newChild e).1 = some e := by
  rw [hG.parent _ (by rw [index_newChild, size_newChild]; omega), parent?, scope_newChild]

/-! ### Scopes with hidden names -/

variable (Z)

/-- Where code leaves a machine that follows a computation and may use hidden names in its scope. -/
def FollowsHiding (v : Machine) (h : Heap) (pc : Nat) (S : List Entry) :
    EStateM.Result Cause Heap Value → Prop
  | .ok a h' => ∃ v', Steps v v' ∧ Z.Shows pc (.value a :: S) h' v' ∧ Grows Z.base never h h' ∧
      Grows Z.base (only v.env) v.heap v'.heap ∧ v'.env = v.env
  | .error c h' => c ≠ .halted → ∃ u, Faults v c u ∧ Z.Fails S h' u ∧
      Grows Z.base never h h' ∧ Grows Z.base (only v.env) v.heap u.heap

/-- Operations push what a computation gives, and may use hidden names in the current scope. -/
def DoesHiding (names : List String) (known : List (String × Value)) (env : ScopeId) (ops : List Opcode)
    (x : Calc Value) : Prop :=
  ∀ pc S h v, Z.Has pc ops → S.length + ops.length ≤ Z.world.config.maxStack → Z.Shows pc S h v →
    Z.Sees names env h v → Z.Knows known v → Private Z.base h v.env →
    Z.FollowsHiding v h (pc + ops.length) S (x h)

variable {Z}

theorem Does.hiding {x : Calc Value} (hd : Z.Does names known env ops [] x fun a => [a]) :
    Z.DoesHiding names known env ops x := by
  intro pc S h v hc hroom hshow hsees hknows _
  have hf := hd pc S h v hc (by simpa using hroom) hshow hsees hknows
  cases hx : x h with
  | ok a h' =>
    rw [hx] at hf
    obtain ⟨-, v', hs, hshow', hq⟩ := hf
    exact ⟨v', hs, hshow', hq.script, hq.machine.of_never, hq.env⟩
  | error c h' =>
    rw [hx] at hf
    intro hc
    obtain ⟨u, hr, hfail, hg, hG⟩ := hf hc
    exact ⟨u, hr, hfail, hg, hG.of_never⟩

theorem FollowsHiding.after {r : EStateM.Result Cause Heap Value} (hs : Steps v v')
    (hg : Grows Z.base never h h') (hG : Grows Z.base (only v.env) v.heap v'.heap) (he : v'.env = v.env)
    (hf : Z.FollowsHiding v' h' pc S r) : Z.FollowsHiding v h pc S r := by
  cases r with
  | ok a h'' =>
    obtain ⟨v'', hs', hshow, hg', hG', he'⟩ := hf
    rw [he] at hG' he'
    exact ⟨v'', hs.trans hs', hshow, hg.trans_same hg', hG.trans_same hG', he'⟩
  | error c h'' =>
    intro hc
    obtain ⟨u, hr, hfail, hg', hG'⟩ := hf hc
    rw [he] at hG'
    exact ⟨u, hs.faults hr, hfail, hg.trans_same hg', hG.trans_same hG'⟩

/-- A value is kept under a hidden name of the current scope. -/
theorem Shows.keep {name : String} {w : Value} (hshow : Z.Shows pc (.value w :: S) h v)
    (hc : Z.Has pc (.declare name :: .store name :: ops))
    (hroom : S.length + 1 ≤ Z.world.config.maxStack) (hr : reserved name = true)
    (hp : Private Z.base h v.env) :
    ∃ v', Steps v v' ∧ Z.Shows (pc + 2) S h v' ∧ v'.env = v.env ∧
      Grows Z.base (only v.env) v.heap v'.heap ∧
      ∀ n, (v'.heap.scope v.env).vars.lookup n =
        if n = name then some w else (v.heap.scope v.env).vars.lookup n := by
  obtain ⟨i, hi, hnext, -⟩ := hshow.tick hc hroom
  have hd := dispatch_declare (m := v.fetching) hi
  have hP := hshow.agrees.private hp
  have hdeclared : Z.Shows (pc + 1) (.value w :: S) h
      (v.fetching.mapHeap (·.define v.env name .undefined)) :=
    hshow.fetching.moved (hshow.agrees.hide hr hp) (by rw [size_define]; exact hshow.env)
  obtain ⟨j, hj, hnext', -⟩ := hdeclared.tick hc.tail hroom
  have hslot : (v.heap.define v.env name .undefined).slot v.env name = .ok v.env := slot_define hshow.env
  have hd' := (hdeclared.fetching.dispatch j).trans (dispatch_store hj)
  rw [show (v.fetching.mapHeap (·.define v.env name .undefined)).fetching.heap.slot
    (v.fetching.mapHeap (·.define v.env name .undefined)).fetching.env name = .ok v.env from hslot] at hd'
  have hgrows : Grows Z.base (only v.env) v.heap
      ((v.heap.define v.env name .undefined).define v.env name w) :=
    (Grows.define (.inl rfl)).trans_same (.define (.inl rfl))
  refine ⟨_, (hnext _ hd).trans (hnext' _ hd'), ?_, rfl, hgrows, fun n => ?_⟩
  · refine (hdeclared.fetching.moved (hdeclared.agrees.hide hr hp) ?_).onStack S
    rw [size_define]
    exact hdeclared.env
  · show (((v.heap.define v.env name .undefined).define v.env name w).scope v.env).vars.lookup n = _
    rw [lookup_define, lookup_define, size_define]
    by_cases hn : n = name
    · rw [if_pos ⟨⟨rfl, hshow.env⟩, hn⟩, if_pos hn]
    · rw [if_neg fun hc => hn hc.2, if_neg fun hc => hn hc.2, if_neg hn]

/-- An operand is kept under a hidden name that is new in the scope. -/
theorem DoesHiding.keep {name : String} {x : Calc Value} {f : Value → Calc Value}
    (hA : Z.Does names known env A [] x fun w => [w]) (hr : reserved name = true)
    (hnew : ∀ b ∈ known, b.1 ≠ name)
    (hB : ∀ w, Z.DoesHiding names ((name, w) :: known) env B (f w)) :
    Z.DoesHiding names known env (A ++ [.declare name, .store name] ++ B) (x >>= f) := by
  intro pc S h v hc hroom hshow hsees hknows hp
  simp only [List.length_append, List.length_cons, List.length_nil] at hroom ⊢
  have hfirst := hA pc S h v hc.left.left (by simp only [List.length_nil]; omega) hshow hsees hknows
  cases hx : x h with
  | error c h₁ =>
    rw [hx] at hfirst
    rw [bind_error hx]
    intro hcatch
    obtain ⟨u, hraise, hfail, hg, hG⟩ := hfirst hcatch
    exact ⟨u, hraise, hfail, hg, hG.of_never⟩
  | ok w h₁ =>
    rw [hx] at hfirst
    obtain ⟨-, v₁, hs₁, hshow₁, hq₁⟩ := hfirst
    rw [bind_ok hx]
    have hpushed : Z.Shows (pc + A.length) (.value w :: S) h₁ v₁ := hshow₁
    have henv : v.env.index < h.scopes.size := by rw [← hshow.agrees.size]; exact hshow.env
    have hp₁ : Private Z.base h₁ v₁.env := by
      rw [hq₁.env]
      exact hq₁.script.private henv hp
    obtain ⟨v₂, hs₂, hshow₂, he₂, hG₂, hlookup⟩ :=
      hpushed.keep hc.left.right (by omega) hr hp₁
    have hG : Grows Z.base (only v.env) v.heap v₂.heap := by
      rw [hq₁.env] at hG₂
      exact hq₁.machine.of_never.trans_same hG₂
    have he : v₂.env = v.env := he₂.trans hq₁.env
    have hsees₂ : Z.Sees names env h₁ v₂ :=
      hsees.grows hshow.agrees.size hshow.env hq₁.script hG he fun _ _ _ _ hf => hf
    have hP₂ : Private Z.base v₂.heap v₂.env := hshow₂.agrees.private (by rw [he₂]; exact hp₁)
    have hknows₁ := hknows.quiet hshow hq₁
    have hknows₂ : Z.Knows ((name, w) :: known) v₂ := by
      intro b hb
      rw [he₂] at hP₂ ⊢
      rcases List.mem_cons.1 hb with rfl | hb
      · exact ⟨hr, hP₂, by rw [hlookup, if_pos rfl]⟩
      · obtain ⟨hrb, -, hvalue⟩ := hknows₁ b hb
        exact ⟨hrb, hP₂, by rw [hlookup, if_neg (hnew b hb), hvalue]⟩
    have hf := hB w _ S h₁ v₂ (hc.right.to (by
        simp only [List.length_append, List.length_cons, List.length_nil]; omega))
      (by omega) hshow₂ hsees₂ hknows₂ (by rw [he₂]; exact hp₁)
    refine FollowsHiding.after (hs₁.trans hs₂) hq₁.script hG he ?_
    rw [show pc + (A.length + (0 + 1 + 1) + B.length) = pc + A.length + 2 + B.length from by omega]
    exact hf

/-- A scope of its own hides what is kept in it. -/
theorem DoesHiding.scope {x : ScopeId → Calc Value} (hB : ∀ env', Z.DoesHiding names [] env' B (x env')) :
    Z.Does names known env ([.enterScope] ++ B ++ [.leaveScope]) [] (make (·.newChild env) >>= x)
      fun a => [a] := by
  intro pc S h v hc hroom hshow hsees _
  rw [entriesOf_nil, List.nil_append] at hshow
  simp only [List.length_append, List.length_cons, List.length_nil] at hroom ⊢
  have hmake : make (·.newChild env) h = .ok (h.newChild env).1 (h.newChild env).2 := rfl
  rw [bind_ok hmake]
  obtain ⟨v₁, hs₁, hshow₁, he₁, hH₁, hsees₁, hp₁⟩ := hshow.enter hsees hc.left.left (by omega)
  have hf := hB _ _ S _ v₁ hc.left.right (by omega) hshow₁ hsees₁ nofun (by rw [he₁]; exact hp₁)
  have hfst := hshow.agrees.fst_newChild env v.env
  have hopened : ∀ {H : Heap}, Grows Z.base (only v₁.env) v₁.heap H → Grows Z.base never v.heap H := by
    intro H hG
    rw [hH₁, he₁, ← hfst] at hG
    exact hG.opened fun _ _ hs => hs
  cases hx : x (h.newChild env).1 (h.newChild env).2 with
  | error c h' =>
    rw [hx] at hf
    intro hcatch
    obtain ⟨u, hr, hfail, hg, hG⟩ := hf hcatch
    exact ⟨u, hs₁.faults hr, hfail, (Grows.newChild h env).trans_same hg, hopened hG⟩
  | ok a h' =>
    rw [hx] at hf
    obtain ⟨v₂, hs₂, hshow₂, hg, hG, he₂⟩ := hf
    have hparent : v₂.heap.parent? v₂.env = some v.env := by
      rw [he₂, he₁, ← hfst]
      rw [hH₁] at hG
      exact parent_opened hG
    have hgrows := hopened hG
    obtain ⟨v₃, hs₃, hshow₃, he₃, hH₃⟩ := hshow₂.leave
      (hc.right.to (by simp only [List.length_append, List.length_singleton]; omega))
      (by simp only [List.length_cons]; omega) hparent (Nat.lt_of_lt_of_le hshow.env hgrows.size)
    refine ⟨by simp, v₃, (hs₁.trans hs₂).trans hs₃, hshow₃.to (by rw [List.length_singleton]; omega),
      (Grows.newChild h env).trans_same hg, ?_, he₃⟩
    rw [hH₃]
    exact hgrows

end Stage

end ScriptMachine
