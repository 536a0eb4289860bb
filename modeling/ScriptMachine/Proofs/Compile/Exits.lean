import ScriptMachine.Proofs.Compile.Expressions

/-!
# Exits — how a machine gets out of a statement

A statement falls through, or it leaves. An exit that leaves contexts stands before code that takes
away what the contexts have on the stack and runs the final parts on the way (`Leaving`), in whatever
scopes it was in; a thrown value is on its way to a handler. `Ends` puts the ways together. They are
passed on from the statements inside a scope, a loop or a final part to the statement around them.
-/

namespace ScriptMachine

open Compile Heap Machine Meaning

namespace Stage

variable (Z : Stage)

/-- The generator gives a listing for a piece, and its constants are in the pool. -/
def Yields (p : Piece) (L : Listing) : Prop :=
  ∃ d d', Emits p d L d' ∧ d'.constants.toList <+: Z.pool.toList

/-- How an exit leaves contexts: how many of them, what it does then, and what it keeps until then. -/
inductive Exits (owner : BodyKind) :
    Completion → List Context → Nat → List Opcode → List (String × Value) → Prop where
  | break {C n continueTo breakTo} : innermostLoop? C = some (n, continueTo, breakTo) →
      Exits owner .break C n [.loopExit breakTo] []
  | continue {C n continueTo breakTo} : innermostLoop? C = some (n, continueTo, breakTo) →
      Exits owner .continue C n [.loopExit continueTo] []
  | ret {C w} : owner ≠ .script → Exits owner (.ret w) C C.length [.fetch returnSlot, .ret] [(returnSlot, w)]

/-- A machine that is about to leave contexts and to do what comes last. -/
structure Leaving (owner : BodyKind) (C : List Context) (n : Nat) (last : List Opcode)
    (known : List (String × Value)) (S : List Entry) (env : ScopeId) (h : Heap) (v : Machine) : Prop where
  code : ∃ pc span L, Z.Yields (.leave owner span n C) L ∧ Z.Has pc (L.opcodes ++ last) ∧
    S.length + (L.opcodes.length + last.length) ≤ Z.world.config.maxStack ∧ Z.Shows pc S h v
  sees : Z.Sees (mentioned (contextNodes C)) env h v
  knows : Z.Knows known v

/-- How a machine ends that runs a statement above some entries: at a place behind the statement, at an
exit, with a value to return, or with an error. -/
inductive Ends (owner : BodyKind) (C : List Context) (S : List Entry) (pc : Nat) (env : ScopeId)
    (h' : Heap) (v : Machine) (may : ScopeId → String → Prop) : Completion → Prop where
  | falls {v'} : Steps v v' → Z.Shows pc S h' v' → v'.env = v.env → Grows Z.base may v.heap v'.heap →
      Ends owner C S pc env h' v may .normal
  | leaves {c v' n last known} : Steps v v' → Exits owner c C n last known →
      Z.Leaving owner C n last known S env h' v' → Grows Z.base may v.heap v'.heap →
      Ends owner C S pc env h' v may c
  | gives {w pc' v'} : owner ≠ .script → C = [] → Steps v v' → Z.Has pc' [.ret] →
      Z.Shows pc' (.value w :: S) h' v' → S.length + 1 ≤ Z.world.config.maxStack →
      Grows Z.base may v.heap v'.heap → Ends owner C S pc env h' v may (.ret w)
  | throws {w c u h₀} : Raises v c u → c.isCatchable = true → Z.Fails S h₀ u →
      thrownValue c h₀ = (w, h') → Grows Z.base may v.heap u.heap →
      Ends owner C S pc env h' v may (.throw w)

/-- How a machine ends, and what became of the heap of the script. -/
structure Outcome (owner : BodyKind) (C : List Context) (S : List Entry) (pc : Nat) (env : ScopeId)
    (h h' : Heap) (v : Machine) (declares uses : ScopeId → String → Prop) (c : Completion) : Prop where
  script : Grows Z.base declares h h'
  machine : Z.Ends owner C S pc env h' v uses c

variable {Z} {owner : BodyKind} {C : List Context} {S : List Entry} {pc pc' n : Nat}
  {last ops : List Opcode} {known : List (String × Value)} {env : ScopeId} {h h₁ h' : Heap}
  {v v₁ v' u : Machine} {may may' : ScopeId → String → Prop} {c : Completion} {names : List String}

/-! ### Errors -/

theorem scopes_thrownValue (c : Cause) (h : Heap) : (thrownValue c h).2.scopes = h.scopes := by
  unfold thrownValue
  split <;> rfl

/-- Unwinding passes values and loops. -/
theorem unwind_above {above : List Entry} (ha : ∀ e ∈ above, e.kind = .value ∨ e.kind = .loop)
    (last : Option Frame) : unwind last (above ++ S) = unwind last S := by
  induction above with
  | nil => rfl
  | cons e above ih =>
    have hrest := ih fun e he => ha e (List.mem_cons_of_mem _ he)
    cases e with
    | value w => exact hrest
    | loop s => exact hrest
    | frame f => rcases ha _ List.mem_cons_self with hk | hk <;> cases hk
    | region r => rcases ha _ List.mem_cons_self with hk | hk <;> cases hk

/-- An error above a region goes to its handler, which finds the thrown value. -/
theorem Fails.caught {cause : Cause} {r : Region} {w : Value} {h₀ : Heap} (hr : Raises v cause u)
    (hc : cause.isCatchable = true) (hf : Z.Fails (.region r :: S) h₀ u)
    (hw : thrownValue cause h₀ = (w, h')) (hsec : r.sectionIndex = Z.sectionIndex)
    (henv : r.env.index < u.heap.scopes.size) :
    ∃ v', Steps v v' ∧ Z.Shows r.handlerPc (.value w :: S) h' v' ∧ v'.env = r.env ∧
      Grows Z.base never u.heap v'.heap := by
  obtain ⟨v₁, span, hs, ht⟩ := hr
  obtain ⟨above, hentries, habove⟩ := hf.entries
  obtain ⟨hfst, hagrees⟩ := hf.agrees.thrownValue cause
  rw [hw] at hfst hagrees
  have hunwind : unwind none u.stack.entries = (.region r S, []) := by
    rw [hentries, unwind_above habove]
    rfl
  have hscopes := scopes_thrownValue cause u.heap
  have hrouted : u.routed cause span = .next { u with
      heap := (thrownValue cause u.heap).2
      stack := (Stack.ofList S).push (.value w)
      sectionIndex := r.sectionIndex, pc := r.handlerPc, env := r.env } := by
    unfold routed handle
    simp only [hc, Bool.not_true, Bool.false_eq_true, if_false, onHeap_eq, hunwind, hfst]
  refine ⟨_, hs.tail (ht.trans hrouted), ⟨⟨hf.program, hf.config, hf.registry, hf.hosts, hf.globals,
    hsec⟩, rfl, rfl, hagrees, ?_⟩, rfl, .of_scopes hscopes⟩
  show r.env.index < (thrownValue cause u.heap).2.scopes.size
  rw [hscopes]
  exact henv

/-! ### Ends passed on -/

theorem Ends.after (hs : Steps v v₁) (hG : Grows Z.base may v.heap v₁.heap) (he : v₁.env = v.env)
    (hends : Z.Ends owner C S pc env h' v₁ may c) : Z.Ends owner C S pc env h' v may c := by
  cases hends with
  | falls hs' hshow he' hG' => exact .falls (hs.trans hs') hshow (he'.trans he) (hG.trans_same hG')
  | leaves hs' hexit hleaving hG' => exact .leaves (hs.trans hs') hexit hleaving (hG.trans_same hG')
  | gives ho hC hs' hc hshow hroom hG' => exact .gives ho hC (hs.trans hs') hc hshow hroom (hG.trans_same hG')
  | throws hr hc hf hw hG' => exact .throws (hs.raises hr) hc hf hw (hG.trans_same hG')

theorem Ends.mono (hends : Z.Ends owner C S pc env h' v may c)
    (hm : ∀ {H : Heap}, Grows Z.base may v.heap H → Grows Z.base may' v.heap H) :
    Z.Ends owner C S pc env h' v may' c := by
  cases hends with
  | falls hs hshow he hG => exact .falls hs hshow he (hm hG)
  | leaves hs hexit hleaving hG => exact .leaves hs hexit hleaving (hm hG)
  | gives ho hC hs hc hshow hroom hG => exact .gives ho hC hs hc hshow hroom (hm hG)
  | throws hr hc hf hw hG => exact .throws hr hc hf hw (hm hG)

/-- Only a statement that falls through comes to its end. -/
theorem Ends.elsewhere (hends : Z.Ends owner C S pc env h' v may c) (hc : c ≠ .normal) (pc' : Nat) :
    Z.Ends owner C S pc' env h' v may c := by
  cases hends with
  | falls => exact absurd rfl hc
  | leaves hs hexit hleaving hG => exact .leaves hs hexit hleaving hG
  | gives ho hC hs hret hshow hroom hG => exact .gives ho hC hs hret hshow hroom hG
  | throws hr hcatch hf hw hG => exact .throws hr hcatch hf hw hG

/-- No exit is a normal completion. -/
theorem Exits.ne_normal (hexit : Exits owner c C n last known) : c ≠ .normal := by
  cases hexit <;> exact nofun

theorem Ends.normal (hends : Z.Ends owner C S pc env h' v may .normal) :
    ∃ v', Steps v v' ∧ Z.Shows pc S h' v' ∧ v'.env = v.env ∧ Grows Z.base may v.heap v'.heap := by
  cases hends with
  | falls hs hshow he hG => exact ⟨_, hs, hshow, he, hG⟩
  | leaves _ hexit => exact absurd rfl hexit.ne_normal

theorem Ends.throw {w : Value} (hends : Z.Ends owner C S pc env h' v may (.throw w)) :
    ∃ cause u h₀, Raises v cause u ∧ cause.isCatchable = true ∧ Z.Fails S h₀ u ∧
      thrownValue cause h₀ = (w, h') ∧ Grows Z.base may v.heap u.heap := by
  cases hends with
  | leaves _ hexit => cases hexit
  | throws hr hc hf hw hG => exact ⟨_, _, _, hr, hc, hf, hw, hG⟩

/-- What a machine does before it runs a statement. -/
theorem Outcome.after {declares uses : ScopeId → String → Prop} (hs : Steps v v₁)
    (hg : Grows Z.base declares h h₁) (hG : Grows Z.base uses v.heap v₁.heap) (he : v₁.env = v.env)
    (ho : Z.Outcome owner C S pc env h₁ h' v₁ declares uses c) :
    Z.Outcome owner C S pc env h h' v declares uses c :=
  ⟨hg.trans_same ho.script, ho.machine.after hs hG he⟩

theorem Outcome.elsewhere {declares uses : ScopeId → String → Prop}
    (ho : Z.Outcome owner C S pc env h h' v declares uses c) (hc : c ≠ .normal) (pc' : Nat) :
    Z.Outcome owner C S pc' env h h' v declares uses c := ⟨ho.script, ho.machine.elsewhere hc pc'⟩

theorem Outcome.to {declares uses : ScopeId → String → Prop}
    (ho : Z.Outcome owner C S pc env h h' v declares uses c) (hpc : pc = pc') :
    Z.Outcome owner C S pc' env h h' v declares uses c := hpc ▸ ho

/-- A run that changes nothing may be one that changes something. -/
theorem Outcome.of_never {declares uses : ScopeId → String → Prop}
    (ho : Z.Outcome owner C S pc env h h' v never never c) :
    Z.Outcome owner C S pc env h h' v declares uses c :=
  ⟨ho.script.of_never, ho.machine.mono fun hG => hG.of_never⟩

/-- More names may be declared. -/
theorem Outcome.widen {uses : ScopeId → String → Prop} {ds ds' : List String} {e : ScopeId}
    (ho : Z.Outcome owner C S pc env h h' v (among e ds) uses c) (hds : ds ⊆ ds') :
    Z.Outcome owner C S pc env h h' v (among e ds') uses c :=
  ⟨ho.script.mono fun _ _ hm => ⟨hm.1, hds hm.2⟩, ho.machine⟩

/-! ### Computations inside statements -/

variable {α : Type} {x : Calc α} {post : α → List Value}

theorem attempt_eq_ok {a : α} (hx : attempt x h = some (.ok a, h')) : x h = .ok a h' := by
  unfold attempt at hx
  cases hr : x h with
  | ok b h₁ =>
    rw [hr] at hx
    cases hx
    rfl
  | error c h₁ =>
    rw [hr] at hx
    simp only at hx
    split at hx <;> cases hx

theorem attempt_eq_error {w : Value} (hx : attempt x h = some (.error w, h')) :
    ∃ cause h₀, x h = .error cause h₀ ∧ cause.isCatchable = true ∧ thrownValue cause h₀ = (w, h') := by
  unfold attempt at hx
  cases hr : x h with
  | ok b h₁ =>
    rw [hr] at hx
    cases hx
  | error c h₁ =>
    rw [hr] at hx
    simp only at hx
    split at hx
    · rename_i hc
      cases hx
      exact ⟨c, h₁, rfl, hc, rfl⟩
    · cases hx

/-- Code that computes something ends with its results. -/
theorem Does.gets (hd : Z.Does names known env ops [] x post) {a : α}
    (hx : attempt x h = some (.ok a, h')) (hc : Z.Has pc ops)
    (hroom : S.length + ops.length ≤ Z.world.config.maxStack) (hshow : Z.Shows pc S h v)
    (hsees : Z.Sees names env h v) (hknows : Z.Knows known v) :
    ∃ v', Steps v v' ∧ Z.Shows (pc + ops.length) (entriesOf (post a) ++ S) h' v' ∧ Z.Quiet h h' v v' := by
  have hf := hd pc S h v hc (by rw [List.length_nil]; omega) hshow hsees hknows
  rw [attempt_eq_ok hx] at hf
  exact hf.2

/-- Code that computes something ends with the exception. -/
theorem Does.throws (hd : Z.Does names known env ops [] x post) {w : Value}
    (hx : attempt x h = some (.error w, h')) (hc : Z.Has pc ops)
    (hroom : S.length + ops.length ≤ Z.world.config.maxStack) (hshow : Z.Shows pc S h v)
    (hsees : Z.Sees names env h v) (hknows : Z.Knows known v) :
    Z.Outcome owner C S pc' env h h' v never never (.throw w) := by
  have hf := hd pc S h v hc (by rw [List.length_nil]; omega) hshow hsees hknows
  obtain ⟨cause, h₀, hr, hcatch, hw⟩ := attempt_eq_error hx
  rw [hr] at hf
  obtain ⟨u, hfaults, hfail, hg, hG⟩ := hf (by rintro rfl; cases hcatch)
  refine ⟨hg.trans_same (.of_scopes ?_), .throws hfaults.raises hcatch hfail hw hG⟩
  rw [show h' = (thrownValue cause h₀).2 by rw [hw], scopes_thrownValue]

/-- Code that computes something whose result is not wanted. -/
theorem Does.discard {x : Calc Value} (hd : Z.Does names known env ops [] x fun a => [a]) :
    Z.Does names known env (ops ++ [.pop]) [] x fun _ => [] := by
  have hpop : ∀ a : Value, Z.Does names known env [.pop] [a] (Pure.pure a : Calc Value) fun _ => [] := by
    intro a
    have hd : Z.Does names known env [.pop] [a] (Pure.pure () : Calc Unit) fun _ => [] := does_pop
    exact hd.map (g := fun _ => a) fun _ => rfl
  refine (hd.seq hpop).congr (funext fun h => ?_)
  cases hx : x h with
  | ok a h' => rw [bind_ok hx]; rfl
  | error c h' => rw [bind_error hx]

/-! ### Scopes -/

/-- The scopes of a machine shadow those around a scope that defines none of the names. -/
theorem Sees.close {ds : List String} (hs : Z.Sees names (h.newChild env).1 h' v)
    (hg : Grows Z.base (among (h.newChild env).1 ds) (h.newChild env).2 h')
    (henv : env.index < h.scopes.size) (hbase : Z.base ≤ h.scopes.size)
    (hds : ∀ name ∈ ds, name ∉ names) : Z.Sees names env h' v := by
  have hin : (h.newChild env).1.index < (h.newChild env).2.scopes.size := by
    rw [index_newChild, size_newChild]
    omega
  have hp : Private Z.base (h.newChild env).2 (h.newChild env).1 :=
    ⟨by rw [index_newChild]; exact hbase, by rw [scope_newChild]⟩
  have hopen : env.index < (h.newChild env).2.scopes.size := by
    rw [size_newChild]
    omega
  refine ⟨Nat.lt_of_lt_of_le hopen hg.size, ?_⟩
  have hold : Grows Z.base never h (h.newChild env).2 := .newChild h env
  have hchain := hs.shadows
  rw [hg.chain hin, chain_newChild henv] at hchain
  rw [hg.chain hopen, hold.chain henv]
  refine hchain.drop ⟨hg.private hin hp, fun name hn => ?_⟩
  rw [Bool.eq_false_iff]
  intro hdef
  rcases hg.names _ hin hp name hdef with hdef | hmay
  · rw [scope_newChild] at hdef
    cases hdef
  · exact hds name hmay.2 hn

/-- **Scopes**: what a machine does in a scope of its own is passed on when it leaves the scope. -/
theorem Ends.close {pc₀ : Nat} {S₀ : List Entry} {ds : List String} (hshow : Z.Shows pc₀ S₀ h v)
    (hsees : Z.Sees names env h v) (hs : Steps v v₁) (he : v₁.env = (h.newChild env).1)
    (hG : Grows Z.base (only (h.newChild env).1) (v.heap.newChild v.env).2 v₁.heap)
    (hg : Grows Z.base (among (h.newChild env).1 ds) (h.newChild env).2 h')
    (hc : Z.Has pc [.leaveScope]) (hroom : S.length ≤ Z.world.config.maxStack)
    (hds : ∀ name ∈ ds, name ∉ mentioned (contextNodes C))
    (hends : Z.Ends owner C S pc (h.newChild env).1 h' v₁ (only (h.newChild env).1) c) :
    Z.Outcome owner C S (pc + 1) env h h' v never never c := by
  have hfst := hshow.agrees.fst_newChild env v.env
  have hopened : ∀ {H : Heap}, Grows Z.base (only (h.newChild env).1) v₁.heap H →
      Grows Z.base (only (v.heap.newChild v.env).1) (v.heap.newChild v.env).2 H := by
    intro H hH
    rw [hfst]
    exact hG.trans_same hH
  have hnever : ∀ {H : Heap}, Grows Z.base (only (h.newChild env).1) v₁.heap H →
      Grows Z.base never v.heap H := fun hH => (hopened hH).opened fun _ _ hs => hs
  refine ⟨hg.opened fun _ _ hm => hm.1, ?_⟩
  cases hends with
  | @falls v₂ hs₂ hshow₂ he₂ hG₂ =>
    have hparent : v₂.heap.parent? v₂.env = some v.env := by
      rw [he₂, he, ← hfst]
      exact parent_opened (hopened hG₂)
    obtain ⟨v₃, hs₃, hshow₃, he₃, hH₃⟩ := hshow₂.leave hc hroom hparent
      (Nat.lt_of_lt_of_le hshow.env (hnever hG₂).size)
    refine .falls ((hs.trans hs₂).trans hs₃) hshow₃ he₃ ?_
    rw [hH₃]
    exact hnever hG₂
  | leaves hs₂ hexit hleaving hG₂ =>
    refine .leaves (hs.trans hs₂) hexit ⟨hleaving.code, ?_, hleaving.knows⟩ (hnever hG₂)
    exact hleaving.sees.close hg hsees.opened hshow.agrees.base_le hds
  | gives ho hC hs₂ hret hshow₂ hroom₂ hG₂ =>
    exact .gives ho hC (hs.trans hs₂) hret hshow₂ hroom₂ (hnever hG₂)
  | throws hr hcatch hf hw hG₂ => exact .throws (hs.raises hr) hcatch hf hw (hnever hG₂)

/-! ### Contexts -/

/-- An operation that takes an entry away. -/
inductive Drops : Opcode → Entry → Prop where
  | value (w : Value) : Drops .pop (.value w)
  | loop (s : ScopeId) : Drops .loopEnd (.loop s)
  | region (r : Region) : Drops .tryEnd (.region r)

theorem Shows.drop {op : Opcode} {e : Entry} (hshow : Z.Shows pc (e :: S) h v) (hc : Z.Has pc (op :: ops))
    (hroom : S.length + 1 ≤ Z.world.config.maxStack) (hd : Drops op e) :
    ∃ v', Steps v v' ∧ Z.Shows (pc + 1) S h v' ∧ v'.env = v.env ∧ v'.heap = v.heap := by
  obtain ⟨i, hi, hnext, -⟩ := hshow.tick hc hroom
  have hfetch := hshow.fetching
  refine ⟨v.fetching.onStack S, hnext _ ((hfetch.dispatch i).trans ?_), hfetch.onStack S, rfl, rfl⟩
  cases hd with
  | value w => exact dispatch_pop hi
  | loop s => exact dispatch_loopEnd hi
  | region r => exact dispatch_tryEnd hi

/-- A machine with the same scopes sees the same. -/
theorem Sees.same (hs : Z.Sees names env h v) (he : v'.env = v.env) (hH : v'.heap = v.heap) :
    Z.Sees names env h v' := ⟨hs.opened, by rw [he, hH]; exact hs.shadows⟩

theorem Knows.same (hk : Z.Knows known v) (he : v'.env = v.env) (hH : v'.heap = v.heap) :
    Z.Knows known v' := by
  intro b hb
  rw [he, hH]
  exact hk b hb

/-- An exit takes away what a loop or a final part that throws again has on the stack. -/
theorem Leaving.step {context : Context} {op : Opcode} {e : Entry} {rest : List Context}
    (hl : Z.Leaving owner (context :: rest) (n + 1) last known (e :: S) env h v) (hd : Drops op e)
    (hop : op = .loopEnd ∧ (∃ a z, context = .loop a z) ∨ op = .pop ∧ context = .pendingThrow) :
    ∃ v', Steps v v' ∧ v'.env = v.env ∧ v'.heap = v.heap ∧ Z.Leaving owner rest n last known S env h v' := by
  obtain ⟨pc, span, L, ⟨d, d', hL, hP⟩, hc, hroom, hshow⟩ := hl.code
  have hnodes : contextNodes (context :: rest) = contextNodes rest := by
    rcases hop with ⟨-, a, z, rfl⟩ | ⟨-, rfl⟩ <;> rfl
  have hcode : ∃ K, Emits (.leave owner span n rest) d K d' ∧ L.opcodes = op :: K.opcodes := by
    rcases hop with ⟨rfl, a, z, rfl⟩ | ⟨rfl, rfl⟩
    · cases hL with
      | leaveLoop hK => exact ⟨_, hK, by simp⟩
    · cases hL with
      | leavePending hK => exact ⟨_, hK, by simp⟩
  obtain ⟨K, hK, hops⟩ := hcode
  rw [hops, List.cons_append] at hc
  rw [hops] at hroom
  simp only [List.length_cons] at hroom
  obtain ⟨v', hs, hshow', he, hH⟩ := hshow.drop hc (by omega) hd
  refine ⟨v', hs, he, hH, ⟨pc + 1, span, K, ⟨d, d', hK, hP⟩, hc.tail, by omega, hshow'⟩, ?_,
    hl.knows.same he hH⟩
  rw [← hnodes]
  exact hl.sees.same he hH

/-- An exit from a try statement comes to a copy of its final part. -/
theorem Leaving.region {final : Option (List Stmt)} {rest : List Context} {r : Region}
    (hl : Z.Leaving owner (.region final :: rest) (n + 1) last known (.region r :: S) env h v) :
    ∃ v' pc span F L, Steps v v' ∧ v'.env = v.env ∧ v'.heap = v.heap ∧ Z.Shows pc S h v' ∧
      Z.Yields (.final { body := owner, contexts := rest } span final) F ∧
      Z.Yields (.leave owner span n rest) L ∧ Z.Has pc (F.opcodes ++ (L.opcodes ++ last)) ∧
      S.length + (F.opcodes.length + (L.opcodes.length + last.length)) ≤ Z.world.config.maxStack := by
  obtain ⟨pc, span, L, ⟨d, d', hL, hP⟩, hc, hroom, hshow⟩ := hl.code
  cases hL with
  | @leaveRegion _ _ _ _ _ _ F d₁ K _ hF hK =>
    simp only [opcodes_append, opcodes_asm, List.append_assoc, List.cons_append, List.nil_append] at hc
    simp only [opcodes_append, opcodes_asm, List.length_append, List.length_cons, List.length_nil] at hroom
    obtain ⟨v', hs, hshow', he, hH⟩ := hshow.drop hc (by omega) (.region r)
    exact ⟨v', pc + 1, span, F, K, hs, he, hH, hshow', ⟨d, d₁, hF, hK.pool_prefix.trans hP⟩,
      ⟨d₁, d', hK, hP⟩, hc.tail, by omega⟩

/-- An exit passes a context that is no loop. -/
theorem Exits.pass {context : Context} {rest : List Context}
    (hexit : Exits owner c (context :: rest) n last known) (hl : ∀ a z, context ≠ .loop a z) :
    ∃ n', n = n' + 1 ∧ Exits owner c rest n' last known := by
  have hloop : ∀ {n a z}, innermostLoop? (context :: rest) = some (n, a, z) →
      ∃ n', n = n' + 1 ∧ innermostLoop? rest = some (n', a, z) := by
    intro n a z hn
    cases context with
    | loop a z => exact absurd rfl (hl a z)
    | _ =>
      obtain ⟨⟨n', labels⟩, hn', he⟩ := Option.map_eq_some_iff.1 hn
      cases he
      exact ⟨n', rfl, hn'⟩
  cases hexit with
  | «break» hn =>
    obtain ⟨n', rfl, hn'⟩ := hloop hn
    exact ⟨n', rfl, .break hn'⟩
  | «continue» hn =>
    obtain ⟨n', rfl, hn'⟩ := hloop hn
    exact ⟨n', rfl, .continue hn'⟩
  | ret ho => exact ⟨_, List.length_cons, .ret ho⟩

/-- A return passes loops too. -/
theorem Exits.passRet {context : Context} {rest : List Context} {w : Value}
    (hexit : Exits owner (.ret w) (context :: rest) n last known) :
    ∃ n', n = n' + 1 ∧ Exits owner (.ret w) rest n' last known := by
  cases hexit with
  | ret ho => exact ⟨_, List.length_cons, .ret ho⟩

/-- **Contexts**: what leaves a loop or a final part that throws again leaves what is around it. -/
theorem Ends.outside {context : Context} {op : Opcode} {e : Entry} {rest : List Context}
    (hends : Z.Ends owner (context :: rest) (e :: S) pc env h' v may c) (hc : c ≠ .normal)
    (hd : Drops op e)
    (hop : op = .loopEnd ∧ (∃ a z, context = .loop a z) ∨ op = .pop ∧ context = .pendingThrow)
    (hpass : ∀ {n last known}, Exits owner c (context :: rest) n last known →
      ∃ n', n = n' + 1 ∧ Exits owner c rest n' last known) :
    Z.Ends owner rest S pc' env h' v may c := by
  cases hends with
  | falls => exact absurd rfl hc
  | leaves hs hexit hleaving hG =>
    obtain ⟨n', rfl, hexit'⟩ := hpass hexit
    obtain ⟨v', hs', -, hH, hleaving'⟩ := hleaving.step hd hop
    exact .leaves (hs.trans hs') hexit' hleaving' (by rw [hH]; exact hG)
  | gives _ hC => cases hC
  | throws hr hcatch hf hw hG =>
    refine .throws hr hcatch (Fails.under (T := [e]) hf fun e' he' => ?_) hw hG
    rw [List.mem_singleton.1 he']
    rcases hop with ⟨rfl, -⟩ | ⟨rfl, -⟩
    · cases hd
      exact .inr rfl
    · cases hd
      exact .inl rfl

/-- An exit that has come to its loop goes to a label of it, in the scope of the loop. -/
theorem Leaving.arrive {l target : Nat} {e : ScopeId}
    (hl : Z.Leaving owner C 0 [.loopExit l] known (.loop e :: S) env h v)
    (ht : Z.world.program.jumpTarget? l = some target) (he : e.index < v.heap.scopes.size) :
    ∃ v', Steps v v' ∧ Z.Shows target (.loop e :: S) h v' ∧ v'.env = e ∧ v'.heap = v.heap := by
  obtain ⟨pc, span, L, ⟨d, d', hL, -⟩, hc, hroom, hshow⟩ := hl.code
  cases hL with
  | leaveZero =>
    rw [opcodes_nil, List.nil_append] at hc
    obtain ⟨i, hi, hnext, -⟩ := hshow.tick hc (by simp only [List.length_cons] at hroom ⊢; omega)
    have hfetch := hshow.fetching
    have hd := (hfetch.dispatch i).trans (dispatch_loopExit hi (by rw [hfetch.program]; exact ht))
    refine ⟨_, hnext _ hd, ?_, rfl, rfl⟩
    exact ((hfetch.at target).moved hfetch.agrees he).onStack _

end Stage

end ScriptMachine
