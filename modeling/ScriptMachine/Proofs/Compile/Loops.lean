import ScriptMachine.Proofs.Compile.Statements

/-!
# Loops — the code of a loop does what the loop means

The code of both kinds of loops is test, body, and what comes before the next round, under a marker on
the stack. One round leads back to the first label or behind the loop; an exit that has come to its
loop goes to one of the labels in the scope of the marker. The marker is taken away by what leaves the
loop for good.
-/

namespace ScriptMachine

open Compile Heap Machine Meaning

namespace Stage

/-- The code of a loop from the test on: test, body, and what comes before the next round. -/
def loopOps (start done : Nat) (T B N : List Opcode) : List Opcode :=
  .label start :: (T ++ (B ++ (N ++ [.jump start, .label done, .loopEnd])))

variable (Z : Stage)

/-- What comes before the next round, and the label where the next round begins. -/
inductive Nexts (span : Span) (start : Nat) : Nat → Option Expr → List Opcode → Prop where
  | while : Nexts span start start none []
  | for {next update U} : Z.Yields (.exprThen span [.pop] update) U →
      Nexts span start next update (.label next :: U.opcodes)

/-- A loop from the test on does what leads to a completion. -/
def Loops (site : Site) (env : ScopeId) (test update : Option Expr) (body : Stmt) (h : Heap)
    (c : Completion) (h' : Heap) : Prop :=
  ∀ {around span start next done T B N ns pc S v}, Z.Yields (.exprThen span [.jumpFalse done] test) T →
    Z.Yields (.stmt (around.inside (.loop next done)) body) B → Z.Nexts span start next update N →
    exprOptionNodes test ⊆ ns → exprOptionNodes update ⊆ ns → body.nodes ⊆ ns →
    Z.Fronts site around ns (loopOps start done T.opcodes B.opcodes N) pc (.loop env :: S) env h v →
    Z.Owns site env h v →
    Z.Outcome around.body around.contexts S (pc + (loopOps start done T.opcodes B.opcodes N).length) env h h' v
      (among env (declared ns)) (only env) c

variable {Z} {site : Site} {around : Surroundings} {ns : List Node} {ops : List Opcode} {pc pc' l : Nat}
  {S : List Entry} {env e : ScopeId} {h h₁ h₂ h₃ h' : Heap} {v v₁ v₂ : Machine} {span : Span}
  {start next done target : Nat} {T B : Listing} {N : List Opcode} {test update : Option Expr} {body : Stmt}
  {owner : BodyKind} {C : List Context} {c c₁ : Completion} {w x : Value}
  {may declares uses : ScopeId → String → Prop}

/-! ### Markers -/

theorem Shows.startLoop (hshow : Z.Shows pc S h v) (hc : Z.Has pc (.loopStart :: ops))
    (hroom : S.length ≤ Z.world.config.maxStack) :
    ∃ v', Steps v v' ∧ Z.Shows (pc + 1) (.loop v.env :: S) h v' ∧ Z.Quiet h h v v' := by
  obtain ⟨i, hi, hnext, -⟩ := hshow.tick hc hroom
  have hfetch := hshow.fetching
  have hd := (hfetch.dispatch i).trans (dispatch_loopStart hi)
  exact ⟨_, hnext _ hd, hfetch.onStack _, .refl _ _ _, .refl _ _ _, rfl⟩

/-- Behind a loop its marker is taken away. -/
theorem Shows.leaveLoop (hshow : Z.Shows pc (.loop e :: S) h v)
    (hc : Z.Has pc (.label l :: .loopEnd :: ops)) (hroom : S.length + 1 ≤ Z.world.config.maxStack) :
    ∃ v', Steps v v' ∧ Z.Shows (pc + 2) S h v' ∧ Z.Quiet h h v v' := by
  obtain ⟨v₁, hs₁, hshow₁, hq₁⟩ := hshow.label hc hroom
  obtain ⟨v₂, hs₂, hshow₂, he₂, hH₂⟩ := hshow₁.drop hc.tail hroom (.loop e)
  exact ⟨v₂, hs₁.trans hs₂, hshow₂, hq₁.trans ⟨.refl _ _ _, by rw [hH₂]; exact .refl _ _ _, he₂⟩⟩

/-- An exit for the innermost loop goes to a label of it, in the scope of the marker. -/
theorem Ends.arrive (hends : Z.Ends owner (.loop next done :: C) (.loop e :: S) pc env h' v may c)
    (hc : c = .continue ∧ l = next ∨ c = .break ∧ l = done)
    (ht : Z.world.program.jumpTarget? l = some target) (he : e.index < v.heap.scopes.size) :
    ∃ v', Steps v v' ∧ Z.Shows target (.loop e :: S) h' v' ∧ v'.env = e ∧
      Grows Z.base may v.heap v'.heap := by
  cases hends with
  | falls => rcases hc with ⟨hc, -⟩ | ⟨hc, -⟩ <;> cases hc
  | gives => rcases hc with ⟨hc, -⟩ | ⟨hc, -⟩ <;> cases hc
  | throws => rcases hc with ⟨hc, -⟩ | ⟨hc, -⟩ <;> cases hc
  | @leaves _ v₁ n last known hs hexit hleaving hG =>
    have hhere : n = 0 ∧ last = [.loopExit l] := by
      rcases hc with ⟨rfl, rfl⟩ | ⟨rfl, rfl⟩
      · cases hexit with
        | «continue» hn =>
          cases hn
          exact ⟨rfl, rfl⟩
      · cases hexit with
        | «break» hn =>
          cases hn
          exact ⟨rfl, rfl⟩
    obtain ⟨rfl, rfl⟩ := hhere
    obtain ⟨v₂, hs₂, hshow₂, he₂, hH₂⟩ := hleaving.arrive ht (Nat.lt_of_lt_of_le he hG.size)
    exact ⟨v₂, hs.trans hs₂, hshow₂, he₂, by rw [hH₂]; exact hG⟩

/-- Returns and exceptions leave the loop they come from. -/
theorem Outcome.outLoop
    (ho : Z.Outcome owner (.loop next done :: C) (.loop e :: S) pc env h h' v declares uses c)
    (hc : (∃ w, c = .ret w) ∨ (∃ w, c = .throw w)) :
    Z.Outcome owner C S pc' env h h' v declares uses c := by
  refine ⟨ho.script, ?_⟩
  rcases hc with ⟨w, rfl⟩ | ⟨w, rfl⟩
  · exact ho.machine.outside nofun (.loop e) (.inl ⟨rfl, _, _, rfl⟩) Exits.passRet
  · exact ho.machine.outside nofun (.loop e) (.inl ⟨rfl, _, _, rfl⟩) nofun

/-! ### Rounds -/

/-- The test of a loop leads into the body or behind the loop. -/
theorem Fronts.tests (hf : Z.Fronts site around ns (loopOps start done T.opcodes B.opcodes N) pc S env h v)
    (hT : Z.Yields (.exprThen span [.jumpFalse done] test) T) (hns : exprOptionNodes test ⊆ ns)
    (hx : attempt (evalOr Z.world env (.bool true) test) h = some (.ok w, h')) :
    ∃ v', Steps v v' ∧ Z.Shows (if w.isTruthy then pc + 1 + T.opcodes.length
      else pc + 1 + T.opcodes.length + B.opcodes.length + N.length + 1) S h' v' ∧ Z.Quiet h h' v v' := by
  have hc := hf.code
  have hroom := hf.room
  simp only [loopOps, List.length_cons] at hc hroom
  obtain ⟨v₁, hs₁, hshow₁, hq₁⟩ := hf.shown.label hc (by omega)
  have hf₁ := hf.quiet (fun _ hm => hm) hc.tail (by omega) hshow₁ hq₁
  obtain ⟨d, d', hT, hP⟩ := hT
  cases hT with
  | exprThenNone =>
    cases attempt_eq_ok hx
    exact ⟨v₁, hs₁, hshow₁, hq₁⟩
  | @exprThenSome _ _ _ _ A _ hA =>
    simp only [opcodes_append, opcodes_asm, List.append_assoc, List.cons_append, List.nil_append,
      List.length_append, List.length_cons, List.length_nil] at hf₁ ⊢
    have hdone := hf₁.code.right.tail.right.right.tail
    obtain ⟨v₂, hs₂, hshow₂, hq₂⟩ := hf₁.branches ⟨d, d', hA, hP⟩ hns hx (.inr ⟨rfl, rfl⟩) hdone.target
    refine ⟨v₂, hs₁.trans hs₂, ?_, hq₁.trans hq₂⟩
    cases hw : w.isTruthy with
    | true =>
      rw [hw] at hshow₂
      exact hshow₂
    | false =>
      rw [hw] at hshow₂
      exact hshow₂.to (by simp only [Bool.not_false, if_true, Bool.false_eq_true, if_false]; omega)

/-- The body of a loop, once its test holds. -/
theorem Fronts.loopBody
    (hf : Z.Fronts site around ns (loopOps start done T.opcodes B.opcodes N) pc S env h v)
    (ho : Z.Owns site env h v) (hT : Z.Yields (.exprThen span [.jumpFalse done] test) T)
    (hB : Z.Yields (.stmt (around.inside (.loop next done)) body) B) (hnt : exprOptionNodes test ⊆ ns)
    (hnb : body.nodes ⊆ ns) (hx : attempt (evalOr Z.world env (.bool true) test) h = some (.ok w, h₁))
    (hw : w.isTruthy = true)
    (hbody : Z.Direct { site with inLoop := true } env (.stmt · body) body.nodes h₁ c₁ h₂) :
    ∃ v₁, Steps v v₁ ∧ Z.Quiet h h₁ v v₁ ∧ Z.Shows (pc + 1 + T.opcodes.length) S h₁ v₁ ∧
      Z.Outcome around.body (.loop next done :: around.contexts) S
        (pc + 1 + T.opcodes.length + B.opcodes.length) env h₁ h₂ v₁ (among env (declared ns)) (only env) c₁ := by
  obtain ⟨v₁, hs, hshow, hq⟩ := hf.tests hT hnt hx
  rw [hw, if_pos rfl] at hshow
  have hroom := hf.room
  have hc := hf.code
  simp only [loopOps, List.length_cons, List.length_append] at hc hroom
  have hf₁ := hf.quiet hnb hc.tail.right.left (by omega) hshow hq
  have hbody := hbody hB ⟨hf₁.placed.inLoop next done, hf₁.code, hf₁.room, hf₁.shown, hf₁.sees⟩
    ⟨hq.env.trans ho.same, fun hsite => hq.script.private hf.sees.opened (ho.hides hsite)⟩
  exact ⟨v₁, hs, hq, hshow, hbody.widen (declared_subset hnb)⟩

theorem does_update (hy : Z.Yields (.exprThen span [.pop] update) T) (hp : Placed site around ns)
    (hns : exprOptionNodes update ⊆ ns) (default : Value) :
    Z.Does (mentioned (ns ++ contextNodes around.contexts)) [] env T.opcodes []
      (evalOr Z.world env default update) fun _ => [] := by
  obtain ⟨d, d', hU, hP⟩ := hy
  cases hU with
  | exprThenNone => exact .pure _ rfl
  | exprThenSome hA =>
    rw [opcodes_append, opcodes_asm]
    exact (Yields.means ⟨d, d', hA, hP⟩ hp hns [] env).discard

/-- The update stands behind the body, where the label for the next round is. -/
theorem Fronts.behindBody
    (hf : Z.Fronts site around ns (loopOps start done T.opcodes B.opcodes (.label next :: N)) pc S env h v)
    (hat : pc' = pc + 1 + T.opcodes.length + B.opcodes.length ∨
      Z.world.program.jumpTarget? next = some pc') :
    Z.Has pc' (.label next :: (N ++ [.jump start, .label done, .loopEnd])) := by
  have hc := hf.code.tail.right.right
  rcases hat with rfl | ht
  · exact hc
  · rw [hc.target] at ht
    cases ht
    exact hc

/-- From behind the body, or from the label for the next round, the update leads to the next round. -/
theorem Fronts.round (hf : Z.Fronts site around ns (loopOps start done T.opcodes B.opcodes N) pc S env h v)
    (hN : Z.Nexts span start next update N) (hns : exprOptionNodes update ⊆ ns)
    (hat : pc' = pc + 1 + T.opcodes.length + B.opcodes.length ∨
      Z.world.program.jumpTarget? next = some pc')
    (hshow : Z.Shows pc' S h₂ v₂) (hsees : Z.Sees (mentioned (ns ++ contextNodes around.contexts)) env h₂ v₂)
    (hx : attempt (evalOr Z.world env .undefined update) h₂ = some (.ok x, h₃)) :
    ∃ v₃, Steps v₂ v₃ ∧ Z.Shows pc S h₃ v₃ ∧ Z.Quiet h₂ h₃ v₂ v₃ := by
  have hstart := hf.code.target
  have hroom := hf.room
  simp only [loopOps, List.length_cons, List.length_append] at hroom
  cases hN with
  | «while» =>
    cases attempt_eq_ok hx
    rcases hat with rfl | ht
    · exact hshow.jump hf.code.tail.right.right (by omega) hstart
    · rw [hstart] at ht
      cases ht
      exact ⟨v₂, .refl, hshow, .refl _ _⟩
  | @«for» _ _ U hU =>
    have hc := hf.behindBody hat
    simp only [List.length_cons] at hroom
    obtain ⟨v₃, hs₃, hshow₃, hq₃⟩ := hshow.label hc (by omega)
    obtain ⟨v₄, hs₄, hshow₄, hq₄⟩ := (does_update hU hf.placed hns .undefined).gets hx hc.tail.left (by omega)
      hshow₃ (hsees.quiet hshow hq₃) nofun
    have hplain : Z.Shows (pc' + 1 + U.opcodes.length) S h₃ v₄ := hshow₄
    obtain ⟨v₅, hs₅, hshow₅, hq₅⟩ := hplain.jump hc.tail.right (by omega) hstart
    exact ⟨v₅, (hs₃.trans hs₄).trans hs₅, hshow₅, (hq₃.trans hq₄).trans hq₅⟩

theorem Fronts.roundThrows
    (hf : Z.Fronts site around ns (loopOps start done T.opcodes B.opcodes N) pc S env h v)
    (hN : Z.Nexts span start next update N) (hns : exprOptionNodes update ⊆ ns)
    (hat : pc' = pc + 1 + T.opcodes.length + B.opcodes.length ∨
      Z.world.program.jumpTarget? next = some pc')
    (hshow : Z.Shows pc' S h₂ v₂) (hsees : Z.Sees (mentioned (ns ++ contextNodes around.contexts)) env h₂ v₂)
    (hx : attempt (evalOr Z.world env .undefined update) h₂ = some (.error x, h₃)) :
    Z.Outcome owner C S pc env h₂ h₃ v₂ declares uses (.throw x) := by
  have hroom := hf.room
  simp only [loopOps, List.length_cons, List.length_append] at hroom
  cases hN with
  | «while» => cases hx
  | «for» hU =>
    have hc := hf.behindBody hat
    simp only [List.length_cons] at hroom
    obtain ⟨v₃, hs₃, hshow₃, hq₃⟩ := hshow.label hc (by omega)
    have hthrows : Z.Outcome owner C S pc env h₂ h₃ v₃ never never (.throw x) :=
      (does_update hU hf.placed hns .undefined).throws hx hc.tail.left (by omega) hshow₃
        (hsees.quiet hshow hq₃) nofun
    exact (hthrows.after hs₃ hq₃.script hq₃.machine hq₃.env).of_never

/-- One round up to the update: the machine stands behind the body or at the label for the next round. -/
theorem Fronts.roundBody
    (hf : Z.Fronts site around ns (loopOps start done T.opcodes B.opcodes N) pc (.loop env :: S) env h v)
    (ho : Z.Owns site env h v) (hT : Z.Yields (.exprThen span [.jumpFalse done] test) T)
    (hB : Z.Yields (.stmt (around.inside (.loop next done)) body) B) (hN : Z.Nexts span start next update N)
    (hnt : exprOptionNodes test ⊆ ns)
    (hnb : body.nodes ⊆ ns) (hx : attempt (evalOr Z.world env (.bool true) test) h = some (.ok w, h₁))
    (hw : w.isTruthy = true)
    (hbody : Z.Direct { site with inLoop := true } env (.stmt · body) body.nodes h₁ c₁ h₂)
    (hc₁ : c₁ = .normal ∨ c₁ = .continue) :
    ∃ v₂ pc', Steps v v₂ ∧ Z.Shows pc' (.loop env :: S) h₂ v₂ ∧ v₂.env = v.env ∧
      Grows Z.base (among env (declared ns)) h h₂ ∧ Grows Z.base (only env) v.heap v₂.heap ∧
      (pc' = pc + 1 + T.opcodes.length + B.opcodes.length ∨ Z.world.program.jumpTarget? next = some pc') := by
  obtain ⟨v₁, hs, hq, hshow, hout⟩ := hf.loopBody ho hT hB hnt hnb hx hw hbody
  have hg := hq.script.of_never.trans_same hout.script
  rcases hc₁ with rfl | rfl
  · obtain ⟨v₂, hs₂, hshow₂, he₂, hG₂⟩ := hout.machine.normal
    exact ⟨v₂, _, hs.trans hs₂, hshow₂, he₂.trans hq.env, hg, hq.machine.of_never.trans_same hG₂, .inl rfl⟩
  · have hnext : ∃ target, Z.world.program.jumpTarget? next = some target := by
      cases hN with
      | «while» => exact ⟨_, hf.code.target⟩
      | «for» => exact ⟨_, (hf.behindBody (.inl rfl)).target⟩
    obtain ⟨target, ht⟩ := hnext
    have henv : env.index < v₁.heap.scopes.size := by
      rw [← ho.same, ← hq.env]
      exact hshow.env
    obtain ⟨v₂, hs₂, hshow₂, he₂, hG₂⟩ := hout.machine.arrive (.inl ⟨rfl, rfl⟩) ht henv
    exact ⟨v₂, target, hs.trans hs₂, hshow₂, he₂.trans ho.same.symm, hg, hq.machine.of_never.trans_same hG₂,
      .inr ht⟩

/-! ### Loops from the test on -/

theorem loops_done (hx : attempt (evalOr Z.world env (.bool true) test) h = some (.ok w, h'))
    (hw : w.isTruthy = false) : Z.Loops site env test update body h .normal h' := by
  intro around span start next done T B N ns pc S v hT hB hN hnt hnu hnb hf ho
  have hroom := hf.room
  simp only [loopOps, List.length_cons, List.length_append, List.length_nil] at hroom ⊢
  obtain ⟨v₁, hs, hshow, hq⟩ := hf.tests hT hnt hx
  rw [hw, if_neg Bool.false_ne_true] at hshow
  obtain ⟨v₂, hs₂, hshow₂, hq₂⟩ := hshow.leaveLoop hf.code.tail.right.right.right.tail (by omega)
  have hq := hq.trans hq₂
  exact ⟨hq.script.of_never, .falls (hs.trans hs₂) (hshow₂.to (by omega)) hq.env hq.machine.of_never⟩

theorem loops_throws (hx : attempt (evalOr Z.world env (.bool true) test) h = some (.error w, h')) :
    Z.Loops site env test update body h (.throw w) h' := by
  intro around span start next done T B N ns pc S v hT hB hN hnt hnu hnb hf ho
  have hc := hf.code
  have hroom := hf.room
  simp only [loopOps, List.length_cons] at hc hroom
  have hmarked : (Entry.loop env :: S).length = S.length + 1 := List.length_cons
  obtain ⟨v₁, hs₁, hshow₁, hq₁⟩ := hf.shown.label hc (by omega)
  have hf₁ := hf.quiet (fun _ hm => hm) hc.tail (by omega) hshow₁ hq₁
  obtain ⟨d, d', hT, hP⟩ := hT
  cases hT with
  | exprThenNone => cases hx
  | exprThenSome hA =>
    simp only [opcodes_append, opcodes_asm, List.append_assoc] at hf₁
    have hthrows : Z.Outcome around.body (.loop next done :: around.contexts) (.loop env :: S) pc env h h' v₁
        (among env (declared ns)) (only env) (.throw w) := hf₁.raises ⟨d, d', hA, hP⟩ hnt hx
    exact (hthrows.outLoop (.inr ⟨w, rfl⟩)).after hs₁ hq₁.script.of_never hq₁.machine.of_never hq₁.env

theorem loops_next (hx : attempt (evalOr Z.world env (.bool true) test) h = some (.ok w, h₁))
    (hw : w.isTruthy = true)
    (hbody : Z.Direct { site with inLoop := true } env (.stmt · body) body.nodes h₁ c₁ h₂)
    (hc₁ : c₁ = .normal ∨ c₁ = .continue)
    (hu : attempt (evalOr Z.world env .undefined update) h₂ = some (.ok x, h₃))
    (hrest : Z.Loops site env test update body h₃ c h') : Z.Loops site env test update body h c h' := by
  intro around span start next done T B N ns pc S v hT hB hN hnt hnu hnb hf ho
  obtain ⟨v₂, pc', hs₂, hshow₂, he₂, hg₂, hG₂, hat⟩ := hf.roundBody ho hT hB hN hnt hnb hx hw hbody hc₁
  have hsees₂ := hf.sees.own ho.same hf.shown hg₂ hG₂ he₂
  obtain ⟨v₃, hs₃, hshow₃, hq₃⟩ := hf.round hN hnu hat hshow₂ hsees₂ hu
  have hg := hg₂.trans_same hq₃.script.of_never
  have he : v₃.env = v.env := hq₃.env.trans he₂
  have hagain := hrest hT hB hN hnt hnu hnb
    (hf.sub (fun _ hm => hm) hf.code hf.room hshow₃ (hsees₂.quiet hshow₂ hq₃)) (ho.grows hf.sees hg he)
  exact hagain.after (hs₂.trans hs₃) hg (hG₂.trans_same hq₃.machine.of_never) he

theorem loops_updateThrows (hx : attempt (evalOr Z.world env (.bool true) test) h = some (.ok w, h₁))
    (hw : w.isTruthy = true)
    (hbody : Z.Direct { site with inLoop := true } env (.stmt · body) body.nodes h₁ c₁ h₂)
    (hc₁ : c₁ = .normal ∨ c₁ = .continue)
    (hu : attempt (evalOr Z.world env .undefined update) h₂ = some (.error x, h')) :
    Z.Loops site env test update body h (.throw x) h' := by
  intro around span start next done T B N ns pc S v hT hB hN hnt hnu hnb hf ho
  obtain ⟨v₂, pc', hs₂, hshow₂, he₂, hg₂, hG₂, hat⟩ := hf.roundBody ho hT hB hN hnt hnb hx hw hbody hc₁
  have hsees₂ := hf.sees.own ho.same hf.shown hg₂ hG₂ he₂
  have hthrows : Z.Outcome around.body (.loop next done :: around.contexts) (.loop env :: S) pc env h₂ h' v₂
      (among env (declared ns)) (only env) (.throw x) := hf.roundThrows hN hnu hat hshow₂ hsees₂ hu
  exact (hthrows.outLoop (.inr ⟨x, rfl⟩)).after hs₂ hg₂ hG₂ he₂

theorem loops_break (hx : attempt (evalOr Z.world env (.bool true) test) h = some (.ok w, h₁))
    (hw : w.isTruthy = true)
    (hbody : Z.Direct { site with inLoop := true } env (.stmt · body) body.nodes h₁ .break h') :
    Z.Loops site env test update body h .normal h' := by
  intro around span start next done T B N ns pc S v hT hB hN hnt hnu hnb hf ho
  obtain ⟨v₁, hs, hq, hshow, hout⟩ := hf.loopBody ho hT hB hnt hnb hx hw hbody
  have hc := hf.code.tail.right.right.right.tail
  have hroom := hf.room
  simp only [loopOps, List.length_cons, List.length_append, List.length_nil] at hroom ⊢
  have henv : env.index < v₁.heap.scopes.size := by
    rw [← ho.same, ← hq.env]
    exact hshow.env
  obtain ⟨v₂, hs₂, hshow₂, he₂, hG₂⟩ := hout.machine.arrive (.inr ⟨rfl, rfl⟩) hc.target henv
  obtain ⟨v₃, hs₃, hshow₃, hq₃⟩ := hshow₂.leaveLoop hc (by omega)
  refine ⟨hq.script.of_never.trans_same hout.script, .falls ((hs.trans hs₂).trans hs₃) (hshow₃.to (by omega))
    ((hq₃.env.trans he₂).trans ho.same.symm) ?_⟩
  exact (hq.machine.of_never.trans_same hG₂).trans_same hq₃.machine.of_never

theorem loops_left (hx : attempt (evalOr Z.world env (.bool true) test) h = some (.ok w, h₁))
    (hw : w.isTruthy = true)
    (hbody : Z.Direct { site with inLoop := true } env (.stmt · body) body.nodes h₁ c h')
    (hc : (∃ w, c = .ret w) ∨ (∃ w, c = .throw w)) : Z.Loops site env test update body h c h' := by
  intro around span start next done T B N ns pc S v hT hB hN hnt hnu hnb hf ho
  obtain ⟨v₁, hs, hq, -, hout⟩ := hf.loopBody ho hT hB hnt hnb hx hw hbody
  exact (hout.outLoop hc).after hs hq.script.of_never hq.machine.of_never hq.env

/-! ### Loop statements -/

theorem direct_while {test : Expr} (hloop : Z.Loops site env (some test) none body h c h') :
    Z.Direct site env (.stmtKind · span (.while test body)) (.stmt (.while test body) :: (test.nodes ++ body.nodes))
      h c h' := by
  rintro around L pc S v ⟨d, d', hL, hP⟩ hf ho
  cases hL with
  | @«while» _ _ _ _ _ T d₁ B _ hT hB =>
    have hops : (Listing.asm span [.loopStart, .label d.labels] ++ T ++ Listing.asm span [.jumpFalse (d.labels + 1)]
        ++ B ++ Listing.asm span [.jump d.labels, .label (d.labels + 1), .loopEnd]).opcodes =
          .loopStart :: loopOps d.labels (d.labels + 1)
            (T ++ Listing.asm span [.jumpFalse (d.labels + 1)]).opcodes B.opcodes [] := by
      simp [loopOps]
    rw [hops] at hf ⊢
    have hroom := hf.room
    rw [List.length_cons] at hroom ⊢
    obtain ⟨v₁, hs, hshow, hq⟩ := hf.shown.startLoop hf.code (by omega)
    rw [ho.same] at hshow
    have hout := hloop ⟨_, d₁, .exprThenSome hT, hB.pool_prefix.trans hP⟩ ⟨d₁, d', hB, hP⟩ .while
      (List.subset_cons_of_subset _ (List.subset_append_left _ _)) (List.nil_subset _)
      (List.subset_cons_of_subset _ (List.subset_append_right _ _))
      (hf.quiet (fun _ hm => hm) hf.code.tail (by rw [List.length_cons]; omega) hshow hq)
      (ho.grows hf.sees hq.script hq.env)
    exact (hout.after hs hq.script.of_never hq.machine.of_never hq.env).to (by omega)

/-- The code of a loop in a scope of its own: what comes first, the loop, and the end of the scope. -/
theorem opcodes_for (span : Span) (start next done : Nat) (I T B U : Listing) :
    (Listing.within span (I ++ Listing.asm span [.loopStart, .label start] ++ T ++ B
      ++ Listing.asm span [.label next] ++ U ++ Listing.asm span [.jump start, .label done, .loopEnd])).opcodes =
      .enterScope :: (I.opcodes ++ (.loopStart ::
        (loopOps start done T.opcodes B.opcodes (.label next :: U.opcodes) ++ [.leaveScope]))) := by
  simp [loopOps]

/-- The parts of a loop statement are among its nodes. -/
theorem for_parts (init : Option Stmt) (test update : Option Expr) (body : Stmt) :
    stmtOptionNodes init ⊆ .stmt (.for init test update body) :: (StmtKind.for init test update body).parts ∧
    exprOptionNodes test ⊆ .stmt (.for init test update body) :: (StmtKind.for init test update body).parts ∧
    exprOptionNodes update ⊆ .stmt (.for init test update body) :: (StmtKind.for init test update body).parts ∧
    body.nodes ⊆ .stmt (.for init test update body) :: (StmtKind.for init test update body).parts := by
  refine ⟨fun n hn => ?_, fun n hn => ?_, fun n hn => ?_, fun n hn => ?_⟩ <;> simp [StmtKind.parts, hn]

theorem direct_for {init : Option Stmt}
    (hinit : Z.Direct site (h.newChild env).1 (.stmtOption · init) (stmtOptionNodes init)
      (h.newChild env).2 .normal h₁)
    (hloop : Z.Loops site (h.newChild env).1 test update body h₁ c h') :
    Z.Direct site env (.stmtKind · span (.for init test update body))
      (.stmt (.for init test update body) :: (StmtKind.for init test update body).parts) h c h' := by
  rintro around L pc S v ⟨d, d', hL, hP⟩ hf ho
  obtain ⟨hni, hnt, hnu, hnb⟩ := for_parts init test update body
  cases hL with
  | @«for» _ _ _ _ _ _ _ I d₁ T d₂ B d₃ U _ hI hT hB hU =>
    have hd₃ := hU.pool_prefix.trans hP
    have hd₂ := hB.pool_prefix.trans hd₃
    rw [opcodes_for] at hf ⊢
    have hroom := hf.room
    have hc := hf.code
    simp only [List.length_cons, List.length_append, List.length_nil] at hroom ⊢
    obtain ⟨v₁, hs₁, he₁, hH₁, hf₁, ho₁⟩ := hf.enter hc
      (by simp only [List.length_cons, List.length_append, List.length_nil]; omega)
    have hfirst := hinit ⟨_, d₁, hI, hT.pool_prefix.trans hd₂⟩
      (hf₁.sub hni hc.tail.left (by omega) hf₁.shown hf₁.sees) ho₁
    have hout : Z.Outcome around.body around.contexts S (pc + 1 + I.opcodes.length + 1 + (loopOps d.labels
          (d.labels + 2) T.opcodes B.opcodes (.label (d.labels + 1) :: U.opcodes)).length)
        (h.newChild env).1 (h.newChild env).2 h' v₁ (among (h.newChild env).1 (declared
          (.stmt (.for init test update body) :: (StmtKind.for init test update body).parts)))
        (only (h.newChild env).1) c := by
      refine hfirst.andThen (fun {v₂} hshow₂ he₂ hG₂ => ?_) (declared_subset hni)
        (List.Subset.refl _)
      obtain ⟨v₃, hs₃, hshow₃, hq₃⟩ := hshow₂.startLoop hc.tail.right (by omega)
      have hg₂ := hfirst.script
      rw [he₂, ho₁.same] at hshow₃
      have hf₂ := hf₁.own ho₁ (fun _ hm => hm) hc.tail.right
        (by simp only [List.length_cons, List.length_append, List.length_nil]; omega) hshow₂ hg₂ he₂ hG₂
      have ho₂ := ho₁.grows hf₁.sees hg₂ he₂
      have hout := hloop ⟨d₁, d₂, hT, hd₂⟩ ⟨d₂, d₃, hB, hd₃⟩ (.for ⟨d₃, d', hU, hP⟩) hnt hnu hnb
        (hf₂.quiet (fun _ hm => hm) hc.tail.right.tail.left
          (by rw [List.length_cons]; omega) hshow₃ hq₃)
        (ho₂.grows hf₂.sees hq₃.script hq₃.env)
      exact hout.after hs₃ hq₃.script.of_never hq₃.machine.of_never hq₃.env
    have hclosed := hout.machine.close hf.shown hf.sees hs₁ he₁ (by rw [hH₁]; exact .refl _ _ _) hout.script
      hc.tail.right.tail.right (by omega) hf.placed.apart
    refine hclosed.of_never.to ?_
    omega

/-- What comes first may leave the loop before it begins. -/
theorem direct_forStops {init : Option Stmt}
    (hinit : Z.Direct site (h.newChild env).1 (.stmtOption · init) (stmtOptionNodes init)
      (h.newChild env).2 c h') (hne : c ≠ .normal) :
    Z.Direct site env (.stmtKind · span (.for init test update body))
      (.stmt (.for init test update body) :: (StmtKind.for init test update body).parts) h c h' := by
  rintro around L pc S v ⟨d, d', hL, hP⟩ hf ho
  obtain ⟨hni, -⟩ := for_parts init test update body
  cases hL with
  | @«for» _ _ _ _ _ _ _ I d₁ T d₂ B d₃ U _ hI hT hB hU =>
    rw [opcodes_for] at hf ⊢
    have hroom := hf.room
    have hc := hf.code
    simp only [List.length_cons, List.length_append, List.length_nil] at hroom
    obtain ⟨v₁, hs₁, he₁, hH₁, hf₁, ho₁⟩ := hf.enter hc
      (by simp only [List.length_cons, List.length_append, List.length_nil]; omega)
    have hfirst := hinit
      ⟨_, d₁, hI, hT.pool_prefix.trans (hB.pool_prefix.trans (hU.pool_prefix.trans hP))⟩
      (hf₁.sub hni hc.tail.left (by omega) hf₁.shown hf₁.sees) ho₁
    have hout := hfirst.widen (declared_subset hni)
    have hclosed := (hout.machine.elsewhere hne _).close hf.shown hf.sees hs₁ he₁ (by rw [hH₁]; exact .refl _ _ _)
      hout.script
      hc.tail.right.tail.right (by omega) hf.placed.apart
    exact hclosed.of_never.elsewhere hne _

end Stage

end ScriptMachine
