import ScriptMachine.Proofs.Compile.Loops

/-!
# Finals — the code of a try statement does what the statement means

The body and the handler of a try statement run above a region each. They come to the end of the
statement, to an exit that has to pass the region, or to an exception for which the statement has no
more handlers (`Guarded`); for each of the three the generator has placed a copy of the final part.
The copies lie within different contexts and do the same.
-/

namespace ScriptMachine

open Compile Heap Machine Meaning

/-- The nodes of a try statement. -/
def tryNodes (ss : List Stmt) (clause : Option Handler) (final : Option (List Stmt)) : List Node :=
  .stmt (.try ss clause final) :: (StmtKind.try ss clause final).parts

/-- The body and the handler of a try statement declare nothing that its final part mentions. -/
theorem Placed.separate {site : Site} {around : Surroundings} {ss : List Stmt} {clause : Option Handler}
    {final : Option (List Stmt)} (hp : Placed site around (tryNodes ss clause final)) {name : String}
    (hn : name ∈ handlerParam clause ++ declared (stmtsNodes ss) ++ declared (handlerNodes clause)) :
    name ∉ mentioned (finalNodes final) := by
  have hok := hp.orderly.left _ List.mem_cons_self
  simp only [Node.orderly, Bool.and_eq_true] at hok
  have hsep := hok.1.2
  simp only [Node.separate, List.all_eq_true] at hsep
  simpa using hsep name hn

namespace Stage

/-- The code of a try statement: the body and the handler, each above a region, then the final part for
an exception and the one for the end. -/
def tryOps (caught rethrow done : Nat) (final : Option (List Stmt)) (B H F E : List Opcode) : List Opcode :=
  .tryStart caught (final.map fun _ => rethrow) false :: (B ++ (.tryEnd :: .jump done :: .label caught ::
    .tryStart rethrow none true :: (H ++ (.tryEnd :: .jump done :: .label rethrow ::
      (F ++ (.throw :: .label done :: E))))))

variable (Z : Stage)

/-- How the body of a try statement and its handler end: at the label behind the statement, at an exit
that has to pass the region, or at the label where the exception is thrown again. -/
inductive Guarded (owner : BodyKind) (final : Option (List Stmt)) (C : List Context) (S : List Entry)
    (done rethrow : Nat) (env : ScopeId) (h' : Heap) (v : Machine) : Completion → Prop where
  | falls {v'} : Steps v v' → Z.Shows done S h' v' → v'.env = v.env → Grows Z.base never v.heap v'.heap →
      Guarded owner final C S done rethrow env h' v .normal
  | leaves {c v' n last known r} : Steps v v' → Exits owner c (.region final :: C) n last known →
      Z.Leaving owner (.region final :: C) n last known (.region r :: S) env h' v' →
      Grows Z.base never v.heap v'.heap → Guarded owner final C S done rethrow env h' v c
  | rethrows {w v'} : Steps v v' → Z.Shows rethrow (.value w :: S) h' v' → v'.env = v.env →
      Grows Z.base never v.heap v'.heap → Guarded owner final C S done rethrow env h' v (.throw w)

/-- The body of a try statement and its handler do what leads to a completion. -/
def Guards (site : Site) (env : ScopeId) (ss : List Stmt) (clause : Option Handler) (h : Heap)
    (c : Completion) (h' : Heap) : Prop :=
  ∀ {around span final caught rethrow done B H F E pc S v donePc rethrowPc},
    Z.Yields (.stmts (around.inside (.region final)) ss) B →
    Z.Yields (.handler (around.inside (.region final)) span clause) H →
    Z.Fronts site around (tryNodes ss clause final)
      (tryOps caught rethrow done final (Listing.within span B).opcodes H.opcodes F E) pc S env h v →
    Z.world.program.jumpTarget? done = some donePc →
    Z.world.program.jumpTarget? rethrow = some rethrowPc →
    Grows Z.base never h h' ∧ Z.Guarded around.body final around.contexts S donePc rethrowPc env h' v c

variable {Z} {site : Site} {around : Surroundings} {ns ns' : List Node} {ops ops' : List Opcode}
  {pc pc' l target : Nat} {S S' : List Entry} {env : ScopeId} {h h₁ h' : Heap} {v v₁ : Machine} {span : Span}
  {caught rethrow done : Nat} {ss : List Stmt} {clause : Option Handler} {final : Option (List Stmt)}
  {owner : BodyKind} {C : List Context} {c c' : Completion} {w : Value} {B H F E : List Opcode}

/-! ### Regions -/

theorem Shows.openRegion {finalPc : Option Nat} {label : Option Nat} (hshow : Z.Shows pc S h v)
    (hc : Z.Has pc (.tryStart l label false :: ops)) (hroom : S.length ≤ Z.world.config.maxStack)
    (ht : Z.world.program.jumpTarget? l = some target)
    (hfinal : label.map Z.world.program.jumpTarget? = finalPc.map some) :
    ∃ v', Steps v v' ∧ Z.Shows (pc + 1) (.region ⟨Z.sectionIndex, target, finalPc, v.env⟩ :: S) h v' ∧
      Z.Quiet h h v v' := by
  obtain ⟨i, hi, hnext, -⟩ := hshow.tick hc hroom
  have hfetch := hshow.fetching
  have hd := (hfetch.dispatch i).trans
    (dispatch_tryStart hi (by rw [hfetch.program]; exact ht) (by rw [hfetch.program]; exact hfinal))
  rw [hfetch.sectionIndex] at hd
  exact ⟨_, hnext _ hd, hfetch.onStack _, .refl _ _ _, .refl _ _ _, rfl⟩

/-- A region is put below a value. -/
theorem Shows.slipRegion (hshow : Z.Shows pc (.value w :: S) h v)
    (hc : Z.Has pc (.tryStart l none true :: ops)) (hroom : S.length + 1 ≤ Z.world.config.maxStack)
    (ht : Z.world.program.jumpTarget? l = some target) :
    ∃ v', Steps v v' ∧
      Z.Shows (pc + 1) (.value w :: .region ⟨Z.sectionIndex, target, none, v.env⟩ :: S) h v' ∧
      Z.Quiet h h v v' := by
  obtain ⟨i, hi, hnext, -⟩ := hshow.tick hc hroom
  have hfetch := hshow.fetching
  have hd := (hfetch.dispatch i).trans (dispatch_tryKeep hi (by rw [hfetch.program]; exact ht))
  rw [hfetch.sectionIndex] at hd
  exact ⟨_, hnext _ hd, hfetch.onStack _, .refl _ _ _, .refl _ _ _, rfl⟩

theorem Guarded.after (hs : Steps v v₁) (hG : Grows Z.base never v.heap v₁.heap) (he : v₁.env = v.env)
    (hg : Z.Guarded owner final C S done rethrow env h' v₁ c) :
    Z.Guarded owner final C S done rethrow env h' v c := by
  cases hg with
  | falls hs' hshow he' hG' => exact .falls (hs.trans hs') hshow (he'.trans he) (hG.trans_same hG')
  | leaves hs' hexit hleaving hG' => exact .leaves (hs.trans hs') hexit hleaving (hG.trans_same hG')
  | rethrows hs' hshow he' hG' => exact .rethrows (hs.trans hs') hshow (he'.trans he) (hG.trans_same hG')

/-- What runs above a region and does not throw takes the region away and goes behind the statement, or
has to pass the region on its way out. -/
theorem Ends.guarded {r : Region} (hends : Z.Ends owner (.region final :: C) (.region r :: S) pc env h' v never c)
    (hc : Z.Has pc (.tryEnd :: .jump l :: ops)) (hroom : S.length + 1 ≤ Z.world.config.maxStack)
    (ht : Z.world.program.jumpTarget? l = some done) (hn : ∀ w, c ≠ .throw w) :
    Z.Guarded owner final C S done rethrow env h' v c := by
  cases hends with
  | falls hs hshow he hG =>
    obtain ⟨v₁, hs₁, hshow₁, he₁, hH₁⟩ := hshow.drop hc hroom (.region r)
    obtain ⟨v₂, hs₂, hshow₂, hq₂⟩ := hshow₁.jump hc.tail (by omega) ht
    refine .falls ((hs.trans hs₁).trans hs₂) hshow₂ (hq₂.env.trans (he₁.trans he)) ?_
    have hG₂ := hq₂.machine
    rw [hH₁] at hG₂
    exact hG.trans_same hG₂
  | leaves hs hexit hleaving hG => exact .leaves hs hexit hleaving hG
  | gives _ hC => cases hC
  | throws => exact absurd rfl (hn _)

/-! ### The body and the handler -/

/-- What stands in front of the body or the handler, once the region is there. -/
theorem Fronts.inRegion (hf : Z.Fronts site around (tryNodes ss clause final) ops pc S env h v)
    (hns : ns' = stmtsNodes ss ∨ ns' = handlerNodes clause) (hc : Z.Has pc' ops')
    (hroom : S'.length + ops'.length ≤ Z.world.config.maxStack) (hshow : Z.Shows pc' S' h₁ v₁)
    (hq : Z.Quiet h h₁ v v₁) :
    Z.Fronts site (around.inside (.region final)) ns' ops' pc' S' env h₁ v₁ := by
  have hsub : ns' ⊆ tryNodes ss clause final := by
    intro n hn
    rcases hns with rfl | rfl <;> simp [tryNodes, StmtKind.parts, hn]
  have hfinal : finalNodes final ⊆ tryNodes ss clause final := by
    intro n hn
    simp [tryNodes, StmtKind.parts, hn]
  refine ⟨hf.placed.inRegion hsub hfinal fun name hn => hf.placed.separate ?_, hc, hroom, hshow,
    (hf.sees.quiet hf.shown hq).weaken (mentioned_subset ?_)⟩
  · rcases hns with rfl | rfl <;> simp [hn]
  · intro n hn
    rcases List.mem_append.1 hn with hn | hn
    · exact List.mem_append_left _ (hsub hn)
    · rcases List.mem_append.1 hn with hn | hn
      · exact List.mem_append_left _ (hfinal hn)
      · exact List.mem_append_right _ hn

/-- Where the parts of a try statement lie. -/
theorem Has.tryParts (hc : Z.Has pc (tryOps caught rethrow done final B H F E)) :
    Z.Has (pc + 1) B ∧ Z.Has (pc + 1 + B.length) [.tryEnd, .jump done] ∧
      Z.Has (pc + 1 + B.length + 2) [.label caught, .tryStart rethrow none true] ∧
      Z.Has (pc + 1 + B.length + 4) H ∧ Z.Has (pc + 1 + B.length + 4 + H.length) [.tryEnd, .jump done] ∧
      Z.Has (pc + 1 + B.length + 4 + H.length + 2) (.label rethrow :: (F ++ [.throw])) ∧
      Z.Has (pc + 1 + B.length + 4 + H.length + 2 + 1 + F.length + 1) (.label done :: E) := by
  have hmiddle := hc.tail.right
  have hhandler := hmiddle.tail.tail.tail.tail
  have hrethrow := hhandler.right.tail.tail
  have hend := hrethrow.tail.right.tail
  rw [show Opcode.label rethrow :: (F ++ .throw :: .label done :: E) =
    (.label rethrow :: (F ++ [.throw])) ++ .label done :: E by simp] at hrethrow
  exact ⟨hc.tail.left, hmiddle.left (A := [_, _]), hmiddle.tail.tail.left (A := [_, _]), hhandler.left,
    hhandler.right.left (A := [_, _]), hrethrow.left, hend⟩

theorem length_tryOps (caught rethrow done : Nat) (final : Option (List Stmt)) (B H F E : List Opcode) :
    (tryOps caught rethrow done final B H F E).length = B.length + H.length + F.length + E.length + 10 := by
  simp only [tryOps, List.length_cons, List.length_append]
  omega

/-- The machine in front of the body, above the first region. -/
theorem Fronts.openTry {K : Listing} {ops : List Opcode}
    (hf : Z.Fronts site around (tryNodes ss clause final) ops pc S env h v)
    (hops : ops = tryOps caught rethrow done final (Listing.within span K).opcodes H F E) :
    ∃ v₁ target finalPc, Steps v v₁ ∧ Z.Quiet h h v v₁ ∧
      Z.world.program.jumpTarget? caught = some target ∧
      Z.Fronts site (around.inside (.region final)) (stmtsNodes ss) (Listing.within span K).opcodes (pc + 1)
        (.region ⟨Z.sectionIndex, target, finalPc, v.env⟩ :: S) env h v₁ := by
  subst hops
  have hroom := hf.room
  rw [length_tryOps] at hroom
  obtain ⟨hB, -, hcaught, -, -, hrethrow, -⟩ := hf.code.tryParts
  have hfinal : (final.map fun _ => rethrow).map Z.world.program.jumpTarget? =
      (final.map fun _ => pc + 1 + (Listing.within span K).opcodes.length + 4 + H.length + 2).map some := by
    cases final with
    | none => rfl
    | some body => simp only [Option.map_some, hrethrow.target]
  obtain ⟨v₁, hs, hshow, hq⟩ := hf.shown.openRegion hf.code (by omega) hcaught.target hfinal
  exact ⟨v₁, _, _, hs, hq, hcaught.target,
    hf.inRegion (.inl rfl) hB (by rw [List.length_cons]; omega) hshow hq⟩

theorem guards_unharmed (hss : Z.Scoped site env ss h c h') (hn : ∀ w, c ≠ .throw w) :
    Z.Guards site env ss clause h c h' := by
  intro around span final caught rethrow done B H F E pc S v donePc rethrowPc hB hH hf hdone hrethrow
  obtain ⟨v₁, target, finalPc, hs, hq, -, hf₁⟩ := hf.openTry rfl
  have hroom := hf.room
  rw [length_tryOps] at hroom
  obtain ⟨-, hend, -⟩ := hf.code.tryParts
  have hbody := hss hB hf₁
  exact ⟨hbody.script, (hbody.machine.guarded hend (by omega) hdone hn).after hs hq.machine hq.env⟩

/-- A value that the body throws goes to the handler, and what the handler throws to the final part. -/
theorem guards_caught (hss : Z.Scoped site env ss h (.throw w) h₁) (hh : Z.Handles site env clause w h₁ c h') :
    Z.Guards site env ss clause h c h' := by
  intro around span final caught rethrow done B H F E pc S v donePc rethrowPc hB hH hf hdone hrethrow
  obtain ⟨v₁, target, finalPc, hs₁, hq₁, ht, hf₁⟩ := hf.openTry rfl
  have hroom := hf.room
  rw [length_tryOps] at hroom
  obtain ⟨-, -, hcaught, hhandler, hend, -⟩ := hf.code.tryParts
  have hbody := hss hB hf₁
  obtain ⟨cause, u, h₀, hraise, hcatch, hfail, hw, hG⟩ := hbody.machine.throw
  have henv : v.env.index < u.heap.scopes.size :=
    Nat.lt_of_lt_of_le hf.shown.env (hq₁.machine.trans_same hG).size
  obtain ⟨v₂, hs₂, hshow₂, he₂, hG₂⟩ := Fails.caught hraise hcatch hfail hw rfl henv
  rw [hcaught.target] at ht
  cases ht
  obtain ⟨v₃, hs₃, hshow₃, hq₃⟩ := hshow₂.label hcaught (by rw [List.length_cons]; omega)
  obtain ⟨v₄, hs₄, hshow₄, hq₄⟩ := hshow₃.slipRegion hcaught.tail (by omega) hrethrow
  have he₃ : v₃.env = v.env := hq₃.env.trans he₂
  rw [he₃] at hshow₄
  have hs : Steps v v₄ := ((hs₁.trans hs₂).trans hs₃).trans hs₄
  have hq : Z.Quiet h h₁ v v₄ :=
    ⟨hbody.script, (((hq₁.machine.trans_same hG).trans_same hG₂).trans_same hq₃.machine).trans_same hq₄.machine,
      hq₄.env.trans he₃⟩
  have hf₄ := hf.inRegion (.inr rfl) hhandler
    (by simp only [List.length_cons]; omega) hshow₄ hq
  have hclause := hh hH hf₄ fun name hname => ?_
  · refine ⟨hbody.script.trans_same hclause.script, ?_⟩
    by_cases hn : ∀ w, c ≠ .throw w
    · exact (hclause.machine.guarded hend (by omega) hdone hn).after hs hq.machine hq.env
    · obtain ⟨w', rfl⟩ : ∃ w', c = .throw w' := by
        by_contra hnone
        exact hn fun w' hw' => hnone ⟨w', hw'⟩
      obtain ⟨cause', u', h₀', hraise', hcatch', hfail', hw', hG'⟩ := hclause.machine.throw
      obtain ⟨v₅, hs₅, hshow₅, he₅, hG₅⟩ := Fails.caught hraise' hcatch' hfail' hw' rfl
        (Nat.lt_of_lt_of_le hf.shown.env (hq.machine.trans_same hG').size)
      exact .rethrows (hs.trans hs₅) hshow₅ he₅ ((hq.machine.trans_same hG').trans_same hG₅)
  · intro hm
    obtain ⟨n, hn, hmention⟩ := List.mem_flatMap.1 hm
    rcases List.mem_append.1 hn with hn | hn
    · exact hf.placed.separate (by simp [hname]) (List.mem_flatMap.2 ⟨n, hn, hmention⟩)
    · refine hf.placed.apart name ?_ (List.mem_flatMap.2 ⟨n, hn, hmention⟩)
      exact List.mem_flatMap.2 ⟨_, List.mem_cons_self, hname⟩

/-! ### The final part -/

/-- What stands in front of a copy of the final part. -/
theorem Fronts.beforeFinal {around' : Surroundings}
    (hf : Z.Fronts site around (tryNodes ss clause final) ops pc S env h v)
    (hp : ∀ {ns}, Placed site around ns → Placed site around' ns)
    (hnodes : contextNodes around'.contexts = contextNodes around.contexts) (hc : Z.Has pc' ops')
    (hroom : S'.length + ops'.length ≤ Z.world.config.maxStack) (hshow : Z.Shows pc' S' h₁ v₁)
    (hq : Z.Quiet h h₁ v v₁) : Z.Fronts site around' (finalNodes final) ops' pc' S' env h₁ v₁ := by
  have hfinal : finalNodes final ⊆ tryNodes ss clause final := by
    intro n hn
    simp [tryNodes, StmtKind.parts, hn]
  refine ⟨hp (hf.placed.sub hfinal), hc, hroom, hshow, (hf.sees.quiet hf.shown hq).weaken (mentioned_subset ?_)⟩
  rw [hnodes]
  exact List.append_subset.2 ⟨fun _ hm => List.mem_append_left _ (hfinal hm), List.subset_append_right _ _⟩

/-- The completion of a try statement whose final part does not complete normally. -/
theorem unless_of_ne (hc : c' ≠ .normal) : c.unless c' = c' := by
  cases c' with
  | normal => exact absurd rfl hc
  | _ => rfl

theorem unless_ne (hc : c ≠ .normal) : c.unless c' ≠ .normal := by
  cases c' with
  | normal => exact hc
  | _ => exact nofun

/-- What a machine does, in whatever scope, before it leaves a statement. -/
theorem Ends.afterExit {may : ScopeId → String → Prop}
    (hends : Z.Ends owner C S pc env h' v₁ may c) (hs : Steps v v₁)
    (hG : Grows Z.base may v.heap v₁.heap) (hc : c ≠ .normal) : Z.Ends owner C S pc env h' v may c := by
  cases hends with
  | falls => exact absurd rfl hc
  | leaves hs' hexit hleaving hG' => exact .leaves (hs.trans hs') hexit hleaving (hG.trans_same hG')
  | gives ho hC hs' hret hshow hroom hG' =>
    exact .gives ho hC (hs.trans hs') hret hshow hroom (hG.trans_same hG')
  | throws hr hcatch hf hw hG' => exact .throws (hs.raises hr) hcatch hf hw (hG.trans_same hG')

/-- An exit from the body or the handler runs its own copy of the final part. -/
theorem Leaving.throughFinal {n : Nat} {last : List Opcode} {known : List (String × Value)} {r : Region}
    (pc : Nat) (hfin : Z.Finishes site env final h₁ c' h') (hp : Placed site around (finalNodes final))
    (hexit : Exits around.body c (.region final :: around.contexts) n last known)
    (hl : Z.Leaving around.body (.region final :: around.contexts) n last known (.region r :: S) env h₁ v) :
    Z.Outcome around.body around.contexts S pc env h₁ h' v never never (c.unless c') := by
  obtain ⟨n, rfl, hexit'⟩ := hexit.pass nofun
  obtain ⟨v₁, pc₁, span, F, L, hs₁, he₁, hH₁, hshow₁, hF, hL, hc, hroom⟩ := hl.region
  have hsees : Z.Sees (mentioned (finalNodes final ++ contextNodes around.contexts)) env h₁ v₁ :=
    hl.sees.same he₁ hH₁
  have hout := hfin hF ⟨hp, hc.left, by omega, hshow₁, hsees⟩
  have hout' := hout.after hs₁ (.refl _ _ _) (by rw [hH₁]; exact .refl _ _ _) he₁
  by_cases hn : c' = .normal
  · subst hn
    obtain ⟨v₂, hs₂, hshow₂, he₂, hG₂⟩ := hout.machine.normal
    have hq : Z.Quiet h₁ h' v₁ v₂ := ⟨hout.script, hG₂, he₂⟩
    refine ⟨hout.script, .leaves (hs₁.trans hs₂) hexit' ⟨⟨_, span, L, hL, hc.right, by omega, hshow₂⟩, ?_, ?_⟩ ?_⟩
    · exact (hsees.quiet hshow₁ hq).weaken (mentioned_subset (List.subset_append_right _ _))
    · exact (hl.knows.same he₁ hH₁).quiet hshow₁ hq
    · rw [← hH₁]
      exact hG₂
  · rw [unless_of_ne hn]
    exact hout'.elsewhere hn pc

/-- An exception runs the copy of the final part that throws it again. -/
theorem Shows.throughRethrow {F : Listing} (hfin : Z.Finishes site env final h₁ c' h')
    (hF : Z.Yields (.final (around.inside .pendingThrow) span final) F)
    (hshow : Z.Shows pc (.value w :: S) h₁ v)
    (hc : Z.Has pc (.label l :: (F.opcodes ++ [.throw])))
    (hroom : S.length + 1 + (F.opcodes.length + 1) ≤ Z.world.config.maxStack)
    (hf : ∀ {v₁}, Z.Shows (pc + 1) (.value w :: S) h₁ v₁ → Z.Quiet h₁ h₁ v v₁ →
      Z.Fronts site (around.inside .pendingThrow) (finalNodes final) F.opcodes (pc + 1) (.value w :: S) env h₁ v₁) :
    Z.Outcome around.body around.contexts S pc' env h₁ h' v never never ((Completion.throw w).unless c') := by
  obtain ⟨v₁, hs₁, hshow₁, hq₁⟩ := hshow.label hc (by rw [List.length_cons]; omega)
  have hout := hfin hF (hf hshow₁ hq₁)
  refine Outcome.after hs₁ hq₁.script hq₁.machine hq₁.env ⟨hout.script, ?_⟩
  by_cases hn : c' = .normal
  · subst hn
    obtain ⟨v₂, hs₂, hshow₂, he₂, hG₂⟩ := hout.machine.normal
    obtain ⟨i, hi, -, -, hraise⟩ := hshow₂.tick hc.tail.right (by rw [List.length_cons]; omega)
    have hfetch := hshow₂.fetching
    have hr := (hraise _ _ ((hfetch.dispatch i).trans (dispatch_throw hi))).raises
    exact .throws (hs₂.raises hr) rfl (hfetch.fails S) rfl hG₂
  · rw [unless_of_ne hn]
    exact hout.machine.outside hn (.value w) (.inr ⟨rfl, rfl⟩) fun hexit => hexit.pass nofun

/-- **Try statements**: whatever the body and the handler come to, one copy of the final part runs. -/
theorem direct_try (hg : Z.Guards site env ss clause h c h₁) (hfin : Z.Finishes site env final h₁ c' h') :
    Z.Direct site env (.stmtKind · span (.try ss clause final)) (tryNodes ss clause final) h (c.unless c') h' := by
  rintro around L pc S v ⟨d, d', hL, hP⟩ hf ho
  cases hL with
  | @«try» _ _ _ _ _ _ B d₁ H d₂ F d₃ E _ hB hH hF hE =>
    have hd₃ := hE.pool_prefix.trans hP
    have hd₂ := hF.pool_prefix.trans hd₃
    have hops : (Listing.asm span [.tryStart d.labels (final.map fun _ => d.labels + 1) false]
        ++ Listing.within span B ++ Listing.asm span
          [.tryEnd, .jump (d.labels + 2), .label d.labels, .tryStart (d.labels + 1) none true]
        ++ H ++ Listing.asm span [.tryEnd, .jump (d.labels + 2), .label (d.labels + 1)] ++ F
        ++ Listing.asm span [.throw, .label (d.labels + 2)] ++ E).opcodes =
        tryOps d.labels (d.labels + 1) (d.labels + 2) final (Listing.within span B).opcodes H.opcodes F.opcodes
          E.opcodes := by
      simp [tryOps]
    rw [hops] at hf ⊢
    have hroom := hf.room
    rw [length_tryOps] at hroom ⊢
    obtain ⟨-, -, -, -, -, hrethrow, hdone⟩ := hf.code.tryParts
    obtain ⟨hgrows, hguarded⟩ := hg ⟨_, d₁, hB, hH.pool_prefix.trans hd₂⟩ ⟨d₁, d₂, hH, hd₂⟩ hf
      hdone.target hrethrow.target
    refine Outcome.of_never ?_
    cases hguarded with
    | falls hs hshow he hG =>
      obtain ⟨v₁, hs₁, hshow₁, hq₁⟩ := hshow.label hdone (by omega)
      have hq : Z.Quiet h h₁ v v₁ := ⟨hgrows, hG.trans_same hq₁.machine, hq₁.env.trans he⟩
      have hout := hfin ⟨d₃, d', hE, hP⟩
        (hf.beforeFinal (fun hp => hp) rfl hdone.tail (by omega) hshow₁ hq)
      rw [show Completion.normal.unless c' = c' by cases c' <;> rfl]
      exact (hout.after (hs.trans hs₁) hq.script hq.machine hq.env).to (by omega)
    | leaves hs hexit hleaving hG =>
      have hfinal : finalNodes final ⊆ tryNodes ss clause final := by
        intro n hn
        simp [tryNodes, StmtKind.parts, hn]
      have hout := hleaving.throughFinal pc hfin (hf.placed.sub hfinal) hexit
      have hne : c.unless c' ≠ .normal := unless_ne hexit.ne_normal
      exact ⟨hgrows.trans_same hout.script, (hout.machine.afterExit hs hG hne).elsewhere hne _⟩
    | rethrows hs hshow he hG =>
      refine (hshow.throughRethrow hfin ⟨d₂, d₃, hF, hd₃⟩ hrethrow (by omega) fun hshow₁ hq₁ => ?_).after hs
        hgrows hG he
      exact hf.beforeFinal Placed.pending rfl hrethrow.tail.left (by rw [List.length_cons]; omega) hshow₁
        ⟨hgrows.trans_same hq₁.script, hG.trans_same hq₁.machine, hq₁.env.trans he⟩

end Stage

end ScriptMachine
