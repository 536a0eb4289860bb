import ScriptMachine.Proofs.Compile.Exits

/-!
# Statements — the code of a statement does what the statement means

By induction over the rules of `Runs`, a machine in front of the code of a statement ends as the
statement completes (`Runs.simulated`). A final part has several copies, each compiled within other
contexts; the induction speaks of all code that the generator may give, so one hypothesis serves every
copy. What is carried along is that the scopes of the machine shadow those of the script: an exit runs
final parts in the scopes it was in, and these define nothing that a final part mentions.
-/

namespace ScriptMachine

open Compile Heap Machine Meaning

/-! ### What is asked of statements -/

/-- What is asked of statements with given nodes in their surroundings. -/
structure Placed (site : Site) (around : Surroundings) (ns : List Node) : Prop where
  body : around.body = site.body
  loops : site.inLoop = true → (innermostLoop? around.contexts).isSome = true
  orderly : Every (·.orderly) (ns ++ contextNodes around.contexts)
  apart : ∀ name ∈ declared ns, name ∉ mentioned (contextNodes around.contexts)

theorem mentioned_subset {a b : List Node} (hab : a ⊆ b) : mentioned a ⊆ mentioned b := by
  intro name hn
  obtain ⟨n, hn, hname⟩ := List.mem_flatMap.1 hn
  exact List.mem_flatMap.2 ⟨n, hab hn, hname⟩

theorem declared_subset {a b : List Node} (hab : a ⊆ b) : declared a ⊆ declared b := by
  intro name hn
  obtain ⟨n, hn, hname⟩ := List.mem_flatMap.1 hn
  exact List.mem_flatMap.2 ⟨n, hab hn, hname⟩

namespace Placed

variable {site : Site} {around : Surroundings} {ns ns' : List Node}

theorem sub (hp : Placed site around ns) (hs : ns' ⊆ ns) : Placed site around ns' where
  body := hp.body
  loops := hp.loops
  orderly n hn := hp.orderly n (List.append_subset.2
    ⟨fun _ hm => List.mem_append_left _ (hs hm), List.subset_append_right _ _⟩ hn)
  apart name hn := hp.apart name (declared_subset hs hn)

/-- A loop is one more context, and exits may look for it. -/
theorem inLoop (hp : Placed site around ns) (a z : Nat) :
    Placed { site with inLoop := true } (around.inside (.loop a z)) ns :=
  ⟨hp.body, fun _ => rfl, hp.orderly, hp.apart⟩

theorem pending (hp : Placed site around ns) : Placed site (around.inside .pendingThrow) ns where
  body := hp.body
  loops hl := by
    show ((innermostLoop? around.contexts).map _).isSome = true
    rw [Option.isSome_map]
    exact hp.loops hl
  orderly := hp.orderly
  apart := hp.apart

/-- The final part of a try statement becomes part of the surroundings of its body and its handler,
which declare nothing that it mentions. -/
theorem inRegion {final : Option (List Stmt)} (hp : Placed site around ns) (hs : ns' ⊆ ns)
    (hfinal : finalNodes final ⊆ ns)
    (hapart : ∀ name ∈ declared ns', name ∉ mentioned (finalNodes final)) :
    Placed site (around.inside (.region final)) ns' where
  body := hp.body
  loops hl := by
    show ((innermostLoop? around.contexts).map _).isSome = true
    rw [Option.isSome_map]
    exact hp.loops hl
  orderly := by
    have hall := (hp.sub hs).orderly
    exact hall.left.append ((hp.sub hfinal).orderly)
  apart name hn hm := by
    have hmention : name ∈ mentioned (finalNodes final) ∨ name ∈ mentioned (contextNodes around.contexts) := by
      simpa [mentioned, Surroundings.inside, contextNodes, or_and_right, exists_or] using hm
    rcases hmention with hm | hm
    · exact hapart name hn hm
    · exact hp.apart name (declared_subset hs hn) hm

theorem speaks (hp : Placed site around ns) {names : List String} (hn : mentioned ns ⊆ names) :
    Every (Speaks names) ns := by
  intro n hmem
  have hok := hp.orderly.left n hmem
  simp only [Node.orderly, Bool.and_eq_true, List.all_eq_true, Bool.not_eq_true'] at hok
  exact ⟨hok.1.1, fun name hname => ⟨hn (List.mem_flatMap.2 ⟨n, hmem, hname⟩), hok.2 name hname⟩⟩

end Placed

namespace Stage

variable (Z : Stage)

/-- A machine in front of the code of statements. -/
structure Fronts (site : Site) (around : Surroundings) (ns : List Node) (ops : List Opcode) (pc : Nat)
    (S : List Entry) (env : ScopeId) (h : Heap) (v : Machine) : Prop where
  placed : Placed site around ns
  code : Z.Has pc ops
  room : S.length + ops.length ≤ Z.world.config.maxStack
  shown : Z.Shows pc S h v
  sees : Z.Sees (mentioned (ns ++ contextNodes around.contexts)) env h v

/-- The scope of the script is that of the machine, and returned values can be kept in it. -/
structure Owns (site : Site) (env : ScopeId) (h : Heap) (v : Machine) : Prop where
  same : v.env = env
  hides : site.body ≠ .script → Private Z.base h env

variable {Z} {site : Site} {around : Surroundings} {ns ns' : List Node} {ops : List Opcode}
  {pc pc' : Nat} {S : List Entry} {env : ScopeId} {h h' : Heap} {v v' : Machine}
  {names ds : List String} {may : ScopeId → String → Prop}

/-- What a statement declares in the current scope is seen by the script and by the machine. -/
theorem Sees.own (hs : Z.Sees names env h v) (he : v.env = env) (hshow : Z.Shows pc S h v)
    (hg : Grows Z.base (among env ds) h h') (hG : Grows Z.base may v.heap v'.heap) (he' : v'.env = v.env) :
    Z.Sees names env h' v' := by
  refine ⟨Nat.lt_of_lt_of_le hs.opened hg.size, ?_⟩
  have hshadows := hs.shadows
  rw [he', hG.chain hshow.env, hg.chain hs.opened, he]
  rw [he] at hshadows
  obtain ⟨a, ha, -⟩ := h.chain_eq_cons env
  obtain ⟨b, hb, hlt⟩ := v.heap.chain_eq_cons env
  rw [ha, hb] at hshadows ⊢
  refine .both ((hshadows.behind fun hmem => Nat.lt_irrefl _ (hlt _ hmem)).grows hg (fun s hs' => ?_) ?_)
  · have hlt' := hlt s hs'
    have henv := hs.opened
    omega
  · rintro s hs' name - ⟨rfl, -⟩
    exact Nat.lt_irrefl _ (hlt _ hs')

theorem Owns.grows (ho : Z.Owns site env h v) (hs : Z.Sees names env h v) (hg : Grows Z.base may h h')
    (he : v'.env = v.env) : Z.Owns site env h' v' :=
  ⟨he.trans ho.same, fun hsite => hg.private hs.opened (ho.hides hsite)⟩

/-- A later place, from where less is to be done. -/
theorem Fronts.sub {ops' : List Opcode} {S' : List Entry} {h₁ : Heap} {v₁ : Machine}
    (hf : Z.Fronts site around ns ops pc S env h v) (hns : ns' ⊆ ns) (hc : Z.Has pc' ops')
    (hroom : S'.length + ops'.length ≤ Z.world.config.maxStack) (hshow : Z.Shows pc' S' h₁ v₁)
    (hsees : Z.Sees (mentioned (ns ++ contextNodes around.contexts)) env h₁ v₁) :
    Z.Fronts site around ns' ops' pc' S' env h₁ v₁ :=
  ⟨hf.placed.sub hns, hc, hroom, hshow, hsees.weaken (mentioned_subset (List.append_subset.2
    ⟨fun _ hm => List.mem_append_left _ (hns hm), List.subset_append_right _ _⟩))⟩

theorem Has.append {A B : List Opcode} : Z.Has pc (A ++ B) ↔ Z.Has pc A ∧ Z.Has (pc + A.length) B := by
  refine ⟨fun hc => ⟨hc.left, hc.right⟩, fun ⟨hA, hB⟩ k op hk => ?_⟩
  rcases Nat.lt_or_ge k A.length with hlt | hge
  · rw [List.getElem?_append_left hlt] at hk
    exact hA k op hk
  · rw [List.getElem?_append_right hge] at hk
    obtain ⟨i, hi, hop⟩ := hB _ op hk
    exact ⟨i, by rw [← hi]; congr 1; omega, hop⟩

/-! ### Runs of direct code -/

variable (Z)

/-- Code that runs in the current scope does what leads to a completion. -/
def Direct (site : Site) (env : ScopeId) (p : Surroundings → Piece) (ns : List Node) (h : Heap)
    (c : Completion) (h' : Heap) : Prop :=
  ∀ {around L pc S v}, Z.Yields (p around) L → Z.Fronts site around ns L.opcodes pc S env h v →
    Z.Owns site env h v →
    Z.Outcome around.body around.contexts S (pc + L.opcodes.length) env h h' v (among env (declared ns))
      (only env) c

variable {Z} {span : Span} {p : Piece} {L : Listing} {C : List Context} {owner : BodyKind}
  {c : Completion} {declares uses : ScopeId → String → Prop} {w : Value} {l : Nat} {h₁ : Heap}

/-- The code of an expression computes what it means to the statement it stands in. -/
theorem Yields.means (hy : Z.Yields p L) (hp : Placed site around ns) (hs : p.nodes ⊆ ns) :
    p.Means Z (mentioned (ns ++ contextNodes around.contexts)) L := by
  obtain ⟨d, d', hL, hP⟩ := hy
  exact hL.means ((hp.sub hs).speaks (mentioned_subset fun _ hm => List.mem_append_left _ (hs hm))) hP

/-- Nothing is done. -/
theorem Shows.idle (hshow : Z.Shows pc S h v) : Z.Outcome owner C S pc env h h v declares uses .normal :=
  ⟨.refl _ _ _, .falls .refl hshow rfl (.refl _ _ _)⟩

theorem Shows.label (hshow : Z.Shows pc S h v) (hc : Z.Has pc (.label l :: ops))
    (hroom : S.length ≤ Z.world.config.maxStack) :
    ∃ v', Steps v v' ∧ Z.Shows (pc + 1) S h v' ∧ Z.Quiet h h v v' := by
  obtain ⟨i, hi, hnext, -⟩ := hshow.tick hc hroom
  exact ⟨_, hnext _ (dispatch_skip (.inr ⟨l, hi⟩)), hshow.fetching, .refl _ _ _, .refl _ _ _, rfl⟩

/-- A statement that falls through goes on quietly to another place. -/
theorem Outcome.onward (ho : Z.Outcome owner C S pc env h h' v declares uses c)
    (hstep : ∀ {v₁}, Z.Shows pc S h' v₁ → ∃ v₂, Steps v₁ v₂ ∧ Z.Shows pc' S h' v₂ ∧ Z.Quiet h' h' v₁ v₂) :
    Z.Outcome owner C S pc' env h h' v declares uses c := by
  by_cases hc : c = .normal
  · subst hc
    obtain ⟨v₁, hs, hshow, he, hG⟩ := ho.machine.normal
    obtain ⟨v₂, hs', hshow', hq⟩ := hstep hshow
    exact ⟨ho.script, .falls (hs.trans hs') hshow' (hq.env.trans he) (hG.trans_same hq.machine.of_never)⟩
  · exact ho.elsewhere hc pc'

/-- One statement after another. -/
theorem Outcome.andThen {S' : List Entry} {ds ds' : List String} {pc₁ : Nat}
    (ho : Z.Outcome owner C S pc₁ env h h₁ v (among env ds) (only env) .normal)
    (hnext : ∀ {v₁}, Z.Shows pc₁ S h₁ v₁ → v₁.env = v.env → Grows Z.base (only env) v.heap v₁.heap →
      Z.Outcome owner C S' pc' env h₁ h' v₁ (among env ds') (only env) c)
    {all : List String} (hds : ds ⊆ all) (hds' : ds' ⊆ all) :
    Z.Outcome owner C S' pc' env h h' v (among env all) (only env) c := by
  obtain ⟨v₁, hs, hshow, he, hG⟩ := ho.machine.normal
  exact ((hnext hshow he hG).widen hds').after hs (ho.widen hds).script hG he

/-- What stands in front of the rest after a quiet computation. -/
theorem Fronts.quiet {ops' : List Opcode} {S' : List Entry} (hf : Z.Fronts site around ns ops pc S env h v)
    (hns : ns' ⊆ ns) (hc : Z.Has pc' ops') (hroom : S'.length + ops'.length ≤ Z.world.config.maxStack)
    (hshow : Z.Shows pc' S' h' v') (hq : Z.Quiet h h' v v') :
    Z.Fronts site around ns' ops' pc' S' env h' v' :=
  hf.sub hns hc hroom hshow (hf.sees.quiet hf.shown hq)

/-- What stands in front of the rest after statements in the current scope. -/
theorem Fronts.own {ops' : List Opcode} {S' : List Entry} (hf : Z.Fronts site around ns ops pc S env h v)
    (ho : Z.Owns site env h v) (hns : ns' ⊆ ns) (hc : Z.Has pc' ops')
    (hroom : S'.length + ops'.length ≤ Z.world.config.maxStack) (hshow : Z.Shows pc' S' h' v')
    (hg : Grows Z.base (among env ds) h h') (he : v'.env = v.env) (hG : Grows Z.base may v.heap v'.heap) :
    Z.Fronts site around ns' ops' pc' S' env h' v' :=
  hf.sub hns hc hroom hshow (hf.sees.own ho.same hf.shown hg hG he)

/-- A statement that begins with an expression gets its value. -/
theorem Fronts.computes {e : Expr} {A : Listing} {rest : List Opcode}
    (hf : Z.Fronts site around ns (A.opcodes ++ rest) pc S env h v) (hy : Z.Yields (.expr span e) A)
    (hs : e.nodes ⊆ ns) (hx : attempt (eval Z.world env e) h = some (.ok w, h')) :
    ∃ v', Steps v v' ∧ Z.Shows (pc + A.opcodes.length) (.value w :: S) h' v' ∧ Z.Quiet h h' v v' := by
  have hroom := hf.room
  rw [List.length_append] at hroom
  exact (hy.means hf.placed hs [] env).gets hx hf.code.left (by omega) hf.shown hf.sees nofun

/-- A statement that begins with an expression ends with its exception. -/
theorem Fronts.raises {e : Expr} {A : Listing} {rest : List Opcode}
    (hf : Z.Fronts site around ns (A.opcodes ++ rest) pc S env h v) (hy : Z.Yields (.expr span e) A)
    (hs : e.nodes ⊆ ns) (hx : attempt (eval Z.world env e) h = some (.error w, h')) :
    Z.Outcome owner C S pc' env h h' v declares uses (.throw w) := by
  have hroom := hf.room
  rw [List.length_append] at hroom
  exact ((hy.means hf.placed hs [] env).throws hx hf.code.left (by omega) hf.shown hf.sees nofun).of_never

theorem direct_nil : Z.Direct site env (.stmts · []) [] h .normal h := by
  rintro around L pc S v ⟨d, d', hL, -⟩ hf -
  cases hL with
  | stmtsNil => exact hf.shown.idle

theorem direct_cons {s : Stmt} {rest : List Stmt} (hs : Z.Direct site env (.stmt · s) s.nodes h .normal h₁)
    (hrest : Z.Direct site env (.stmts · rest) (stmtsNodes rest) h₁ c h') :
    Z.Direct site env (.stmts · (s :: rest)) (stmtsNodes (s :: rest)) h c h' := by
  rintro around L pc S v ⟨d, d', hL, hP⟩ hf ho
  cases hL with
  | @stmtsCons _ _ _ _ A d₁ B _ hA hB =>
    have hc := hf.code
    have hroom := hf.room
    simp only [opcodes_append, List.length_append] at hc hroom ⊢
    have hfirst := hs ⟨d, d₁, hA, hB.pool_prefix.trans hP⟩
      (hf.sub (List.subset_append_left _ _) hc.left (by omega) hf.shown hf.sees) ho
    refine hfirst.andThen (fun {v₁} hshow he hG => ?_) (declared_subset (List.subset_append_left _ _))
      (declared_subset (List.subset_append_right _ _))
    have hsecond := hrest ⟨d₁, d', hB, hP⟩
      (hf.own ho (List.subset_append_right _ _) hc.right (by omega) hshow hfirst.script he hG)
      (ho.grows hf.sees hfirst.script he)
    exact hsecond.to (by omega)

theorem direct_stop {s : Stmt} {rest : List Stmt} (hs : Z.Direct site env (.stmt · s) s.nodes h c h')
    (hc : c ≠ .normal) : Z.Direct site env (.stmts · (s :: rest)) (stmtsNodes (s :: rest)) h c h' := by
  rintro around L pc S v ⟨d, d', hL, hP⟩ hf ho
  cases hL with
  | @stmtsCons _ _ _ _ A d₁ B _ hA hB =>
    have hcode := hf.code
    have hroom := hf.room
    simp only [opcodes_append, List.length_append] at hcode hroom
    have hfirst := hs ⟨d, d₁, hA, hB.pool_prefix.trans hP⟩
      (hf.sub (List.subset_append_left _ _) hcode.left (by omega) hf.shown hf.sees) ho
    exact (hfirst.widen (declared_subset (List.subset_append_left _ _))).elsewhere hc _

theorem direct_absent : Z.Direct site env (.stmtOption · none) [] h .normal h := by
  rintro around L pc S v ⟨d, d', hL, -⟩ hf -
  cases hL with
  | stmtNone => exact hf.shown.idle

theorem direct_present {s : Stmt} (hs : Z.Direct site env (.stmt · s) s.nodes h c h') :
    Z.Direct site env (.stmtOption · (some s)) s.nodes h c h' := by
  rintro around L pc S v ⟨d, d', hL, hP⟩ hf ho
  cases hL with
  | stmtSome hL => exact hs ⟨d, d', hL, hP⟩ hf ho

/-- The boundary of a statement changes nothing. -/
theorem direct_stmt {k : StmtKind}
    (hk : Z.Direct site env (.stmtKind · span k) (.stmt k :: k.parts) h c h') :
    Z.Direct site env (.stmt · (.node span k)) (.stmt k :: k.parts) h c h' := by
  rintro around L pc S v ⟨d, d', hL, hP⟩ hf ho
  cases hL with
  | stmt hL =>
    rw [opcodes_stmt] at hf ⊢
    exact hk ⟨d, d', hL, hP⟩ hf ho

/-! ### Plain statements -/

theorem direct_expr {e : Expr} (hx : attempt (eval Z.world env e) h = some (.ok w, h')) :
    Z.Direct site env (.stmtKind · span (.expr e)) (.stmt (.expr e) :: e.nodes) h .normal h' := by
  rintro around L pc S v ⟨d, d', hL, hP⟩ hf ho
  cases hL with
  | @exprStmt _ _ _ _ A _ hA =>
    have hmeans := Yields.means ⟨d, d', hA, hP⟩ hf.placed (List.subset_cons_self _ _)
    have hc := hf.code
    have hroom := hf.room
    simp only [opcodes_append, opcodes_asm] at hc hroom ⊢
    obtain ⟨v', hs, hshow, hq⟩ := (hmeans [] env).discard.gets hx hc hroom hf.shown hf.sees nofun
    exact ⟨hq.script.of_never, .falls hs hshow hq.env hq.machine.of_never⟩

theorem direct_exprThrows {e : Expr} (hx : attempt (eval Z.world env e) h = some (.error w, h')) :
    Z.Direct site env (.stmtKind · span (.expr e)) (.stmt (.expr e) :: e.nodes) h (.throw w) h' := by
  rintro around L pc S v ⟨d, d', hL, hP⟩ hf ho
  cases hL with
  | exprStmt hA =>
    simp only [opcodes_append, opcodes_asm] at hf ⊢
    exact hf.raises ⟨d, d', hA, hP⟩ (List.subset_cons_self _ _) hx

/-- A throw statement raises its value. -/
theorem direct_throw {e : Expr} (hx : attempt (eval Z.world env e) h = some (.ok w, h')) :
    Z.Direct site env (.stmtKind · span (.throw e)) (.stmt (.throw e) :: e.nodes) h (.throw w) h' := by
  rintro around L pc S v ⟨d, d', hL, hP⟩ hf ho
  cases hL with
  | throw hA =>
    simp only [opcodes_append, opcodes_asm] at hf ⊢
    obtain ⟨v', hs, hshow, hq⟩ := hf.computes ⟨d, d', hA, hP⟩ (List.subset_cons_self _ _) hx
    have hroom := hf.room
    simp only [List.length_append, List.length_singleton] at hroom
    obtain ⟨i, hi, -, -, hraise⟩ := hshow.tick hf.code.right (by simp only [List.length_cons]; omega)
    have hfetch := hshow.fetching
    have hr := (hraise _ _ ((hfetch.dispatch i).trans (dispatch_throw hi))).raises
    exact ⟨hq.script.of_never, .throws (hs.raises hr) rfl (hfetch.fails S) rfl hq.machine.of_never⟩

theorem direct_throwThrows {e : Expr} (hx : attempt (eval Z.world env e) h = some (.error w, h')) :
    Z.Direct site env (.stmtKind · span (.throw e)) (.stmt (.throw e) :: e.nodes) h (.throw w) h' := by
  rintro around L pc S v ⟨d, d', hL, hP⟩ hf ho
  cases hL with
  | throw hA =>
    simp only [opcodes_append, opcodes_asm] at hf ⊢
    exact hf.raises ⟨d, d', hA, hP⟩ (List.subset_cons_self _ _) hx

/-- A declaration defines a name in the current scope, for the script and for the machine. -/
theorem Shows.declare {name : String} (hshow : Z.Shows pc S h v) (he : v.env = env)
    (hc : Z.Has pc (.declare name :: ops)) (hroom : S.length ≤ Z.world.config.maxStack) (hn : name ∈ ds) :
    ∃ v', Steps v v' ∧ Z.Shows (pc + 1) S (h.define env name .undefined) v' ∧ v'.env = v.env ∧
      Grows Z.base (among env ds) h (h.define env name .undefined) ∧
      Grows Z.base (only env) v.heap v'.heap ∧ v'.heap = v.heap.define env name .undefined := by
  obtain ⟨i, hi, hnext, -⟩ := hshow.tick hc hroom
  have hd := dispatch_declare (m := v.fetching) hi
  subst he
  refine ⟨_, hnext _ hd, hshow.fetching.moved (hshow.agrees.define v.env name .undefined) ?_, rfl,
    .define (.inl ⟨rfl, hn⟩), ?_, rfl⟩
  · show v.env.index < (v.heap.define v.env name .undefined).scopes.size
    rw [size_define]
    exact hshow.env
  · show Grows Z.base (only v.env) v.heap (v.heap.define v.env name .undefined)
    exact .define (.inl rfl)

theorem introduce_some {m : Machine} {name : String} {e : Expr} :
    attempt (introduce m env name (some e)) h =
      attempt (eval m env e >>= fun w => Meaning.assign env name w) (h.define env name .undefined) := rfl

/-- The code that gives a variable its first value. -/
theorem does_init {name : String} {e : Expr} {d d' : Draft} {A : Listing}
    (hf : Z.Fronts site around (.stmt (.var name (some e)) :: e.nodes) ops pc S env h v)
    (hA : Emits (.expr span e) d A d') (hP : d'.constants.toList <+: Z.pool.toList) :
    Z.Does (mentioned ((.stmt (.var name (some e)) :: e.nodes) ++ contextNodes around.contexts)) [] env
      (A.opcodes ++ [.store name]) [] (eval Z.world env e >>= fun w => Meaning.assign env name w) fun _ => [] := by
  have hmeans := Yields.means ⟨d, d', hA, hP⟩ hf.placed (List.subset_cons_self _ _)
  obtain ⟨hn, hr⟩ := (hf.placed.speaks (mentioned_subset (List.subset_append_left _ _))).head.2 name
    List.mem_cons_self
  exact (hmeans [] env).seq fun w => does_store hn hr

theorem direct_var {name : String} {init : Option Expr}
    (hx : attempt (introduce Z.world env name init) h = some (.ok (), h')) :
    Z.Direct site env (.stmtKind · span (.var name init)) (.stmt (.var name init) :: exprOptionNodes init) h
      .normal h' := by
  rintro around L pc S v ⟨d, d', hL, hP⟩ hf ho
  cases hL with
  | @var _ _ _ _ _ A _ hA =>
    have hc := hf.code
    have hroom := hf.room
    simp only [opcodes_append, opcodes_asm, List.length_append, List.length_singleton] at hc hroom ⊢
    have hdecl : name ∈ declared (.stmt (.var name init) :: exprOptionNodes init) :=
      List.mem_append_left _ (List.mem_singleton_self _)
    obtain ⟨v₁, hs, hshow, he, hg, hG, -⟩ := hf.shown.declare ho.same hc.left (by omega) hdecl
    cases hA with
    | exprThenNone =>
      cases hx
      exact ⟨hg, .falls hs hshow he hG⟩
    | exprThenSome hA =>
      have hd := does_init hf hA hP
      have hc := hc.right
      simp only [opcodes_append, opcodes_asm, List.length_append, List.length_singleton] at hc hroom ⊢
      rw [introduce_some] at hx
      obtain ⟨v₂, hs₂, hshow₂, hq⟩ := hd.gets hx hc
        (by simp only [List.length_append, List.length_singleton]; omega) hshow
        (hf.sees.own ho.same hf.shown hg hG he) nofun
      refine ⟨hg.trans_same hq.script.of_never, .falls (hs.trans hs₂) (hshow₂.to ?_) (hq.env.trans he)
        (hG.trans_same hq.machine.of_never)⟩
      simp only [List.length_append, List.length_singleton]
      omega

theorem direct_varThrows {name : String} {init : Option Expr}
    (hx : attempt (introduce Z.world env name init) h = some (.error w, h')) :
    Z.Direct site env (.stmtKind · span (.var name init)) (.stmt (.var name init) :: exprOptionNodes init) h
      (.throw w) h' := by
  rintro around L pc S v ⟨d, d', hL, hP⟩ hf ho
  cases hL with
  | @var _ _ _ _ _ A _ hA =>
    have hc := hf.code
    have hroom := hf.room
    simp only [opcodes_append, opcodes_asm, List.length_append, List.length_singleton] at hc hroom
    have hdecl : name ∈ declared (.stmt (.var name init) :: exprOptionNodes init) :=
      List.mem_append_left _ (List.mem_singleton_self _)
    obtain ⟨v₁, hs, hshow, he, hg, hG, -⟩ := hf.shown.declare ho.same hc.left (by omega) hdecl
    cases hA with
    | exprThenNone => cases hx
    | exprThenSome hA =>
      have hd := does_init hf hA hP
      have hc := hc.right
      simp only [opcodes_append, opcodes_asm, List.length_append, List.length_singleton] at hc hroom
      rw [introduce_some] at hx
      refine (hd.throws hx hc ?_ hshow (hf.sees.own ho.same hf.shown hg hG he) nofun).of_never.after hs hg hG he
      simp only [List.length_append, List.length_singleton]
      omega

theorem direct_function {name : String} {params : List String} {ss : List Stmt} :
    Z.Direct site env (.stmtKind · span (.function name params ss))
      (.stmt (.function name params ss) :: stmtsNodes ss) h .normal h := by
  rintro around L pc S v ⟨d, d', hL, -⟩ hf -
  cases hL with
  | functionStmt => exact hf.shown.idle

theorem direct_class {name : String} {methods : List Method} :
    Z.Direct site env (.stmtKind · span (.class name methods))
      (.stmt (.class name methods) :: methodsNodes methods) h .normal h := by
  rintro around L pc S v ⟨d, d', hL, -⟩ hf -
  cases hL with
  | repeatedClass => exact hf.shown.idle
  | «class» => exact hf.shown.idle

theorem direct_empty : Z.Direct site env (.stmtKind · span .empty) [.stmt .empty] h .normal h := by
  rintro around L pc S v ⟨d, d', hL, -⟩ hf -
  cases hL with
  | empty => exact hf.shown.idle

/-! ### Conditionals -/

/-- A test decides where to go on. -/
theorem Fronts.branches {test : Expr} {T : Listing} {op : Opcode} {rest : List Opcode} {target : Nat}
    {taken : Value → Bool} (hf : Z.Fronts site around ns (T.opcodes ++ op :: rest) pc S env h v)
    (hy : Z.Yields (.expr span test) T) (hs : test.nodes ⊆ ns)
    (hx : attempt (eval Z.world env test) h = some (.ok w, h')) (hj : Jumps l op taken)
    (ht : Z.world.program.jumpTarget? l = some target) :
    ∃ v', Steps v v' ∧ Z.Shows (if taken w then target else pc + T.opcodes.length + 1) S h' v' ∧
      Z.Quiet h h' v v' := by
  have hroom := hf.room
  simp only [List.length_append, List.length_cons] at hroom
  obtain ⟨v₁, hs₁, hshow₁, hq₁⟩ := hf.computes hy hs hx
  obtain ⟨v₂, hs₂, hshow₂, hq₂⟩ := hshow₁.branch hf.code.right hj (by omega) ht
  exact ⟨v₂, hs₁.trans hs₂, hshow₂, hq₁.trans hq₂⟩

theorem direct_yes {test : Expr} {yes : Stmt} {no : Option Stmt}
    (hx : attempt (eval Z.world env test) h = some (.ok w, h₁)) (hw : w.isTruthy = true)
    (hyes : Z.Direct site env (.stmt · yes) yes.nodes h₁ c h') (hnt : test.nodes ⊆ ns)
    (hns : yes.nodes ⊆ ns) : Z.Direct site env (.stmtKind · span (.cond test yes no)) ns h c h' := by
  rintro around L pc S v ⟨d, d', hL, hP⟩ hf ho
  cases hL with
  | @cond _ _ _ _ _ _ T d₁ Y d₂ N _ hT hY hN =>
    have hd₂ := hN.pool_prefix.trans hP
    have hroom := hf.room
    simp only [opcodes_append, opcodes_asm, List.append_assoc, List.cons_append, List.nil_append,
      List.length_append, List.length_cons, List.length_nil] at hf hroom ⊢
    have hrest := hf.code.right.tail
    have hend := hrest.right.tail.tail.right
    obtain ⟨v₁, hs, hshow, hq⟩ := hf.branches ⟨_, d₁, hT, hY.pool_prefix.trans hd₂⟩ hnt hx
      (.inr ⟨rfl, rfl⟩) hrest.right.tail.target
    rw [hw, Bool.not_true, if_neg Bool.false_ne_true] at hshow
    have hbody := hyes ⟨d₁, d₂, hY, hd₂⟩ (hf.quiet hns hrest.left (by omega) hshow hq)
      (ho.grows hf.sees hq.script hq.env)
    have hout := (hbody.widen (declared_subset hns)).after hs hq.script.of_never hq.machine.of_never hq.env
    refine hout.onward fun {v₂} hshow₂ => ?_
    obtain ⟨v₃, hs₃, hshow₃, hq₃⟩ := hshow₂.jump hrest.right (by omega) hend.target
    obtain ⟨v₄, hs₄, hshow₄, hq₄⟩ := hshow₃.label hend (by omega)
    exact ⟨v₄, hs₃.trans hs₄, hshow₄.to (by omega), hq₃.trans hq₄⟩

theorem direct_no {test : Expr} {yes : Stmt} {no : Option Stmt}
    (hx : attempt (eval Z.world env test) h = some (.ok w, h₁)) (hw : w.isTruthy = false)
    (hno : Z.Direct site env (.stmtOption · no) (stmtOptionNodes no) h₁ c h') (hnt : test.nodes ⊆ ns)
    (hns : stmtOptionNodes no ⊆ ns) : Z.Direct site env (.stmtKind · span (.cond test yes no)) ns h c h' := by
  rintro around L pc S v ⟨d, d', hL, hP⟩ hf ho
  cases hL with
  | @cond _ _ _ _ _ _ T d₁ Y d₂ N _ hT hY hN =>
    have hroom := hf.room
    simp only [opcodes_append, opcodes_asm, List.append_assoc, List.cons_append, List.nil_append,
      List.length_append, List.length_cons, List.length_nil] at hf hroom ⊢
    have hlabel := hf.code.right.tail.right.tail
    have hrest := hlabel.tail
    obtain ⟨v₁, hs, hshow, hq⟩ := hf.branches ⟨_, d₁, hT, hY.pool_prefix.trans (hN.pool_prefix.trans hP)⟩ hnt
      hx (.inr ⟨rfl, rfl⟩) hlabel.target
    rw [hw, Bool.not_false, if_pos rfl] at hshow
    obtain ⟨v₂, hs₂, hshow₂, hq₂⟩ := hshow.label hlabel (by omega)
    have hq := hq.trans hq₂
    have hbody := hno ⟨d₂, d', hN, hP⟩ (hf.quiet hns hrest.left (by omega) hshow₂ hq)
      (ho.grows hf.sees hq.script hq.env)
    have hout := (hbody.widen (declared_subset hns)).after (hs.trans hs₂) hq.script.of_never
      hq.machine.of_never hq.env
    refine hout.onward fun {v₃} hshow₃ => ?_
    obtain ⟨v₄, hs₄, hshow₄, hq₄⟩ := hshow₃.label hrest.right (by omega)
    exact ⟨v₄, hs₄, hshow₄.to (by omega), hq₄⟩

theorem direct_testThrows {test : Expr} {yes : Stmt} {no : Option Stmt}
    (hx : attempt (eval Z.world env test) h = some (.error w, h')) (hnt : test.nodes ⊆ ns) :
    Z.Direct site env (.stmtKind · span (.cond test yes no)) ns h (.throw w) h' := by
  rintro around L pc S v ⟨d, d', hL, hP⟩ hf ho
  cases hL with
  | cond hT hY hN =>
    simp only [opcodes_append, opcodes_asm, List.append_assoc] at hf ⊢
    exact hf.raises ⟨_, _, hT, hY.pool_prefix.trans (hN.pool_prefix.trans hP)⟩ hnt hx

/-! ### Exits -/

theorem Fronts.inner (hf : Z.Fronts site around ns ops pc S env h v) :
    Z.Sees (mentioned (contextNodes around.contexts)) env h v :=
  hf.sees.weaken (mentioned_subset (List.subset_append_right _ _))

theorem direct_break (hsite : site.inLoop = true) :
    Z.Direct site env (.stmtKind · span .break) ns h .break h := by
  rintro around L pc S v ⟨d, d', hL, hP⟩ hf ho
  cases hL with
  | strayBreak hn =>
    have hloop := hf.placed.loops hsite
    rw [hn] at hloop
    cases hloop
  | «break» hn hK =>
    have hroom := hf.room
    have hc := hf.code
    simp only [opcodes_append, opcodes_asm, List.length_append] at hc hroom
    exact ⟨.refl _ _ _, .leaves .refl (.break hn)
      ⟨⟨pc, span, _, ⟨d, d', hK, hP⟩, hc, hroom, hf.shown⟩, hf.inner, nofun⟩ (.refl _ _ _)⟩

theorem direct_continue (hsite : site.inLoop = true) :
    Z.Direct site env (.stmtKind · span .continue) ns h .continue h := by
  rintro around L pc S v ⟨d, d', hL, hP⟩ hf ho
  cases hL with
  | strayContinue hn =>
    have hloop := hf.placed.loops hsite
    rw [hn] at hloop
    cases hloop
  | «continue» hn hK =>
    have hroom := hf.room
    have hc := hf.code
    simp only [opcodes_append, opcodes_asm, List.length_append] at hc hroom
    exact ⟨.refl _ _ _, .leaves .refl (.continue hn)
      ⟨⟨pc, span, _, ⟨d, d', hK, hP⟩, hc, hroom, hf.shown⟩, hf.inner, nofun⟩ (.refl _ _ _)⟩

/-- The code of a returned value computes it. -/
theorem Fronts.does_returned {value : Option Expr} {V : Listing}
    (hf : Z.Fronts site around (.stmt (.ret value) :: exprOptionNodes value) ops pc S env h v)
    (hy : Z.Yields (.returned around.body span value) V) :
    Z.Does (mentioned ((.stmt (.ret value) :: exprOptionNodes value) ++ contextNodes around.contexts)) [] env
      V.opcodes [] (evalReturn Z.world env site.body value) fun a => [a] := by
  have hmeans := hy.means hf.placed (List.subset_cons_self _ _)
  rw [← hf.placed.body]
  refine hmeans (fun hnone _ => ?_) [] env
  subst hnone
  exact List.mem_append_left _ List.mem_cons_self

theorem direct_ret {value : Option Expr} (hsite : site.body ≠ .script)
    (hx : attempt (evalReturn Z.world env site.body value) h = some (.ok w, h')) :
    Z.Direct site env (.stmtKind · span (.ret value)) (.stmt (.ret value) :: exprOptionNodes value) h
      (.ret w) h' := by
  rintro around L pc S v ⟨d, d', hL, hP⟩ hf ho
  have hbody : around.body ≠ .script := hf.placed.body ▸ hsite
  cases hL with
  | strayReturn hs => exact absurd hs hbody
  | @ret _ _ _ _ V _ _ hC hV =>
    have hd := hf.does_returned ⟨d, d', hV, hP⟩
    have hroom := hf.room
    have hc := hf.code
    simp only [opcodes_append, opcodes_asm, List.length_append, List.length_singleton] at hc hroom
    obtain ⟨v', hs, hshow, hq⟩ := hd.gets hx hc.left (by omega) hf.shown hf.sees nofun
    exact ⟨hq.script.of_never, .gives hbody hC hs hc.right hshow (by omega) hq.machine.of_never⟩
  | @retLeaving _ _ _ _ V d₁ K _ _ hC hV hK =>
    have hd := hf.does_returned ⟨d, d₁, hV, hK.pool_prefix.trans hP⟩
    have hroom := hf.room
    have hc := hf.code
    simp only [opcodes_append, opcodes_asm, opcodes_keepAs, List.append_assoc, List.length_append,
      List.length_cons, List.length_nil] at hc hroom
    obtain ⟨v₁, hs, hshow, hq⟩ := hd.gets hx hc.left (by omega) hf.shown hf.sees nofun
    have hpushed : Z.Shows (pc + V.opcodes.length) (.value w :: S) h' v₁ := hshow
    have hsees₁ := hf.sees.quiet hf.shown hq
    have henv : v₁.env = env := hq.env.trans ho.same
    have hp : Private Z.base h' v₁.env := by
      rw [henv]
      exact hq.script.private hf.sees.opened (ho.hides hsite)
    -- the value is kept in the current scope while the exit is on its way
    obtain ⟨v₂, hs₂, hshow₂, he₂, hG₂, hlookup⟩ := hpushed.keep hc.right (by omega) (by decide) hp
    have hsees₂ : Z.Sees (mentioned (contextNodes around.contexts)) env h' v₂ :=
      (hsees₁.grows hpushed.agrees.size hpushed.env (.refl _ never _) hG₂ he₂ fun _ _ _ _ hf => hf).weaken
        (mentioned_subset (List.subset_append_right _ _))
    have hknows : Z.Knows [(returnSlot, w)] v₂ := by
      intro b hb
      rw [List.mem_singleton.1 hb]
      refine ⟨(by decide : reserved returnSlot = true), hshow₂.agrees.private (by rw [he₂]; exact hp), ?_⟩
      rw [he₂, hlookup, if_pos rfl]
    rw [henv] at hG₂
    refine ⟨hq.script.of_never, .leaves (hs.trans hs₂) (.ret hbody)
      ⟨⟨_, span, K, ⟨d₁, d', hK, hP⟩, hc.right.right, by simp only [List.length_cons, List.length_nil]; omega,
        hshow₂⟩, hsees₂, hknows⟩ (hq.machine.of_never.trans_same hG₂)⟩

theorem direct_retThrows {value : Option Expr} (hsite : site.body ≠ .script)
    (hx : attempt (evalReturn Z.world env site.body value) h = some (.error w, h')) :
    Z.Direct site env (.stmtKind · span (.ret value)) (.stmt (.ret value) :: exprOptionNodes value) h
      (.throw w) h' := by
  rintro around L pc S v ⟨d, d', hL, hP⟩ hf ho
  have hroom := hf.room
  have hc := hf.code
  cases hL with
  | strayReturn hs => exact absurd hs (hf.placed.body ▸ hsite)
  | ret _ hC hV =>
    simp only [opcodes_append, List.length_append] at hc hroom
    exact ((hf.does_returned ⟨d, d', hV, hP⟩).throws hx hc.left (by omega) hf.shown hf.sees nofun).of_never
  | retLeaving _ hC hV hK =>
    simp only [opcodes_append, List.append_assoc, List.length_append] at hc hroom
    exact ((hf.does_returned ⟨_, _, hV, hK.pool_prefix.trans hP⟩).throws hx hc.left (by omega) hf.shown hf.sees
      nofun).of_never

/-! ### Scopes -/

variable (Z)

/-- Statements in a scope of their own do what leads to a completion. -/
def Scoped (site : Site) (env : ScopeId) (ss : List Stmt) (h : Heap) (c : Completion) (h' : Heap) : Prop :=
  ∀ {around span K pc S v}, Z.Yields (.stmts around ss) K →
    Z.Fronts site around (stmtsNodes ss) (Listing.within span K).opcodes pc S env h v →
    Z.Outcome around.body around.contexts S (pc + (Listing.within span K).opcodes.length) env h h' v never never c

/-- A handler that finds a value on the stack does what leads to a completion. -/
def Handles (site : Site) (env : ScopeId) (clause : Option Handler) (w : Value) (h : Heap)
    (c : Completion) (h' : Heap) : Prop :=
  ∀ {around span L pc S v}, Z.Yields (.handler around span clause) L →
    Z.Fronts site around (handlerNodes clause) L.opcodes pc (.value w :: S) env h v →
    (∀ name ∈ handlerParam clause, name ∉ mentioned (contextNodes around.contexts)) →
    Z.Outcome around.body around.contexts S (pc + L.opcodes.length) env h h' v never never c

/-- A final part does what leads to a completion. -/
def Finishes (site : Site) (env : ScopeId) (final : Option (List Stmt)) (h : Heap) (c : Completion)
    (h' : Heap) : Prop :=
  ∀ {around span L pc S v}, Z.Yields (.final around span final) L →
    Z.Fronts site around (finalNodes final) L.opcodes pc S env h v →
    Z.Outcome around.body around.contexts S (pc + L.opcodes.length) env h h' v never never c

variable {Z} {ss : List Stmt}

/-- What stands in front of the code inside a scope that was opened. -/
theorem Fronts.enter {ops' : List Opcode} (hf : Z.Fronts site around ns ops pc S env h v)
    (hc : Z.Has pc (.enterScope :: ops')) (hroom : S.length + (ops'.length + 1) ≤ Z.world.config.maxStack) :
    ∃ v', Steps v v' ∧ v'.env = (h.newChild env).1 ∧ v'.heap = (v.heap.newChild v.env).2 ∧
      Z.Fronts site around ns ops' (pc + 1) S (h.newChild env).1 (h.newChild env).2 v' ∧
      Z.Owns site (h.newChild env).1 (h.newChild env).2 v' := by
  obtain ⟨v', hs, hshow, he, hH, hsees, hp⟩ := hf.shown.enter hf.sees hc (by omega)
  exact ⟨v', hs, he, hH, ⟨hf.placed, hc.tail, by omega, hshow, hsees⟩, he, fun _ => hp⟩

theorem scoped_of_direct (hss : Z.Direct site (h.newChild env).1 (.stmts · ss) (stmtsNodes ss)
    (h.newChild env).2 c h') : Z.Scoped site env ss h c h' := by
  intro around span K pc S v hy hf
  have hc := hf.code
  have hroom := hf.room
  simp only [opcodes_within, List.cons_append, List.nil_append, List.length_cons, List.length_append,
    List.length_nil] at hc hroom ⊢
  obtain ⟨v₁, hs, he, hH, hf₁, ho₁⟩ := hf.enter hc (by simp only [List.length_append, List.length_cons]; omega)
  have hbody := hss hy (hf₁.sub (fun _ hm => hm) hc.tail.left (by omega) hf₁.shown hf₁.sees) ho₁
  have hclosed := hbody.machine.close hf.shown hf.sees hs he (by rw [hH]; exact .refl _ _ _) hbody.script
    hc.tail.right (by omega) hf.placed.apart
  exact hclosed.to (by omega)

theorem direct_block (hss : Z.Scoped site env ss h c h') :
    Z.Direct site env (.stmtKind · span (.block ss)) (.stmt (.block ss) :: stmtsNodes ss) h c h' := by
  rintro around L pc S v ⟨d, d', hL, hP⟩ hf ho
  cases hL with
  | block hK =>
    have hinside := hf.sub (List.subset_cons_self _ _) hf.code hf.room hf.shown hf.sees
    exact (hss ⟨d, d', hK, hP⟩ hinside).of_never

theorem finishes_none : Z.Finishes site env none h .normal h := by
  rintro around span L pc S v ⟨d, d', hL, -⟩ hf
  cases hL with
  | finalNone => exact hf.shown.idle

theorem finishes_some (hss : Z.Scoped site env ss h c h') : Z.Finishes site env (some ss) h c h' := by
  rintro around span L pc S v ⟨d, d', hL, hP⟩ hf
  cases hL with
  | finalSome hK => exact hss ⟨d, d', hK, hP⟩ hf

/-- Without a handler the value is thrown again. -/
theorem handles_none : Z.Handles site env none w h (.throw w) h := by
  rintro around span L pc S v ⟨d, d', hL, -⟩ hf -
  cases hL with
  | noHandler =>
    have hroom := hf.room
    rw [opcodes_asm] at hroom
    have hc := hf.code
    rw [opcodes_asm] at hc
    obtain ⟨i, hi, -, -, hraise⟩ := hf.shown.tick hc (by omega)
    have hfetch := hf.shown.fetching
    have hr := (hraise _ _ ((hfetch.dispatch i).trans (dispatch_throw hi))).raises
    exact ⟨.refl _ _ _, .throws hr rfl (hfetch.fails S) rfl (.refl _ _ _)⟩

theorem handles_plain (hss : Z.Scoped site env ss h c h') :
    Z.Handles site env (some (.clause none ss)) w h c h' := by
  rintro around span L pc S v ⟨d, d', hL, hP⟩ hf -
  cases hL with
  | @handler _ _ _ _ K _ hK =>
    have hroom := hf.room
    have hc := hf.code
    simp only [opcodes_append, opcodes_asm, List.cons_append, List.nil_append, List.length_cons] at hc hroom ⊢
    obtain ⟨v₁, hs, hshow, he, hH⟩ := hf.shown.drop hc (by omega) (.value w)
    have hbody := hss ⟨d, d', hK, hP⟩
      (hf.sub (fun _ hm => hm) hc.tail (by omega) hshow (hf.sees.same he hH))
    exact (hbody.after hs (.refl _ _ _) (by rw [hH]; exact .refl _ _ _) he).to (by omega)

/-- A value is bound to a name that the current scope declares. -/
theorem Shows.bind {name : String} (hshow : Z.Shows pc (.value w :: S) h v) (he : v.env = env)
    (hc : Z.Has pc (.declare name :: .store name :: ops)) (hroom : S.length + 1 ≤ Z.world.config.maxStack)
    (hn : name ∈ ds) :
    ∃ v', Steps v v' ∧ Z.Shows (pc + 2) S (h.define env name w) v' ∧ v'.env = v.env ∧
      Grows Z.base (among env ds) h (h.define env name w) ∧ Grows Z.base (only env) v.heap v'.heap := by
  obtain ⟨v₁, hs₁, hshow₁, he₁, -, hG₁, hH₁⟩ := hshow.declare he hc hroom hn
  obtain ⟨i, hi, hnext, -⟩ := hshow₁.tick hc.tail hroom
  have henv : v₁.env = env := he₁.trans he
  have hslot : v₁.fetching.heap.slot v₁.fetching.env name = .ok env := by
    show v₁.heap.slot v₁.env name = .ok env
    rw [hH₁, henv]
    exact slot_define (he ▸ hshow.env)
  have hd := (hshow₁.fetching.dispatch i).trans (dispatch_store hi)
  rw [hslot] at hd
  have hagrees := hshow₁.agrees.define env name w
  rw [define_define] at hagrees
  refine ⟨_, hs₁.trans (hnext _ hd), ?_, he₁, .define (.inl ⟨rfl, hn⟩), hG₁.trans_same ?_⟩
  · refine (hshow₁.fetching.moved hagrees ?_).onStack S
    rw [size_define]
    exact hshow₁.env
  · show Grows Z.base (only env) v₁.heap (v₁.heap.define env name w)
    exact .define (.inl rfl)

theorem handles_param {param : String} (hss : Z.Direct site (h.newChild env).1 (.stmts · ss) (stmtsNodes ss)
    ((h.newChild env).2.define (h.newChild env).1 param w) c h') :
    Z.Handles site env (some (.clause (some param) ss)) w h c h' := by
  rintro around span L pc S v ⟨d, d', hL, hP⟩ hf hparam
  cases hL with
  | @handlerParam _ _ _ _ _ K _ hK =>
    have hroom := hf.room
    have hc := hf.code
    simp only [opcodes_within, opcodes_append, opcodes_keepAs, List.cons_append, List.nil_append, List.length_cons,
      List.length_append, List.length_nil] at hc hroom ⊢
    obtain ⟨v₁, hs, he, hH, hf₁, ho₁⟩ := hf.enter hc
      (by simp only [List.length_append, List.length_cons, List.length_nil]; omega)
    have hmem : param ∈ param :: declared (stmtsNodes ss) := List.mem_cons_self
    obtain ⟨v₂, hs₂, hshow₂, he₂, hg₂, hG₂⟩ := hf₁.shown.bind ho₁.same hc.tail (by omega) hmem
    have hbody := hss ⟨d, d', hK, hP⟩
      (hf₁.own ho₁ (fun _ hm => hm) (hc.tail.tail.tail.left.to (by omega)) (by omega) hshow₂ hg₂ he₂ hG₂)
      (ho₁.grows hf₁.sees hg₂ he₂)
    have hscript : Grows Z.base (among (h.newChild env).1 (param :: declared (stmtsNodes ss)))
        (h.newChild env).2 h' :=
      hg₂.trans_same (hbody.widen fun _ hm => List.mem_cons_of_mem _ hm).script
    have hapart : ∀ name ∈ param :: declared (stmtsNodes ss), name ∉ mentioned (contextNodes around.contexts) := by
      intro name hname
      rcases List.mem_cons.1 hname with rfl | hname
      · exact hparam name (List.mem_singleton_self _)
      · exact hf.placed.apart name hname
    have hclosed := hbody.machine.close hf.shown hf.sees (hs.trans hs₂) (he₂.trans he) (by rw [← hH]; exact hG₂)
      hscript (hc.tail.tail.tail.right.to (by omega)) (by omega) hapart
    exact hclosed.to (by omega)

end Stage

end ScriptMachine
