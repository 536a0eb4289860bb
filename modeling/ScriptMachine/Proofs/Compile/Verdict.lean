import ScriptMachine.Proofs.Compile.Labels
import ScriptMachine.Proofs.Script.WellFormed

/-!
# Verdict — what the generator objects to

The generator walks through a tree with a draft in hand, and through some final parts several times. A
`Verdict` compares the drafts before and after: there are more problems unless every node is sound, every
exit has something to leave and no class is declared again; and if there are no more, every body of the
tree has its place among those that were added. Verdicts of parts put together are the verdict of the
whole, so one rule of the generator after the other gives that of a script: it compiles exactly if nobody
objects (`Script.accepted_iff`).
-/

namespace ScriptMachine.Compile

open Listing

/-- The names of the classes that are declared so far. -/
def Draft.classNames (d : Draft) : List String := d.classes.map Prod.fst

/-- Bodies and constants stay in their places. -/
structure Stays (d d' : Draft) : Prop where
  pool : d.constants.toList <+: d'.constants.toList
  size : d.bodies.size ≤ d'.bodies.size
  kept : ∀ i < d.bodies.size, d'.bodies[i]? = d.bodies[i]?

/-- The bodies of nodes are among those that were added. -/
def Bodied (ns : List Node) (d d' : Draft) : Prop :=
  ∀ n ∈ ns, ∀ name params kind ss, Bears n name params kind ss →
    ∃ i b e, d.bodies.size ≤ i ∧ d'.bodies[i]? = some b ∧ b.params = params ∧
      Bears n b.name b.params kind ss ∧ Compiled (fun _ => True) kind ss e b ∧
      e.constants.toList <+: d'.constants.toList

/-- What the generator finds in nodes whose exits are `placed` and which declare some classes. Within
`calm` surroundings it finds nothing else to object to. -/
structure Verdict (calm : Prop) (placed : Bool) (ns : List Node) (names : List String) (d d' : Draft) :
    Prop where
  stays : Stays d d'
  more : d.problems.length ≤ d'.problems.length
  kept : d.classNames ⊆ d'.classNames
  sound : d'.problems.length = d.problems.length → placed = true ∧ Every (·.sound) ns ∧ names.Nodup ∧
    names.Disjoint d.classNames ∧ names ⊆ d'.classNames ∧ Bodied ns d d'
  complete : calm → placed = true → Every (·.sound) ns → names.Nodup → names.Disjoint d.classNames →
    d'.problems.length = d.problems.length ∧ d'.classNames ⊆ names ++ d.classNames

variable {calm calm' : Prop} {exits exits' : Bool} {ns ns' : List Node} {names names' : List String}
  {d d₁ d' : Draft}

/-! ### Bodies that were added -/

theorem Stays.of_eq (hpool : d.constants.toList <+: d'.constants.toList) (hb : d'.bodies = d.bodies) :
    Stays d d' := ⟨hpool, Nat.le_of_eq (by rw [hb]), fun _ _ => by rw [hb]⟩

theorem Stays.trans (h : Stays d d₁) (h' : Stays d₁ d') : Stays d d' where
  pool := h.pool.trans h'.pool
  size := Nat.le_trans h.size h'.size
  kept i hi := by rw [h'.kept i (Nat.lt_of_lt_of_le hi h.size), h.kept i hi]

/-- A body that is opened and closed leaves those before it alone. -/
theorem Stays.body {name : String} {params : List String} {code : Code}
    (h : Stays (openBody name params d).2 d₁) : Stays d (closeBody d.bodies.size code d₁).2 := by
  have hopen : (openBody name params d).2.bodies.size = d.bodies.size + 1 := by simp [openBody]
  have hsize := h.size
  refine ⟨h.pool, ?_, fun i hi => ?_⟩
  · simp only [closeBody, Array.size_modify]
    omega
  · simp only [closeBody, Array.getElem?_modify]
    rw [if_neg (by omega), h.kept i (by omega)]
    simp only [openBody, Array.getElem?_push]
    rw [if_neg (by omega)]

theorem Bodied.nil : Bodied [] d d' := fun _ hn => nomatch hn

theorem Bodied.before (hb : Bodied ns d d₁) (hf : Stays d₁ d') : Bodied ns d d' := by
  intro n hn name params kind ss hbears
  obtain ⟨i, b, e, hi, hib, hp, hbears', hc, he⟩ := hb n hn name params kind ss hbears
  have hlt : i < d₁.bodies.size := (Array.getElem?_eq_some_iff.1 hib).1
  exact ⟨i, b, e, hi, (hf.kept i hlt).trans hib, hp, hbears', hc, he.trans hf.pool⟩

theorem Bodied.behind (hb : Bodied ns d₁ d') (hf : Stays d d₁) : Bodied ns d d' := by
  intro n hn name params kind ss hbears
  obtain ⟨i, b, e, hi, hrest⟩ := hb n hn name params kind ss hbears
  exact ⟨i, b, e, Nat.le_trans hf.size hi, hrest⟩

theorem Bodied.append (ha : Bodied ns d d') (hb : Bodied ns' d d') : Bodied (ns ++ ns') d d' := by
  intro n hn
  rcases List.mem_append.1 hn with hn | hn
  · exact ha n hn
  · exact hb n hn

/-- A body that was compiled is found. -/
theorem Emits.found {span : Span} {name : String} {params : List String} {kind : BodyKind} {ss : List Stmt}
    {L : Listing} {n : Node} (h : Emits (.body span name params kind ss) d L d')
    (hb : Bears n name params kind ss) :
    ∃ i b e, d.bodies.size ≤ i ∧ d'.bodies[i]? = some b ∧ b.params = params ∧
      Bears n b.name b.params kind ss ∧ Compiled (fun _ => True) kind ss e b ∧
      e.constants.toList <+: d'.constants.toList := by
  cases h with
  | @body _ _ _ _ _ _ K d₁ F d₂ hK hF =>
    have hfills : Fills (fun _ => True) (openBody name params d).2 d₂ :=
      (hK.advance advances_fills (fun _ _ => trivial) trivial).trans
        (hF.advance advances_fills (fun _ _ => trivial) trivial)
    have hopen : (openBody name params d).2.bodies[d.bodies.size]? = some { name, params } := by
      simp [openBody]
    have hlt : d.bodies.size < (openBody name params d).2.bodies.size := by simp [openBody]
    refine ⟨d.bodies.size, { name, params, code := F.code }, d₂, Nat.le_refl _, ?_, rfl, hb,
      ⟨⟨n, trivial, hb⟩, fun _ _ => trivial, span, _, K, d₁, F, hK, hF, rfl⟩, List.prefix_refl _⟩
    simp only [closeBody, Array.getElem?_modify, if_true, hfills.kept _ hlt, hopen, Option.map_some]

/-! ### Verdicts put together -/

namespace Verdict

/-- Nothing that matters was done. -/
theorem idle (hc : d.constants.toList <+: d'.constants.toList) (hb : d'.bodies = d.bodies)
    (hp : d'.problems = d.problems) (hn : d'.classes = d.classes) : Verdict calm true [] [] d d' where
  stays := .of_eq hc hb
  more := Nat.le_of_eq (by rw [hp])
  kept := by rw [Draft.classNames, Draft.classNames, hn]; exact List.Subset.refl _
  sound _ := ⟨rfl, .nil, List.nodup_nil, List.disjoint_nil_left _, List.nil_subset _, .nil⟩
  complete _ _ _ _ _ := ⟨by rw [hp], by rw [Draft.classNames, hn]; exact List.subset_append_right _ _⟩

theorem refl (d : Draft) : Verdict calm true [] [] d d := idle (List.prefix_refl _) rfl rfl rfl

/-- One part after another. -/
theorem seq (h : Verdict calm exits ns names d d₁) (h' : Verdict calm exits' ns' names' d₁ d') :
    Verdict calm (exits && exits') (ns ++ ns') (names ++ names') d d' where
  stays := h.stays.trans h'.stays
  more := Nat.le_trans h.more h'.more
  kept := List.Subset.trans h.kept h'.kept
  sound he := by
    have hmore := h.more
    have hmore' := h'.more
    obtain ⟨hp, hs, hn, hd, hk, hb⟩ := h.sound (by omega)
    obtain ⟨hp', hs', hn', hd', hk', hb'⟩ := h'.sound (by omega)
    refine ⟨by rw [hp, hp']; rfl, hs.append hs', ?_, ?_, ?_, (hb.before h'.stays).append (hb'.behind h.stays)⟩
    · exact List.Nodup.append hn hn' fun _ ha ha' => hd' ha' (hk ha)
    · exact List.disjoint_append_left.2 ⟨hd, fun _ ha ha' => hd' ha (h.kept ha')⟩
    · exact List.append_subset.2 ⟨List.Subset.trans hk h'.kept, hk'⟩
  complete hc hp hs hn hd := by
    obtain ⟨hp, hp'⟩ := (Bool.and_eq_true _ _).mp hp
    obtain ⟨hn, hn', hnn⟩ := List.nodup_append'.1 hn
    obtain ⟨hd, hd'⟩ := List.disjoint_append_left.1 hd
    obtain ⟨he, hk⟩ := h.complete hc hp hs.left hn hd
    have hd₁ : names'.Disjoint d₁.classNames := fun _ ha ha' =>
      (List.mem_append.1 (hk ha')).elim (fun hname => hnn hname ha) fun hold => hd' ha hold
    obtain ⟨he', hk'⟩ := h'.complete hc hp' hs.right hn' hd₁
    refine ⟨he'.trans he, fun _ ha => ?_⟩
    rcases List.mem_append.1 (hk' ha) with ha | ha
    · exact List.mem_append_left _ (List.mem_append_right _ ha)
    · rcases List.mem_append.1 (hk ha) with ha | ha
      · exact List.mem_append_left _ (List.mem_append_left _ ha)
      · exact List.mem_append_right _ ha

/-- The order of parts does not matter, and calm surroundings may be calmer. -/
theorem congr (h : Verdict calm exits ns names d d') (hc : calm' → calm) (hp : exits = exits')
    (hs : ∀ n, n ∈ ns' ↔ n ∈ ns) (hn : names'.Perm names) : Verdict calm' exits' ns' names' d d' where
  stays := h.stays
  more := h.more
  kept := h.kept
  sound he := by
    obtain ⟨hp', hs', hn', hd, hk, hb⟩ := h.sound he
    exact ⟨hp ▸ hp', fun n hmem => hs' n ((hs n).1 hmem), hn.nodup_iff.2 hn',
      fun _ ha => hd (hn.mem_iff.1 ha), fun _ ha => hk (hn.mem_iff.1 ha), fun n hmem => hb n ((hs n).1 hmem)⟩
  complete hc' hp' hs' hn' hd := by
    obtain ⟨he, hk⟩ := h.complete (hc hc') (hp ▸ hp') (fun n hmem => hs' n ((hs n).2 hmem))
      (hn.nodup_iff.1 hn') fun _ ha => hd (hn.mem_iff.2 ha)
    refine ⟨he, fun _ ha => ?_⟩
    rcases List.mem_append.1 (hk ha) with ha | ha
    · exact List.mem_append_left _ (hn.mem_iff.2 ha)
    · exact List.mem_append_right _ ha

/-- What does not depend on the surroundings. -/
theorem any (h : Verdict True exits ns names d d') : Verdict calm exits ns names d d' :=
  h.congr (fun _ => trivial) rfl (fun _ => .rfl) (.refl _)

theorem swap (h : Verdict calm exits (ns ++ ns') (names ++ names') d d') :
    Verdict calm exits (ns' ++ ns) (names' ++ names) d d' :=
  h.congr id rfl (fun n => by rw [List.mem_append, List.mem_append, or_comm]) List.perm_append_comm

/-- What comes first may be left out if it does not matter. -/
theorem after (h : Verdict calm exits ns names d₁ d') (hc : d₁.constants = d.constants)
    (hb : d₁.bodies = d.bodies) (hp : d₁.problems = d.problems) (hn : d₁.classes = d.classes) :
    Verdict calm exits ns names d d' :=
  (idle (hc ▸ List.prefix_refl _) hb hp hn).seq h

/-- What comes last may be left out if it does not matter. -/
theorem followed (h : Verdict calm exits ns names d d₁) (h' : Verdict calm true [] [] d₁ d') :
    Verdict calm exits ns names d d' :=
  (h.seq h').congr id (Bool.and_true _) (fun n => by rw [List.append_nil]) (by rw [List.append_nil])

/-- A body is opened and closed. -/
theorem body {name : String} {params : List String} {code : Code}
    (h : Verdict calm exits ns names (openBody name params d).2 d₁) :
    Verdict calm exits ns names d (closeBody d.bodies.size code d₁).2 where
  stays := h.stays.body
  more := h.more
  kept := h.kept
  sound he := by
    obtain ⟨hp, hs, hn, hd, hk, hb⟩ := h.sound he
    refine ⟨hp, hs, hn, hd, hk, fun n hmem name' params' kind ss hbears => ?_⟩
    obtain ⟨i, b, e, hi, hib, hrest⟩ := hb n hmem name' params' kind ss hbears
    simp only [openBody, Array.size_push] at hi
    refine ⟨i, b, e, by omega, ?_, hrest⟩
    simp only [closeBody, Array.getElem?_modify]
    rw [if_neg (by omega), hib]
  complete := h.complete

/-- A node that is sound and has no body. -/
theorem node {n : Node} (h : Verdict calm exits ns names d d') (hn : n.sound = true := by rfl)
    (hb : ∀ name params kind ss, ¬ Bears n name params kind ss := by nofun) :
    Verdict calm exits (n :: ns) names d d' where
  stays := h.stays
  more := h.more
  kept := h.kept
  sound he := by
    obtain ⟨hp, hs, hnames, hd, hk, hbodied⟩ := h.sound he
    refine ⟨hp, ?_, hnames, hd, hk, ?_⟩
    · rintro m (_ | ⟨_, hm⟩)
      · exact hn
      · exact hs m hm
    · rintro m (_ | ⟨_, hm⟩) name params kind ss hbears
      · exact absurd hbears (hb _ _ _ _)
      · exact hbodied m hm name params kind ss hbears
  complete hc hp hs := h.complete hc hp hs.tail

/-- A node with bodies that are found, whose exits were looked at. -/
theorem owner {n : Node} (h : Verdict True exits ns names d d') (hn : n.sound = exits)
    (hb : ∀ name params kind ss, Bears n name params kind ss →
      ∃ i b e, d.bodies.size ≤ i ∧ d'.bodies[i]? = some b ∧ b.params = params ∧
        Bears n b.name b.params kind ss ∧ Compiled (fun _ => True) kind ss e b ∧
        e.constants.toList <+: d'.constants.toList) :
    Verdict calm true (n :: ns) names d d' where
  stays := h.stays
  more := h.more
  kept := h.kept
  sound he := by
    obtain ⟨hp, hs, hnames, hd, hk, hbodied⟩ := h.sound he
    refine ⟨rfl, ?_, hnames, hd, hk, ?_⟩
    · rintro m (_ | ⟨_, hm⟩)
      · exact hn.trans hp
      · exact hs m hm
    · rintro m (_ | ⟨_, hm⟩) name params kind ss hbears
      · exact hb name params kind ss hbears
      · exact hbodied m hm name params kind ss hbears
  complete _ _ hs := h.complete trivial (hn ▸ hs.head) hs.tail

/-- Something was found to be wrong, and it is. -/
theorem refuse (hf : Stays d d') (hp : d.problems.length < d'.problems.length)
    (hk : d.classNames ⊆ d'.classNames)
    (hwrong : exits = true → Every (·.sound) ns → ¬ names.Disjoint d.classNames) :
    Verdict calm exits ns names d d' where
  stays := hf
  more := Nat.le_of_lt hp
  kept := hk
  sound he := absurd he (Nat.ne_of_gt hp)
  complete _ hplaced hs _ hd := absurd hd (hwrong hplaced hs)

end Verdict

/-! ### Pieces -/

/-- Whether there is a body around. -/
def Surroundings.inBody (s : Surroundings) : Bool := s.body != .script

/-- Whether there is a loop around. -/
def Surroundings.inLoop (s : Surroundings) : Bool := (innermostLoop? s.contexts).isSome

/-- The nodes of a piece without those of the final parts around it. -/
def Piece.own : Piece → List Node
  | .stmt _ s => s.nodes
  | .stmtOption _ s => stmtOptionNodes s
  | .stmts _ ss => stmtsNodes ss
  | .stmtKind _ _ k => .stmt k :: k.parts
  | .handler _ _ clause => handlerNodes clause
  | .final _ _ part => finalNodes part
  | .leave _ _ _ _ => []
  | p => p.nodes

/-- Whether the exits of a piece have something to leave. -/
def Piece.placed : Piece → Bool
  | .body _ _ _ owner ss => stmtsPlaced (owner != .script) false ss
  | .methods _ _ ms _ => methodsPlaced ms
  | .stmt around s => s.placed around.inBody around.inLoop
  | .stmtOption around s => stmtOptionPlaced around.inBody around.inLoop s
  | .stmts around ss => stmtsPlaced around.inBody around.inLoop ss
  | .stmtKind around _ k => k.placed around.inBody around.inLoop
  | .handler around _ clause => handlerPlaced around.inBody around.inLoop clause
  | .final around _ part => finalPlaced around.inBody around.inLoop part
  | _ => true

/-- The classes that a piece declares. -/
def Piece.classes : Piece → List String
  | .literal _ _ | .default _ _ | .finish _ _ _ | .leave _ _ _ _ => []
  | .expr _ e | .callee _ _ e => e.classes
  | .kind _ k | .operands _ k _ | .save _ k => k.classes
  | .exprs _ es => exprsClasses es
  | .fields _ fs => fieldsClasses fs
  | .exprThen _ _ e | .returned _ _ e => exprOptionClasses e
  | .body _ _ _ _ ss | .stmts _ ss => stmtsClasses ss
  | .methods _ _ ms _ => methodsClasses ms
  | .stmt _ s => s.classes
  | .stmtOption _ s => stmtOptionClasses s
  | .stmtKind _ _ k => k.classes
  | .handler _ _ clause => handlerClasses clause
  | .final _ _ part => finalClasses part

/-- The final parts around a statement can be compiled again: nothing is wrong with them, and they declare
no class. -/
def Calm (owner : BodyKind) : List Context → Prop
  | [] => True
  | .region final :: rest =>
    (finalPlaced (owner != .script) (innermostLoop? rest).isSome final = true ∧
      Every (·.sound) (finalNodes final) ∧ finalClasses final = []) ∧ Calm owner rest
  | .loop _ _ :: rest => Calm owner rest
  | .pendingThrow :: rest => Calm owner rest

/-- The surroundings of a piece are calm. -/
def Piece.Calm : Piece → Prop
  | .stmt around _ | .stmtOption around _ | .stmts around _ | .stmtKind around _ _
  | .handler around _ _ | .final around _ _ => Compile.Calm around.body around.contexts
  | .leave owner _ _ contexts => Compile.Calm owner contexts
  | _ => True

/-! ### The verdict on a piece -/

theorem Verdict.pool (lit : Literal) (d : Draft) : Verdict calm true [] [] d (poolIndex lit d).2 := by
  refine .idle (prefix_poolIndex lit d) (bodies_poolIndex lit d) ?_ ?_ <;>
    (unfold poolIndex; cases d.constants.findIdx? fun c => c.key == lit.key <;> rfl)

/-- Constants are sound. -/
theorem sound_of_literal? {k : ExprKind} {lit : Literal} (hk : literal? k = some lit) :
    (Node.expr k).sound = true ∧ k.parts = [] ∧ k.classes = [] ∧
      ∀ name params kind ss, ¬ Bears (.expr k) name params kind ss := by
  cases k with
  | regex source =>
    refine ⟨?_, rfl, rfl, fun _ _ _ _ h => by cases h⟩
    simp only [literal?] at hk
    cases hp : Pattern.compile source with
    | ok pattern => simp [Node.sound, hp, Except.isOk, Except.toBool]
    | error refusal => rw [hp] at hk; cases hk
  | undefined | null | bool | number | string => exact ⟨rfl, rfl, rfl, fun _ _ _ _ h => by cases h⟩
  | _ => cases hk

theorem Emits.assignable_operands {span : Span} {k : ExprKind} {place : Target} {L : Listing}
    (h : Emits (.operands span k place) d L d') (own : Span) : (Expr.node own k).isAssignable = true := by
  cases h <;> rfl

theorem Emits.assignable_save {span : Span} {k : ExprKind} {L : Listing}
    (h : Emits (.save span k) d L d') (own : Span) : (Expr.node own k).isAssignable = true := by
  cases h <;> rfl

/-- A problem is noted, then something that does not matter is done. -/
theorem Verdict.reported {span : Span} {message : String} (h : Verdict True true [] [] (d.report span message) d')
    (hwrong : exits = true → Every (·.sound) ns → ¬ names.Disjoint d.classNames) :
    Verdict calm exits ns names d d' :=
  have hreport : Stays d (d.report span message) := .of_eq (List.prefix_refl _) rfl
  .refuse (hreport.trans h.stays) (Nat.lt_of_lt_of_le (Nat.lt_succ_self _) h.more)
    h.kept hwrong

/-- Final parts that are compiled once more on the way out. -/
theorem Verdict.again (h : Verdict calm exits ns names d d')
    (hc : calm' → calm ∧ exits = true ∧ Every (·.sound) ns ∧ names = []) : Verdict calm' true [] [] d d' where
  stays := h.stays
  more := h.more
  kept := h.kept
  sound _ := ⟨rfl, .nil, List.nodup_nil, List.disjoint_nil_left _, List.nil_subset _, .nil⟩
  complete hc' _ _ _ _ := by
    obtain ⟨hcalm, hexits, hs, rfl⟩ := hc hc'
    exact h.complete hcalm hexits hs List.nodup_nil (List.disjoint_nil_left _)

/-- A class inside one of its name leaves no trace of its own. -/
theorem nodup_cons_erase {name : String} : (name :: names.erase name).Nodup ↔ names.Nodup := by
  by_cases hmem : name ∈ names
  · exact (List.perm_cons_erase hmem).nodup_iff.symm
  · rw [List.erase_of_not_mem hmem, List.nodup_cons]
    exact and_iff_right hmem

theorem mem_cons_erase {name a : String} : a ∈ name :: names.erase name ↔ a = name ∨ a ∈ names := by
  by_cases ha : a = name
  · simp [ha]
  · rw [List.mem_cons, List.mem_erase_of_ne ha]

/-- A class is declared after its methods have been compiled. -/
theorem Verdict.declare {name : String} {indices : List Nat} (h : Verdict calm exits ns names d d')
    (hnew : name ∉ d.classNames) :
    Verdict calm exits ns (name :: names.erase name) d (declareClass name indices d').2 where
  stays := h.stays.trans (.of_eq (List.prefix_refl _) rfl)
  more := h.more
  kept := List.Subset.trans h.kept (List.subset_cons_self _ _)
  sound he := by
    obtain ⟨hp, hs, hn, hd, hk, hb⟩ := h.sound he
    refine ⟨hp, hs, nodup_cons_erase.2 hn, fun a ha => ?_, fun a ha => ?_,
      hb.before (.of_eq (List.prefix_refl _) rfl)⟩
    · rcases mem_cons_erase.1 ha with rfl | ha
      · exact hnew
      · exact hd ha
    · rcases mem_cons_erase.1 ha with rfl | ha
      · exact List.mem_cons_self
      · exact List.mem_cons_of_mem _ (hk ha)
  complete hc hp hs hn hd := by
    obtain ⟨he, hk⟩ := h.complete hc hp hs (nodup_cons_erase.1 hn) fun a ha =>
      hd (mem_cons_erase.2 (.inr ha))
    refine ⟨he, fun a ha => ?_⟩
    rcases List.mem_cons.1 ha with rfl | ha
    · exact List.mem_append_left _ List.mem_cons_self
    · rcases List.mem_append.1 (hk ha) with ha | ha
      · exact List.mem_append_left _ (mem_cons_erase.2 (.inr ha))
      · exact List.mem_append_right _ ha

theorem mem_classNames {name : String} : name ∈ d.classNames ↔ (d.classes.lookup name).isSome = true := by
  rw [Draft.classNames, List.mem_map, List.lookup_isSome_iff]
  exact exists_congr fun _ => and_congr_right fun _ => by rw [beq_iff_eq, eq_comm]

/-- The methods of a class that were compiled are found. -/
theorem Emits.found_methods {span : Span} {className : String} {ms : List Method} {indices : List Nat}
    {L : Listing} {n : Node} (h : Emits (.methods span className ms indices) d L d')
    (hn : ∀ name params ss, .node name params ss ∈ ms →
      Bears n (ScriptFunction.methodName className name) params (methodKind name) ss)
    {name : String} {params : List String} {ss : List Stmt} (hm : .node name params ss ∈ ms) :
    ∃ i b e, d.bodies.size ≤ i ∧ d'.bodies[i]? = some b ∧ b.params = params ∧
      Bears n b.name b.params (methodKind name) ss ∧ Compiled (fun _ => True) (methodKind name) ss e b ∧
      e.constants.toList <+: d'.constants.toList := by
  induction ms generalizing d indices L with
  | nil => cases hm
  | cons m rest ih =>
    cases h with
    | @methodsCons _ _ _ _ _ _ _ _ A d₁ B _ hA hB =>
      have hbears := hn _ _ _ List.mem_cons_self
      have hrest : ∀ name params ss, .node name params ss ∈ rest →
          Bears n (ScriptFunction.methodName className name) params (methodKind name) ss :=
        fun name params ss hm => hn name params ss (List.mem_cons_of_mem _ hm)
      have hfillsA : Fills (fun _ => True) d d₁ :=
        hA.advance advances_fills (fun _ _ => trivial) ⟨n, trivial, hbears⟩
      have hfillsB : Fills (fun _ => True) d₁ d' :=
        hB.advance advances_fills (fun _ _ => trivial) fun name params ss hm => ⟨n, trivial, hrest name params ss hm⟩
      rcases List.mem_cons.1 hm with he | hm
      · cases he
        obtain ⟨i, b, e, hi, hib, hp, hb, hc, he⟩ := hA.found hbears
        have hlt : i < d₁.bodies.size := (Array.getElem?_eq_some_iff.1 hib).1
        exact ⟨i, b, e, hi, (hfillsB.kept i hlt).trans hib, hp, hb, hc, he.trans hfillsB.pool⟩
      · obtain ⟨i, b, e, hi, hfound⟩ := ih hB hrest hm
        exact ⟨i, b, e, Nat.le_trans hfillsA.size hi, hfound⟩

theorem methodKind_ne_script (name : String) : (methodKind name != .script) = true := by
  unfold methodKind
  split <;> rfl

theorem inLoop_region (around : Surroundings) (final : Option (List Stmt)) :
    (around.inside (.region final)).inLoop = around.inLoop := Option.isSome_map

theorem inLoop_pending (around : Surroundings) : (around.inside .pendingThrow).inLoop = around.inLoop :=
  Option.isSome_map

/-- Surroundings may be calm because of what is asked anyway. -/
theorem Verdict.calmed (h : Verdict calm exits ns names d d')
    (hc : calm' → exits = true → Every (·.sound) ns → names.Nodup → calm) : Verdict calm' exits ns names d d' where
  stays := h.stays
  more := h.more
  kept := h.kept
  sound := h.sound
  complete hc' hp hs hn := h.complete (hc hc' hp hs hn) hp hs hn

/-- The final part of a try statement is compiled at least twice, so it cannot declare a class; then every
exit can compile it once more. -/
theorem Verdict.try {around : Surroundings} {span : Span} {ss : List Stmt} {clause : Option Handler}
    {final : Option (List Stmt)} {d₂ d₃ : Draft}
    (hB : Verdict (Piece.stmts (around.inside (.region final)) ss).Calm
      (Piece.stmts (around.inside (.region final)) ss).placed (stmtsNodes ss) (stmtsClasses ss) d d₁)
    (hH : Verdict (Piece.handler (around.inside (.region final)) span clause).Calm
      (Piece.handler (around.inside (.region final)) span clause).placed (handlerNodes clause)
      (handlerClasses clause) d₁ d₂)
    (hF : Verdict (Piece.final (around.inside .pendingThrow) span final).Calm
      (Piece.final (around.inside .pendingThrow) span final).placed (finalNodes final) (finalClasses final) d₂ d₃)
    (hE : Verdict (Piece.final around span final).Calm (Piece.final around span final).placed
      (finalNodes final) (finalClasses final) d₃ d') :
    Verdict (Compile.Calm around.body around.contexts)
      ((StmtKind.try ss clause final).placed around.inBody around.inLoop)
      (StmtKind.try ss clause final).parts (StmtKind.try ss clause final).classes d d' := by
  simp only [Piece.placed, inLoop_region, inLoop_pending] at hB hH hF hE
  have hv := ((hB.seq hH).seq (hF.congr And.right rfl (fun _ => .rfl) (.refl _))).seq
    (hE.congr And.right rfl (fun _ => .rfl) (.refl _))
  refine (hv.calmed fun hcalm hexits hs hn => ⟨⟨?_, hs.right, ?_⟩, hcalm⟩).congr id ?_ (fun n => ?_) (.refl _)
  · exact ((Bool.and_eq_true _ _).mp hexits).2
  · obtain ⟨-, -, hdisjoint⟩ := List.nodup_append'.1 hn
    exact List.eq_nil_iff_forall_not_mem.2 fun a ha => hdisjoint (List.mem_append_right _ ha) ha
  · show (_ && finalPlaced around.inBody around.inLoop final && finalPlaced around.inBody around.inLoop final) = _
    rw [Bool.and_assoc, Bool.and_self]
    rfl
  · simp only [StmtKind.parts, List.mem_append, or_assoc, or_self]

/-- **The verdict of the generator on a piece.** -/
theorem Emits.verdict {p : Piece} {L : Listing} (h : Emits p d L d') :
    Verdict p.Calm p.placed p.own p.classes d d' := by
  induction h with
  | literal => exact .pool _ _
  | expr _ ih => exact ih
  | constant hk _ ih =>
    obtain ⟨hs, hparts, hclasses, hb⟩ := sound_of_literal? hk
    have hv := ih.node hs hb
    simp only [Piece.own, Piece.nodes, Piece.classes, hparts, hclasses]
    exact hv
  | badPattern hc _ ih =>
    refine ih.reported fun _ hs => ?_
    have hn := hs.head
    simp [Node.sound, hc, Except.isOk, Except.toBool] at hn
  | ident | this | operandsIdent | saveIdent | debugger | empty => exact (Verdict.refl _).node
  | exprsNil | fieldsNil | exprThenNone | defaultConstructor | finished | methodsNil | stmtNone | stmtsNil
  | noHandler | finalNone | leaveZero | leaveNil => exact .refl _
  | exprThenSome _ ih | calleeOther _ _ ih | defaultOther _ _ ih | unfinished _ _ ih | stmt _ ih | stmtSome _ ih
  | returnedNone _ ih | returnedSome _ ih | handlerParam _ ih | handler _ ih | finalSome _ ih | leaveLoop _ ih
  | leavePending _ ih => exact ih
  | array _ ih | record _ ih | member _ ih | new _ ih | saveMember _ ih | calleeMember _ ih | block _ ih =>
    exact ih.node
  | exprStmt _ ih | var _ ih | throw _ ih => exact ih.any.node
  | index _ _ ih₁ ih₂ | binary _ _ ih₁ ih₂ | saveIndex _ _ ih₁ ih₂ | calleeIndex _ _ ih₁ ih₂ =>
    exact (ih₁.seq ih₂).node
  | call _ _ ih₁ ih₂ => exact (ih₁.seq ih₂).swap.node
  | exprsCons _ _ ih₁ ih₂ | fieldsCons _ _ ih₁ ih₂ | stmtsCons _ _ ih₁ ih₂ => exact ih₁.seq ih₂
  | methodsCons _ _ ih₁ ih₂ =>
    refine (ih₁.seq ih₂).congr id ?_ (fun _ => .rfl) (.refl _)
    simp only [Piece.placed, methodsPlaced, methodKind_ne_script]
  | negate _ _ ih₁ ih₂ => exact (ih₁.seq ih₂).node
  | not _ _ _ ih₁ ih₂ ih₃ => exact ((ih₁.followed ih₂).followed ih₃).node.after rfl rfl rfl rfl
  | logical _ _ _ ih₁ ih₂ ih₃ => exact ((ih₁.seq ih₂).followed ih₃).node.after rfl rfl rfl rfl
  | conditional _ _ _ ih₁ ih₂ ih₃ => exact ((ih₁.seq ih₂).seq ih₃).node.after rfl rfl rfl rfl
  | badUpdate ht _ ih | badAssign ht _ ih =>
    refine ih.reported fun _ hs => ?_
    have hn : Expr.isAssignable _ = true := hs.head
    rw [ht] at hn
    cases hn
  | update hK _ ih₁ ih₂ => exact (ih₁.followed ih₂).node (hK.assignable_operands _)
  | assignOp hK _ ih₁ ih₂ => exact (ih₁.seq ih₂).node (hK.assignable_operands _)
  | assign _ hS ih₁ ih₂ => exact (ih₁.seq ih₂).swap.node (hS.assignable_save _)
  | lambda hL ih =>
    refine (ih.owner rfl fun name params kind ss hb => ?_).after rfl rfl rfl rfl
    cases hb with
    | lambda number => exact hL.found (.lambda _)
  | operandsMember _ ih => exact ih.node.after rfl rfl rfl rfl
  | operandsIndex _ _ ih₁ ih₂ =>
    exact (ih₁.seq (ih₂.after rfl rfl rfl rfl)).node.after rfl rfl rfl rfl
  | body _ _ ih₁ ih₂ => exact (ih₁.followed ih₂).body
  | cond _ _ _ ih₁ ih₂ ih₃ => exact ((ih₁.any.seq ih₂).seq ih₃).node.after rfl rfl rfl rfl
  | «while» _ _ ih₁ ih₂ => exact (ih₁.any.seq ih₂).node.after rfl rfl rfl rfl
  | «for» _ _ _ _ ih₁ ih₂ ih₃ ih₄ =>
    refine (((ih₁.seq ih₂.any).seq (ih₃.seq ih₄.any).swap).congr id ?_ (fun n => ?_) (.of_eq ?_)).node.after
      rfl rfl rfl rfl
    · simp only [Bool.and_true, Piece.placed]
      rfl
    · simp only [StmtKind.parts, List.mem_append, or_assoc]
      rfl
    · simp only [Piece.classes, StmtKind.classes, List.append_assoc]
  | «break» hn _ ih | «continue» hn _ ih =>
    refine ih.node.congr id ?_ (fun _ => .rfl) (.refl _)
    simp [Piece.placed, StmtKind.placed, Surroundings.inLoop, hn]
  | strayBreak hn | strayContinue hn =>
    refine (Verdict.refl _).reported fun hp _ => ?_
    simp [Piece.placed, StmtKind.placed, Surroundings.inLoop, hn] at hp
  | strayReturn hb =>
    refine (Verdict.refl _).reported fun hp _ => ?_
    simp [Piece.placed, StmtKind.placed, Surroundings.inBody, hb] at hp
  | ret hb _ _ ih =>
    refine ih.any.node.congr id ?_ (fun _ => .rfl) (.refl _)
    simp [Piece.placed, StmtKind.placed, Surroundings.inBody, hb]
  | retLeaving hb _ _ _ ih₁ ih₂ =>
    refine (ih₁.any.followed ih₂).node.congr id ?_ (fun _ => .rfl) (.refl _)
    simp [Piece.placed, StmtKind.placed, Surroundings.inBody, hb]
  | functionStmt hL ih =>
    refine ih.owner rfl fun name params kind ss hb => ?_
    cases hb with
    | function => exact hL.found .function
  | repeatedClass hn =>
    refine (Verdict.refl _).reported fun _ _ hd => ?_
    exact hd List.mem_cons_self (mem_classNames.2 hn)
  | «class» hn hL ih =>
    refine (ih.declare fun hmem => ?_).owner rfl fun name params kind ss hb => ?_
    · rw [mem_classNames, hn] at hmem
      cases hmem
    · cases hb with
      | method hm => exact hL.found_methods (fun _ _ _ hm => .method hm) hm
  | «try» _ _ _ _ ih₁ ih₂ ih₃ ih₄ => exact (Verdict.try ih₁ ih₂ ih₃ ih₄).node.after rfl rfl rfl rfl
  | leaveRegion _ _ ih₁ ih₂ =>
    exact (ih₁.again fun hc => ⟨hc.2, hc.1.1, hc.1.2.1, hc.1.2.2⟩).followed
      (ih₂.congr And.right rfl (fun _ => .rfl) (.refl _))

end ScriptMachine.Compile

namespace ScriptMachine

open Compile

/-! ### Scripts -/

/-- The verdict on a script. -/
theorem Script.verdict (script : Script) :
    Verdict True (stmtsPlaced false false script.body) script.nodes (stmtsClasses script.body) {}
      script.draft.2 := by
  obtain ⟨L, hL, -⟩ := emits_draft script
  exact hL.verdict

/-- A script compiles exactly if neither its reader nor the generator has found a problem. -/
theorem Script.compiles_iff_problems (script : Script) :
    (∃ p, script.compile = .ok p) ↔ script.diagnostics = [] ∧ script.draft.2.problems = [] := by
  have hempty : (script.diagnostics ++ script.draft.2.problems.reverse).isEmpty = true ↔
      script.diagnostics = [] ∧ script.draft.2.problems = [] := by simp
  rw [← hempty]
  constructor
  · rintro ⟨p, hp⟩
    by_contra hproblems
    simp [Script.compile, hproblems] at hp
  · intro hproblems
    obtain ⟨p, hp⟩ := exists_program script
    exact ⟨p, by simp only [Script.compile, hproblems, if_true, hp]⟩

/-- A script compiles exactly if its reader has found no problem, its nodes are sound, its exits have
something to leave and no class is compiled again. -/
theorem Script.accepted_iff (script : Script) :
    (∃ p, script.compile = .ok p) ↔ script.diagnostics = [] ∧ stmtsPlaced false false script.body = true ∧
      script.nodes.all Node.sound = true ∧ (stmtsClasses script.body).Nodup := by
  rw [script.compiles_iff_problems, List.all_eq_true]
  refine and_congr_right fun _ => ⟨fun hnone => ?_, fun ⟨hplaced, hsound, hnodup⟩ => ?_⟩
  · obtain ⟨hplaced, hsound, hnodup, -⟩ := script.verdict.sound (by rw [hnone])
    exact ⟨hplaced, hsound, hnodup⟩
  · obtain ⟨hsame, -⟩ := script.verdict.complete trivial hplaced hsound hnodup (List.disjoint_nil_right _)
    exact List.eq_nil_of_length_eq_zero hsame

/-- **Scripts that compile are the well-formed ones** whose reader has found no problem, as far as classes
are compiled once: a class of a final part is compiled with each copy of it, and a class inside another of
its name comes before that one is known. -/
theorem Script.compiles_iff (script : Script) :
    ((∃ p, script.compile = .ok p) ↔ script.diagnostics = [] ∧ stmtsPlaced false false script.body = true ∧
      script.nodes.all Node.sound = true ∧ (stmtsClasses script.body).Nodup) ∧
    (script.nodes.all Node.plainClasses = true →
      ((∃ p, script.compile = .ok p) ↔ script.diagnostics = [] ∧ script.wellFormed = true)) := by
  refine ⟨script.accepted_iff, fun hplain => ?_⟩
  have hclasses : stmtsClasses script.body = declaredClasses script.nodes := stmtsClasses_eq _ hplain
  rw [script.accepted_iff, hclasses, Script.wellFormed, Bool.and_eq_true, Bool.and_eq_true, decide_eq_true_eq]
  tauto

/-- A class beside a loop with an exit. -/
def Script.tidy : Script :=
  { body := [
      .node .unknown (.class "A" [.node "m" [] [.node .unknown (.ret none)]]),
      .node .unknown (.try
        [.node .unknown (.while (.node .unknown (.bool true)) (.node .unknown .break))] none
        (some [.node .unknown (.expr (.node .unknown (.function none [] [.node .unknown (.ret none)])))]))] }

theorem Script.compiles_iff_tidy :
    Script.tidy.nodes.all Node.plainClasses = true ∧ ∃ p, Script.tidy.compile = .ok p :=
  ⟨by decide, ((Script.compiles_iff Script.tidy).2 (by decide)).2 ⟨rfl, by decide⟩⟩

/-- One class, declared in a final part. -/
def Script.finalClass : Script :=
  { body := [.node .unknown (.try [] none (some [.node .unknown (.class "A" [])]))] }

/-- A class inside a method of another of its name. -/
def Script.nestedClass : Script :=
  { body := [.node .unknown (.class "A" [.node "m" [] [.node .unknown (.class "A" [])]])] }

/-- One declaration can be refused as a second one, and a second one accepted. -/
theorem Script.classes_miscounted :
    (Script.finalClass.wellFormed = true ∧ Script.finalClass.diagnostics = [] ∧
      ¬ ∃ p, Script.finalClass.compile = .ok p) ∧
    Script.nestedClass.wellFormed = false ∧ ∃ p, Script.nestedClass.compile = .ok p := by
  refine ⟨⟨by decide, rfl, fun hp => ?_⟩, by decide, ?_⟩
  · obtain ⟨-, -, -, hnodup⟩ := Script.finalClass.accepted_iff.1 hp
    exact absurd hnodup (by decide)
  · exact Script.nestedClass.accepted_iff.2 ⟨rfl, by decide, by decide, by decide⟩

end ScriptMachine
