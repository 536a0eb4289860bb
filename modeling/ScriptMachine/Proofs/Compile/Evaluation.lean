import ScriptMachine.Proofs.Compile.Emission
import ScriptMachine.Proofs.Compile.Expressions
import ScriptMachine.Proofs.Compile.Sections

/-!
# Evaluation — plain expressions, wherever their code lies

A plain expression has no calls, no `new` and no functions in it, its targets can be assigned to and its
patterns can be read. The evaluator gives such an expression a value or an error that scripts can catch
(`Emits.mild`), unless a host value fails in a way of its own. The code of the expression, anywhere in a
program and with any stack below it, comes to just that (`expr_evaluates`).
-/

namespace ScriptMachine

open Compile Meaning Machine

/-- Whether a node may stand in a plain expression. -/
def Node.plain : Node → Bool
  | .expr (.call _ _) | .expr (.new _ _) | .expr (.function _ _ _) | .stmt _ => false
  | .expr (.update _ _ target) | .expr (.assign _ target _) => target.isAssignable
  | .expr (.regex source) => (Pattern.compile source).toOption.isSome
  | .expr (.ident name) => !reserved name
  | .expr (.member _ property) => property != indexer
  | .expr _ => true

/-- Some host value answers the reading or the writing of a property with an error. -/
def Hosts.Raise (hosts : Hosts) (c : Cause) : Prop :=
  ∃ handle, (∃ name h, (hosts.find handle).read name h = .error c) ∨
    ∃ name v h, ((hosts.find handle).write name v h).1 = .error c

namespace Meaning

variable {α β : Type} {m : Machine} {env : ScopeId} {x : Calc α} {f : α → Calc β}

/-- Computations that fail only with what scripts can catch, or with the error of a host value. -/
def Mild (m : Machine) (x : Calc α) : Prop :=
  ∀ h c h', x h = .error c h' → c.isCatchable = true ∨ m.hosts.Raise c

/-! ### Mild computations -/

theorem mild_pure (a : α) : Mild m (pure a : Calc α) := nofun

theorem mild_make (g : Heap → α × Heap) : Mild m (make g) := nofun

theorem Mild.bind (hx : Mild m x) (hf : ∀ a, Mild m (f a)) : Mild m (x >>= f) := by
  intro h c h' he
  cases hr : x h with
  | ok a h₁ =>
    rw [Stage.bind_ok hr] at he
    exact hf a h₁ c h' he
  | error c₁ h₁ =>
    rw [Stage.bind_error hr] at he
    cases he
    exact hx h c h' hr

theorem mild_look {g : Machine → Except Cause α}
    (hg : ∀ h c, g { m with env, heap := h } = .error c → c.isCatchable = true ∨ m.hosts.Raise c) :
    Mild m (look m env g) := by
  intro h c h' he
  unfold look at he
  cases hr : g { m with env, heap := h } with
  | ok a =>
    rw [hr] at he
    cases he
  | error c₁ =>
    rw [hr] at he
    cases he
    exact hg h c hr

theorem mild_lookup (name : String) : Mild m (look m env (·.lookup name)) := by
  refine mild_look fun h c hr => .inl ?_
  unfold Machine.lookup at hr
  split at hr
  · cases hr
  · split at hr
    · cases hr
    · split at hr <;> cases hr
      rfl

theorem mild_property (target key : Value) : Mild m (look m env (·.property target key)) := by
  refine mild_look fun h c hr => ?_
  cases target with
  | native handle => exact .inr ⟨handle, .inl ⟨_, _, hr⟩⟩
  | object | array | string | regex => cases hr
  | error id message => cases key <;> cases hr
  | undefined | null | bool | number | function =>
    cases hr
    exact .inl rfl

theorem mild_apply (op : BinaryOp) (a b : Value) : Mild m (look m env fun m => op.apply m.heap a b) := by
  refine mild_look fun h c hr => .inl ?_
  unfold BinaryOp.apply at hr
  split at hr <;> cases hr
  rfl

theorem mild_assign (name : String) (v : Value) : Mild m (assign env name v) := by
  intro h c h' he
  unfold assign Heap.slot at he
  cases hd : h.definer? (h.chain env) name with
  | some slot =>
    rw [hd] at he
    cases he
  | none =>
    rw [hd] at he
    cases he
    exact .inl rfl

theorem mild_setProperty (target key v : Value) : Mild m (setProperty m env target key v) := by
  intro h c h' he
  unfold setProperty at he
  have hfails : (Machine.setProperty { m with env, heap := h } target key v).1 = .error c := by
    split at he
    · cases he
    · rename_i heq
      cases he
      rw [heq]
  cases target with
  | native handle => exact .inr ⟨handle, .inr ⟨_, v, h, hfails⟩⟩
  | object => cases hfails
  | array a =>
    simp only [Machine.setProperty] at hfails
    split at hfails
    · rename_i i _
      cases hi : Heap.checkIndex i with
      | ok _ =>
        rw [hi] at hfails
        cases hfails
      | error c₁ =>
        rw [hi] at hfails
        cases hfails
        unfold Heap.checkIndex at hi
        split at hi <;> cases hi
        exact .inl rfl
    · cases hfails
      exact .inl rfl
  | undefined | null | bool | number | string | regex | error | function =>
    cases hfails
    exact .inl rfl

theorem mild_read (P : Place) : Mild m (P.read m env) := by
  cases P with
  | plain name => exact mild_lookup name
  | property object key => exact mild_property object key

theorem mild_write (P : Place) (v : Value) : Mild m (P.write m env v) := by
  cases P with
  | plain name => exact mild_assign name v
  | property object key => exact mild_setProperty object key v

theorem mild_holding {k : ExprKind} {g : ScopeId → Calc α} (hg : ∀ env, Mild m (g env)) :
    Mild m (holding env k g) := by
  cases k with
  | member | index => exact (mild_make _).bind hg
  | _ => exact hg env

end Meaning

namespace Compile

open Listing Heap Stage

variable {Z : Stage}

/-- What the evaluator makes of a piece is mild. -/
def Piece.Mild (m : Machine) : Piece → Prop
  | .literal _ lit => ∀ q, lit = .regex q → Meaning.Mild m (pattern m q.source)
  | .expr _ e => ∀ env, Meaning.Mild m (eval m env e)
  | .kind _ k => ∀ env, Meaning.Mild m (evalKind m env k)
  | .exprs _ es => ∀ env, Meaning.Mild m (evalAll m env es)
  | .fields _ fs => ∀ env, Meaning.Mild m (evalFields m env fs)
  | .operands _ k _ | .save _ k => ∀ env, Meaning.Mild m (evalPlace m env k)
  | _ => True

/-- **Plain expressions have a meaning**: what the evaluator makes of them fails only with what scripts can
catch, or with the error of a host value. -/
theorem Emits.mild {p : Piece} {d d' : Draft} {L : Listing} (h : Emits p d L d')
    (hp : Every (·.plain = true) p.nodes) (hP : d'.constants.toList <+: Z.pool.toList) : p.Mild Z.world := by
  induction h with
  | literal =>
    rintro q rfl
    obtain ⟨c, -, hmeans⟩ := (first_poolIndex hP).pattern
    rw [hmeans]
    exact mild_pure _
  | expr _ ih =>
    intro env
    simp only [eval]
    exact ih hp hP env
  | @constant span k lit d L d' hk _ ih =>
    intro env
    cases k with
    | regex source =>
      simp only [literal?] at hk
      cases hs : Pattern.compile source with
      | error refusal =>
        rw [hs] at hk
        cases hk
      | ok q =>
        rw [hs] at hk
        cases hk
        simp only [evalKind, hs]
        exact ih .nil hP q rfl
    | undefined | null | bool | number | string =>
      simp only [evalKind]
      exact mild_pure _
    | _ => cases hk
  | @badPattern span source refusal d L d' hs _ _ =>
    have hplain := hp.head
    simp [Node.plain, hs, Except.toOption] at hplain
  | array _ ih =>
    intro env
    simp only [evalKind]
    exact (ih hp.tail hP env).bind fun _ => (mild_make _).bind fun _ => mild_pure _
  | record _ ih =>
    intro env
    simp only [evalKind]
    exact (ih hp.tail hP env).bind fun _ => (mild_make _).bind fun _ => mild_pure _
  | ident | this =>
    intro env
    simp only [evalKind]
    exact mild_lookup _
  | member _ ih =>
    intro env
    simp only [evalKind]
    exact (ih hp.tail hP env).bind fun _ => mild_property _ _
  | index _ hK ihL ihK =>
    intro env
    simp only [evalKind]
    exact (ihL hp.tail.left (hK.pool_prefix.trans hP) env).bind fun _ => (ihK hp.tail.right hP env).bind fun _ =>
      mild_property _ _
  | not _ hY hN ih =>
    intro env
    simp only [evalKind]
    exact (ih hp.tail (hY.pool_prefix.trans (hN.pool_prefix.trans hP)) env).bind fun _ => mild_pure _
  | negate _ _ _ ih =>
    intro env
    simp only [evalKind]
    exact (ih hp.tail hP env).bind fun _ => mild_apply _ _ _
  | badUpdate ht _ _ =>
    have hplain := hp.head
    simp [Node.plain, ht] at hplain
  | @update span op giveNew own k place d K d₁ N d' _ hN ih =>
    intro env
    simp only [evalKind]
    refine mild_holding fun env => (ih hp.tail (hN.pool_prefix.trans hP) env).bind fun P => (mild_read P).bind fun _ =>
      (mild_apply _ _ _).bind fun _ => (mild_write P _).bind fun _ => ?_
    cases giveNew with
    | true => exact mild_read P
    | false => exact mild_pure _
  | binary _ hR ihL ihR =>
    intro env
    simp only [evalKind]
    exact (ihL hp.tail.left (hR.pool_prefix.trans hP) env).bind fun _ => (ihR hp.tail.right hP env).bind fun _ =>
      mild_apply _ _ _
  | @logical span op left right d L d₁ R d₂ O d' _ hR hO ihL ihR =>
    intro env
    have hright := ihR hp.tail.right (hO.pool_prefix.trans hP) env
    have hleft := ihL hp.tail.left (hR.pool_prefix.trans (hO.pool_prefix.trans hP)) env
    cases op with
    | and =>
      simp only [evalKind]
      refine hleft.bind fun w => ?_
      split
      · exact hright
      · exact mild_pure _
    | or =>
      simp only [evalKind]
      refine hleft.bind fun w => ?_
      split
      · exact mild_pure _
      · exact hright
  | @badAssign span op target value d L d' ht _ _ =>
    have hplain := hp.head
    simp [Node.plain, ht] at hplain
  | @assignOp span op own k value place d K d₁ V d' _ hV ihK ihV =>
    intro env
    simp only [evalKind]
    exact mild_holding fun env => (ihK hp.tail.left (hV.pool_prefix.trans hP) env).bind fun P =>
      (mild_read P).bind fun _ => (ihV hp.tail.right hP env).bind fun _ =>
        (mild_apply _ _ _).bind fun _ => (mild_write P _).bind fun _ =>
        mild_pure _
  | @assign span own k value d V d₁ S d' _ hS ihV ihS =>
    intro env
    have hk : (Expr.node own k).isAssignable = true := hp.head
    simp only [evalKind, hk, if_true]
    exact (ihV hp.tail.right (hS.pool_prefix.trans hP) env).bind fun _ => (ihS hp.tail.left hP env).bind fun P =>
      (mild_write P _).bind fun _ => mild_pure _
  | conditional _ hY hN ihT ihY ihN =>
    intro env
    simp only [evalKind]
    refine (ihT hp.tail.left.left (hY.pool_prefix.trans (hN.pool_prefix.trans hP)) env).bind fun w => ?_
    split
    · exact ihY hp.tail.left.right (hN.pool_prefix.trans hP) env
    · exact ihN hp.tail.right hP env
  | call | new | lambda => cases hp.head
  | exprsNil =>
    intro env
    simp only [evalAll]
    exact mild_pure _
  | exprsCons _ hR ihL ihR =>
    intro env
    simp only [evalAll]
    exact (ihL hp.left (hR.pool_prefix.trans hP) env).bind fun _ => (ihR hp.right hP env).bind fun _ => mild_pure _
  | fieldsNil =>
    intro env
    simp only [evalFields]
    exact mild_pure _
  | fieldsCons _ hR ihL ihR =>
    intro env
    simp only [evalFields]
    exact (ihL hp.left (hR.pool_prefix.trans hP) env).bind fun _ => (ihR hp.right hP env).bind fun _ => mild_pure _
  | operandsIdent | saveIdent =>
    intro env
    simp only [evalPlace]
    exact mild_pure _
  | operandsMember _ ih | saveMember _ ih =>
    intro env
    simp only [evalPlace]
    exact (ih hp.tail hP env).bind fun _ => mild_pure _
  | operandsIndex _ hK ihL ihK | saveIndex _ hK ihL ihK =>
    intro env
    simp only [evalPlace]
    exact (ihL hp.tail.left (hK.pool_prefix.trans hP) env).bind fun _ => (ihK hp.tail.right hP env).bind fun _ =>
      mild_pure _
  | _ => trivial

/-- The nodes of a plain expression speak of their own names only. -/
theorem speaks_of_plain {ns : List Node} (hp : Every (·.plain = true) ns) : Every (Speaks (mentioned ns)) ns := by
  intro n hn
  have hplain := hp n hn
  refine ⟨?_, fun name hname => ⟨List.mem_flatMap.2 ⟨n, hn, hname⟩, ?_⟩⟩
  · cases n with
    | stmt k => rfl
    | expr k =>
      cases k with
      | member object property => exact hplain
      | _ => rfl
  · cases n with
    | stmt k => cases hplain
    | expr k =>
      cases k with
      | ident name =>
        rw [List.mem_singleton.1 hname]
        simpa [Node.plain] using hplain
      | this =>
        rw [List.mem_singleton.1 hname]
        decide
      | _ => cases hname

end Compile

namespace Machine

/-- A machine in front of code that nothing hinders: the code lies at its place, instructions are not limited,
the stack has room for what the code can push, the scopes it refers to exist, and host values stay away from
scopes that no value leads to. -/
structure Poised (m : Machine) (p : Program) (code : Code) : Prop where
  program : m.program = p
  lies : ∀ k i, code[k]? = some i → ∃ j, p.instruction? m.sectionIndex (m.pc + k) = some j ∧ j.op = i.op
  cycles : m.config.maxCycles = none
  room : m.stack.depth + code.length ≤ m.config.maxStack
  env : m.env.index < m.heap.scopes.size
  fields : ∀ o, (m.heap.fields o).index < m.heap.scopes.size
  hosts : m.hosts.Discreet m.heap.scopes.size

/-- The heap that code leaves, beside that of the evaluator: they agree, and a scope that was there before holds
what the evaluator left in it and no hidden name besides. -/
structure Resembles (m : Machine) (h H : Heap) : Prop where
  agrees : h.Agrees m.heap.scopes.size H
  before : ∀ s, s.index < m.heap.scopes.size → H.scope s = h.scope s

/-- What becomes of a machine in front of the code of an expression, by what the evaluator says. -/
def Evaluates (m : Machine) (length : Nat) : EStateM.Result Cause Heap Value → Prop
  | .ok a h => ∃ m', Steps m m' ∧ m'.stack.entries = .value a :: m.stack.entries ∧
      m'.sectionIndex = m.sectionIndex ∧ m'.pc = m.pc + length ∧ m'.env = m.env ∧ m.Resembles h m'.heap
  | .error c h => (c.isCatchable = true ∨ m.hosts.Raise c) ∧ (c ≠ .halted →
      ∃ u above, Faults m c u ∧ u.stack.entries = above ++ m.stack.entries ∧
        (∀ e ∈ above, e.kind = .value ∨ e.kind = .loop) ∧ u.sectionIndex = m.sectionIndex ∧ m.Resembles h u.heap)

variable {m : Machine} {p : Program} {code : Code} {pool : Array Literal} {sections : Array CodeSection}
  {functions : Array ScriptFunction} {classes : List (String × List Nat)}

theorem resembles_of_agrees {h H : Heap} (ha : h.Agrees m.heap.scopes.size H) : m.Resembles h H :=
  ⟨ha, fun s hs => ha.shared s (.inl hs)⟩

/-- The section in which a machine stands. -/
def Poised.stage (hm : m.Poised p code)
    (hp : Program.assemble sections (pool.mapIdx Literal.value) functions classes = .ok p) : Stage where
  world := m
  sectionIndex := m.sectionIndex
  base := m.heap.scopes.size
  pool := pool
  constants := by
    rw [hm.program]
    exact (assemble_ok hp).2.1
  labels := by
    rw [hm.program]
    exact (assemble_ok hp).2.2.2
  discreet := hm.hosts
  unlimited := hm.cycles

/-- **Expressions are compiled correctly.** The generator may come to a plain expression in any state, and its
code may lie anywhere in an accepted program whose pool holds its constants. In front of it, with any stack, any
scope and any heap, the machine comes to the end of the code with one value more on its stack, in the same
section and scope, if the evaluator gives that value; and to the error of the evaluator if it gives one, which is
one that scripts can catch unless a host value made it. The heap is that of the evaluator but for scopes that
have been left. -/
theorem expr_evaluates {e : Expr} {span : Span} {d : Draft} (he : e.nodes.all Node.plain = true)
    (hp : Program.assemble sections (pool.mapIdx Literal.value) functions classes = .ok p)
    (hpool : (expr span e d).2.constants.toList <+: pool.toList) (hm : m.Poised p (expr span e d).1) :
    m.Evaluates (expr span e d).1.length (eval m m.env e m.heap) := by
  obtain ⟨L, hL, hcode⟩ := follows_expr span e d
  let Z := hm.stage hp
  have hnodes : Every (·.plain = true) e.nodes := List.all_eq_true.1 he
  have hlength : L.opcodes.length = (expr span e d).1.length := by rw [Listing.opcodes, List.length_map, hcode]
  have hhas : Z.Has m.pc L.opcodes := by
    intro k op hk
    rw [Listing.opcodes, List.getElem?_map, hcode] at hk
    obtain ⟨i, hi, rfl⟩ := Option.map_eq_some_iff.1 hk
    obtain ⟨j, hj, hop⟩ := hm.lies k i hi
    exact ⟨j, by rw [← hj]; exact congrArg (fun q => Program.instruction? q _ _) hm.program, hop⟩
  have hshows : Z.Shows m.pc m.stack.entries m.heap m :=
    ⟨⟨rfl, rfl, rfl, rfl, rfl, rfl⟩, rfl, rfl, .refl hm.fields (Nat.le_refl _), hm.env⟩
  have hsees : Z.Sees (mentioned e.nodes) m.env m.heap m := ⟨hm.env, .refl _ _ _ _⟩
  have hroom : ([] : List Value).length + m.stack.entries.length + L.opcodes.length ≤ Z.world.config.maxStack := by
    have hroom := hm.room
    rw [m.stack.depth_eq, ← hlength] at hroom
    rw [List.length_nil, Nat.zero_add]
    exact hroom
  have hmild : Meaning.Mild m (eval m m.env e) := Emits.mild (Z := Z) hL hnodes hpool m.env
  have hmeans := Emits.means (Z := Z) hL (speaks_of_plain hnodes) hpool [] m.env m.pc m.stack.entries m.heap m hhas
    hroom hshows hsees fun _ hv => absurd hv List.not_mem_nil
  have hworld : Z.world = m := rfl
  rw [hworld] at hmeans
  cases hr : eval m m.env e m.heap with
  | ok a h =>
    rw [hr] at hmeans
    obtain ⟨-, m', hsteps, hshow, hquiet⟩ := hmeans
    exact ⟨m', hsteps, hshow.entries, hshow.sectionIndex, by rw [hshow.pc, hlength], hquiet.env,
      resembles_of_agrees hshow.agrees⟩
  | error c h =>
    rw [hr] at hmeans
    refine ⟨hmild m.heap c h hr, fun hc => ?_⟩
    obtain ⟨u, hfaults, hfails, -⟩ := hmeans hc
    obtain ⟨above, hentries, habove⟩ := hfails.entries
    exact ⟨u, above, hfaults, hentries, habove, hfails.sectionIndex, resembles_of_agrees hfails.agrees⟩

/-- The expression that adds to the property of a record, whose old value it reads through a hidden name. -/
def appending : Expr :=
  .node .unknown (.assign (some .add)
    (.node .unknown (.member (.node .unknown (.record [("k", .node .unknown (.string "a"))])) "k"))
    (.node .unknown (.string "b")))

/-- A program of one section with the code of the expression after another instruction. -/
def appendingSections : Array CodeSection :=
  #[⟨"<script>", #[{ op := .nop }] ++ (expr .unknown appending {}).1.toArray⟩]

/-- The machine in front of the code, inside a loop. -/
def appendingMachine (p : Program) : Machine := { (load p {} {} {}).onStack [.loop ⟨0⟩] with pc := 1 }

/-- The machine comes to the end of the code with the new value on its stack. -/
theorem expr_evaluates_appending : ∃ p m', appending.nodes.all Node.plain = true ∧
    Program.assemble appendingSections ((expr .unknown appending {}).2.constants.mapIdx Literal.value) #[] [] = .ok p ∧
    (appendingMachine p).Poised p (expr .unknown appending {}).1 ∧ Steps (appendingMachine p) m' ∧
    m'.pc = 14 ∧ m'.env = ⟨0⟩ ∧ m'.stack.entries = [.value (.string "ab"), .loop ⟨0⟩] := by
  have hplain : appending.nodes.all Node.plain = true := by decide +kernel
  have hlength : (expr .unknown appending {}).1.length = 13 := by decide +kernel
  have hassemble : (Program.assemble appendingSections
      ((expr .unknown appending {}).2.constants.mapIdx Literal.value) #[] []).toOption.isSome = true := by
    decide +kernel
  cases hp : Program.assemble appendingSections
      ((expr .unknown appending {}).2.constants.mapIdx Literal.value) #[] [] with
  | error cause =>
    rw [hp] at hassemble
    cases hassemble
  | ok p =>
    have hpoised : (appendingMachine p).Poised p (expr .unknown appending {}).1 := by
      refine ⟨rfl, fun k i hk => ⟨i, ?_, rfl⟩, rfl, ?_, Nat.zero_lt_one, fun _ => Nat.zero_lt_one, nofun⟩
      · have hsection : p.sections[0]? = appendingSections[0]? := by rw [(assemble_ok hp).1]
        have hcode : (#[{ op := .nop }] ++ (expr .unknown appending {}).1.toArray)[1 + k]? = some i := by
          rw [Array.getElem?_append_right (by simp)]
          simpa using hk
        show p.sections[0]?.bind (fun s => s.code[1 + k]?) = some i
        rw [hsection]
        exact hcode
      · rw [hlength]
        show 1 + 13 ≤ 65536
        decide
    have hvalue : ∃ h, eval (appendingMachine p) (appendingMachine p).env appending (appendingMachine p).heap =
        .ok (.string "ab") h := ⟨_, by with_unfolding_all rfl⟩
    obtain ⟨h, hvalue⟩ := hvalue
    have hevaluates := expr_evaluates hplain hp (List.prefix_refl _) hpoised
    rw [hvalue, hlength] at hevaluates
    obtain ⟨m', hsteps, hstack, -, hpc, henv, -⟩ := hevaluates
    exact ⟨p, m', hplain, rfl, hpoised, hsteps, hpc, henv, hstack⟩

end Machine

end ScriptMachine
