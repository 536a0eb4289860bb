import Mathlib.Data.List.Chain
import Mathlib.Order.WellFounded
import ScriptMachine.Proofs.Compile.Emission
import ScriptMachine.Proofs.Compile.Segments

/-!
# Termination — the recursion of the generator ends

A `Job` is one call of a function of the generator, and `Job.Calls` lists the calls it may make in turn. Most go down the
tree. An exit goes outwards instead: it compiles the final parts of the statements around it, which are no part of the
exit, each within the contexts around its statement. The work of a job is twice the size of its tree and the weight of
its contexts; what an exit may cost was counted when the try statement was entered, so that every call has less work than
its caller. Hence no chain of calls goes on forever, and the rules of the generator give every piece a listing
(`compilation_terminates`).
-/

namespace ScriptMachine.Compile

/-! ### Calls -/

/-- A call of a function of the generator, whatever the draft it extends. -/
inductive Job where
  | expr (outer : Span) (e : Expr)
  | kind (span : Span) (k : ExprKind)
  | exprs (span : Span) (es : List Expr)
  | fields (span : Span) (fields : List (String × Expr))
  | exprThen (span : Span) (after : List Opcode) (e : Option Expr)
  | target (span : Span) (k : ExprKind)
  | store (span : Span) (k : ExprKind)
  | callee (span : Span) (argc : Nat) (e : Expr)
  | body (span : Span) (name : String) (params : List String) (kind : BodyKind) (ss : List Stmt)
  | methods (span : Span) (className : String) (ms : List Method)
  | stmt (around : Surroundings) (s : Stmt)
  | stmtOption (around : Surroundings) (s : Option Stmt)
  | stmts (around : Surroundings) (ss : List Stmt)
  | stmtKind (around : Surroundings) (span : Span) (k : StmtKind)
  | returned (kind : BodyKind) (span : Span) (value : Option Expr)
  | handler (around : Surroundings) (span : Span) (handler : Option Handler)
  | final (around : Surroundings) (span : Span) (final : Option (List Stmt))
  | leave (kind : BodyKind) (span : Span) (n : Nat) (contexts : List Context)

namespace Job

/-- The calls that a job makes. Labels, and the numbers in the names of function expressions, come from the draft, so
they may be any. -/
inductive Calls : Job → Job → Prop where
  -- expressions
  | expr {outer own k} : Calls (.expr outer (.node own k)) (.kind (outer.refine own) k)
  | array {span items} : Calls (.kind span (.array items)) (.exprs span items)
  | record {span fields} : Calls (.kind span (.record fields)) (.fields span fields)
  | member {span object property} : Calls (.kind span (.member object property)) (.expr span object)
  | indexObject {span object key} : Calls (.kind span (.index object key)) (.expr span object)
  | indexKey {span object key} : Calls (.kind span (.index object key)) (.expr span key)
  | not {span operand} : Calls (.kind span (.not operand)) (.expr span operand)
  | negate {span operand} : Calls (.kind span (.negate operand)) (.expr span operand)
  | update {span op giveNew own k} : Calls (.kind span (.update op giveNew (.node own k))) (.target span k)
  | binaryLeft {span op left right} : Calls (.kind span (.binary op left right)) (.expr span left)
  | binaryRight {span op left right} : Calls (.kind span (.binary op left right)) (.expr span right)
  | logicalLeft {span op left right} : Calls (.kind span (.logical op left right)) (.expr span left)
  | logicalRight {span op left right} : Calls (.kind span (.logical op left right)) (.expr span right)
  | assignTarget {span op own k value} : Calls (.kind span (.assign (some op) (.node own k) value)) (.target span k)
  | assignValue {span op target value} : Calls (.kind span (.assign op target value)) (.expr span value)
  | assignStore {span own k value} : Calls (.kind span (.assign none (.node own k) value)) (.store span k)
  | test {span test yes no} : Calls (.kind span (.conditional test yes no)) (.expr span test)
  | yes {span test yes no} : Calls (.kind span (.conditional test yes no)) (.expr span yes)
  | no {span test yes no} : Calls (.kind span (.conditional test yes no)) (.expr span no)
  | args {span callee args} : Calls (.kind span (.call callee args)) (.exprs span args)
  | callee {span callee args} : Calls (.kind span (.call callee args)) (.callee span args.length callee)
  | new {span className args} : Calls (.kind span (.new className args)) (.exprs span args)
  | lambda {span name params ss} (number : Nat) :
      Calls (.kind span (.function name params ss)) (.body span (lambdaName name number) params .function ss)
  | exprsHead {span e rest} : Calls (.exprs span (e :: rest)) (.expr span e)
  | exprsTail {span e rest} : Calls (.exprs span (e :: rest)) (.exprs span rest)
  | fieldsHead {span name e rest} : Calls (.fields span ((name, e) :: rest)) (.expr span e)
  | fieldsTail {span name e rest} : Calls (.fields span ((name, e) :: rest)) (.fields span rest)
  | exprThen {span after e} : Calls (.exprThen span after (some e)) (.expr span e)
  -- targets and callees
  | targetMember {span object property} : Calls (.target span (.member object property)) (.expr span object)
  | targetObject {span object key} : Calls (.target span (.index object key)) (.expr span object)
  | targetKey {span object key} : Calls (.target span (.index object key)) (.expr span key)
  | storeMember {span object property} : Calls (.store span (.member object property)) (.expr span object)
  | storeObject {span object key} : Calls (.store span (.index object key)) (.expr span object)
  | storeKey {span object key} : Calls (.store span (.index object key)) (.expr span key)
  | calleeMember {span argc own object property} :
      Calls (.callee span argc (.node own (.member object property))) (.expr span object)
  | calleeObject {span argc own object key} :
      Calls (.callee span argc (.node own (.index object key))) (.expr span object)
  | calleeKey {span argc own object key} : Calls (.callee span argc (.node own (.index object key))) (.expr span key)
  | calleeOther {span argc own k} : Calls (.callee span argc (.node own k)) (.kind (span.refine own) k)
  -- bodies
  | body {span name params kind ss} : Calls (.body span name params kind ss) (.stmts { body := kind } ss)
  | method {span className name params ss rest} : Calls (.methods span className (.node name params ss :: rest))
      (.body span (ScriptFunction.methodName className name) params (methodKind name) ss)
  | methodsTail {span className first rest} :
      Calls (.methods span className (first :: rest)) (.methods span className rest)
  -- statements
  | stmt {around span k} : Calls (.stmt around (.node span k)) (.stmtKind around span k)
  | stmtOption {around s} : Calls (.stmtOption around (some s)) (.stmt around s)
  | stmtsHead {around s rest} : Calls (.stmts around (s :: rest)) (.stmt around s)
  | stmtsTail {around s rest} : Calls (.stmts around (s :: rest)) (.stmts around rest)
  | exprStmt {around span e} : Calls (.stmtKind around span (.expr e)) (.expr span e)
  | var {around span name init} : Calls (.stmtKind around span (.var name init)) (.exprThen span [.store name] init)
  | block {around span ss} : Calls (.stmtKind around span (.block ss)) (.stmts around ss)
  | condTest {around span test yes no} : Calls (.stmtKind around span (.cond test yes no)) (.expr span test)
  | condYes {around span test yes no} : Calls (.stmtKind around span (.cond test yes no)) (.stmt around yes)
  | condNo {around span test yes no} : Calls (.stmtKind around span (.cond test yes no)) (.stmtOption around no)
  | whileTest {around span test body} : Calls (.stmtKind around span (.while test body)) (.expr span test)
  | whileBody {around span test body} (start done : Nat) :
      Calls (.stmtKind around span (.while test body)) (.stmt (around.inside (.loop start done)) body)
  | forInit {around span init test update body} :
      Calls (.stmtKind around span (.for init test update body)) (.stmtOption around init)
  | forTest {around span init test update body} (done : Nat) :
      Calls (.stmtKind around span (.for init test update body)) (.exprThen span [.jumpFalse done] test)
  | forBody {around span init test update body} (next done : Nat) :
      Calls (.stmtKind around span (.for init test update body)) (.stmt (around.inside (.loop next done)) body)
  | forUpdate {around span init test update body} :
      Calls (.stmtKind around span (.for init test update body)) (.exprThen span [.pop] update)
  | break {around span n labels} : innermostLoop? around.contexts = some (n, labels) →
      Calls (.stmtKind around span .break) (.leave around.body span n around.contexts)
  | continue {around span n labels} : innermostLoop? around.contexts = some (n, labels) →
      Calls (.stmtKind around span .continue) (.leave around.body span n around.contexts)
  | ret {around span value} : Calls (.stmtKind around span (.ret value)) (.returned around.body span value)
  | retLeave {around span value} : Calls (.stmtKind around span (.ret value))
      (.leave around.body span around.contexts.length around.contexts)
  | throw {around span value} : Calls (.stmtKind around span (.throw value)) (.expr span value)
  | tryBody {around span body handler final} :
      Calls (.stmtKind around span (.try body handler final)) (.stmts (around.inside (.region final)) body)
  | tryHandler {around span body handler final} :
      Calls (.stmtKind around span (.try body handler final)) (.handler (around.inside (.region final)) span handler)
  | tryFailing {around span body handler final} :
      Calls (.stmtKind around span (.try body handler final)) (.final (around.inside .pendingThrow) span final)
  | tryEnding {around span body handler final} :
      Calls (.stmtKind around span (.try body handler final)) (.final around span final)
  | function {around span name params ss} :
      Calls (.stmtKind around span (.function name params ss)) (.body span name params .function ss)
  | class {around span name ms} : Calls (.stmtKind around span (.class name ms)) (.methods span name ms)
  | returned {kind span e} : Calls (.returned kind span (some e)) (.expr span e)
  | handler {around span param ss} : Calls (.handler around span (some (.clause param ss))) (.stmts around ss)
  | final {around span ss} : Calls (.final around span (some ss)) (.stmts around ss)
  -- leaving contexts: a final part on the way is compiled within the contexts around its statement
  | leaveFinal {kind span n final rest} : Calls (.leave kind span (n + 1) (.region final :: rest))
      (.final { body := kind, contexts := rest } span final)
  | leaveRest {kind span n context rest} :
      Calls (.leave kind span (n + 1) (context :: rest)) (.leave kind span n rest)

/-- Twice the size of the tree and the weight of the contexts. -/
noncomputable def work : Job → Nat
  | .expr _ e => 2 * sizeOf e
  | .kind _ k => 2 * sizeOf k
  | .exprs _ es => 2 * sizeOf es
  | .fields _ items => 2 * sizeOf items
  | .exprThen _ _ e => 2 * sizeOf e
  | .target _ k => 2 * sizeOf k
  | .store _ k => 2 * sizeOf k
  | .callee _ _ e => 2 * sizeOf e
  | .body _ _ _ _ ss => 2 * sizeOf ss + 1
  | .methods _ _ ms => 2 * sizeOf ms
  | .stmt around s => 2 * sizeOf s + around.weight
  | .stmtOption around s => 2 * sizeOf s + around.weight
  | .stmts around ss => 2 * sizeOf ss + around.weight
  | .stmtKind around _ k => 2 * sizeOf k + around.weight
  | .returned _ _ value => 2 * sizeOf value
  | .handler around _ clause => 2 * sizeOf clause + around.weight
  | .final around _ part => 2 * sizeOf part + around.weight
  | .leave _ _ _ contexts => weight contexts

theorem weight_pos (c : Context) : 0 < c.weight := by
  cases c <;> simp [Context.weight]

/-- **Every call has less work than its caller.** -/
theorem Calls.work_lt {p q : Job} (h : p.Calls q) : q.work < p.work := by
  cases h with
  | @leaveRest _ _ _ context rest => exact Nat.lt_add_of_pos_left (weight_pos context)
  | _ =>
    simp only [work, Surroundings.weight, Surroundings.inside, weight, Context.weight, Expr.node.sizeOf_spec,
      ExprKind.array.sizeOf_spec, ExprKind.record.sizeOf_spec, ExprKind.member.sizeOf_spec,
      ExprKind.index.sizeOf_spec, ExprKind.not.sizeOf_spec, ExprKind.negate.sizeOf_spec,
      ExprKind.update.sizeOf_spec, ExprKind.binary.sizeOf_spec, ExprKind.logical.sizeOf_spec,
      ExprKind.assign.sizeOf_spec, ExprKind.conditional.sizeOf_spec, ExprKind.call.sizeOf_spec,
      ExprKind.new.sizeOf_spec, ExprKind.function.sizeOf_spec, List.cons.sizeOf_spec, Prod.mk.sizeOf_spec,
      Option.some.sizeOf_spec, Method.node.sizeOf_spec, Handler.clause.sizeOf_spec, Stmt.node.sizeOf_spec,
      StmtKind.expr.sizeOf_spec, StmtKind.var.sizeOf_spec, StmtKind.block.sizeOf_spec,
      StmtKind.cond.sizeOf_spec, StmtKind.while.sizeOf_spec, StmtKind.for.sizeOf_spec,
      StmtKind.break.sizeOf_spec, StmtKind.continue.sizeOf_spec, StmtKind.ret.sizeOf_spec,
      StmtKind.throw.sizeOf_spec, StmtKind.try.sizeOf_spec, StmtKind.function.sizeOf_spec,
      StmtKind.class.sizeOf_spec]
    omega

/-- **The recursion is well-founded**, for every tree and every list of contexts. -/
theorem wellFounded_calls : WellFounded fun q p : Job => p.Calls q :=
  Subrelation.wf (fun h => h.work_lt) (InvImage.wf work Nat.lt_wfRel.wf)

/-- A final part that is compiled within the context of its own statement. -/
inductive Strays : Job → Job → Prop where
  | leaveFinal {kind span n final rest} : Strays (.leave kind span (n + 1) (.region final :: rest))
      (.final { body := kind, contexts := .region final :: rest } span final)

/-- The contexts have to be cut back: an exit in a final part would otherwise lead to the same final part again. -/
theorem not_wellFounded_strays : ¬ WellFounded fun q p : Job => p.Calls q ∨ p.Strays q := by
  intro hwf
  -- `return` inside a final part, compiled within the region of its own statement
  let exit : Stmt := .node .unknown (.ret none)
  let around : Surroundings := { body := .function, contexts := [.region (some [exit])] }
  have hcycle : Relation.TransGen (fun q p : Job => p.Calls q ∨ p.Strays q) (.stmt around exit) (.stmt around exit) :=
    (((Relation.TransGen.single (.inl .stmtsHead)).tail (.inl .final)).tail (.inr .leaveFinal)).tail (.inl .retLeave)
      |>.tail (.inl .stmt)
  exact hwf.transGen.irrefl.irrefl _ hcycle

/-- The calls that are nested in a call are no more than its work. -/
theorem length_le_work {p : Job} {jobs : List Job} (h : (p :: jobs).IsChain Calls) : jobs.length ≤ p.work := by
  induction jobs generalizing p with
  | nil => exact Nat.zero_le _
  | cons q jobs ih =>
    obtain ⟨hq, hjobs⟩ := List.isChain_cons_cons.1 h
    exact Nat.le_trans (Nat.succ_le_succ (ih hjobs)) hq.work_lt

end Job

/-! ### Results -/

/-- The rules of the generator give a piece a listing. -/
def Piece.Ends (p : Piece) (d : Draft) : Prop := ∃ L d', Emits p d L d'

namespace Job

/-- The rules of the generator give a job its result. What is no target has no operands to keep. -/
def Ends (d : Draft) : Job → Prop
  | .expr outer e => Piece.Ends (.expr outer e) d
  | .kind span k => Piece.Ends (.kind span k) d
  | .exprs span es => Piece.Ends (.exprs span es) d
  | .fields span items => Piece.Ends (.fields span items) d
  | .exprThen span after e => Piece.Ends (.exprThen span after e) d
  | .target span k => (Expr.node .unknown k).isAssignable = true → ∃ place, Piece.Ends (.operands span k place) d
  | .store span k => (Expr.node .unknown k).isAssignable = true → Piece.Ends (.save span k) d
  | .callee span argc e => Piece.Ends (.callee span argc e) d
  | .body span name params owner ss => Piece.Ends (.body span name params owner ss) d
  | .methods span className ms => ∃ indices, Piece.Ends (.methods span className ms indices) d
  | .stmt around s => Piece.Ends (.stmt around s) d
  | .stmtOption around s => Piece.Ends (.stmtOption around s) d
  | .stmts around ss => Piece.Ends (.stmts around ss) d
  | .stmtKind around span k => Piece.Ends (.stmtKind around span k) d
  | .returned owner span value => Piece.Ends (.returned owner span value) d
  | .handler around span clause => Piece.Ends (.handler around span clause) d
  | .final around span part => Piece.Ends (.final around span part) d
  | .leave owner span n contexts => Piece.Ends (.leave owner span n contexts) d

/-- The calls of a job give their results. -/
def CallsEnd (p : Job) : Prop := ∀ q, p.Calls q → ∀ d, q.Ends d

variable {span : Span} {around : Surroundings} {d : Draft}

theorem ends_target : ∀ {k}, CallsEnd (.target span k) → Ends d (.target span k)
  | .ident _, _ => fun _ => ⟨_, _, _, .operandsIdent⟩
  | .member object _, h => fun _ => by
    obtain ⟨L, d', hL⟩ := h _ .targetMember (newParked d).2
    exact ⟨_, _, _, .operandsMember hL⟩
  | .index object key, h => fun _ => by
    obtain ⟨L, d₁, hL⟩ := h _ .targetObject (newParked d).2
    obtain ⟨K, d', hK⟩ := h _ .targetKey (newParked d₁).2
    exact ⟨_, _, _, .operandsIndex hL hK⟩
  | .undefined, _ | .null, _ | .bool _, _ | .number _, _ | .string _, _ | .regex _, _ | .array _, _ | .record _, _
  | .this, _ | .not _, _ | .negate _, _ | .update _ _ _, _ | .binary _ _ _, _ | .logical _ _ _, _ | .assign _ _ _, _
  | .conditional _ _ _, _ | .call _ _, _ | .new _ _, _ | .function _ _ _, _ => nofun

theorem ends_store : ∀ {k}, CallsEnd (.store span k) → Ends d (.store span k)
  | .ident _, _ => fun _ => ⟨_, _, .saveIdent⟩
  | .member object _, h => fun _ => by
    obtain ⟨L, d', hL⟩ := h _ .storeMember d
    exact ⟨_, _, .saveMember hL⟩
  | .index object key, h => fun _ => by
    obtain ⟨L, d₁, hL⟩ := h _ .storeObject d
    obtain ⟨K, d', hK⟩ := h _ .storeKey d₁
    exact ⟨_, _, .saveIndex hL hK⟩
  | .undefined, _ | .null, _ | .bool _, _ | .number _, _ | .string _, _ | .regex _, _ | .array _, _ | .record _, _
  | .this, _ | .not _, _ | .negate _, _ | .update _ _ _, _ | .binary _ _ _, _ | .logical _ _ _, _ | .assign _ _ _, _
  | .conditional _ _ _, _ | .call _ _, _ | .new _ _, _ | .function _ _ _, _ => nofun

theorem ends_kind : ∀ {k}, CallsEnd (.kind span k) → Ends d (.kind span k)
  | .undefined, _ | .null, _ | .bool _, _ | .number _, _ | .string _, _ => ⟨_, _, .constant rfl .literal⟩
  | .regex source, _ => by
    cases hp : Pattern.compile source with
    | ok pattern =>
      have hlit : literal? (.regex source) = some (.regex pattern) := by simp only [literal?, hp]
      exact ⟨_, _, .constant hlit .literal⟩
    | error refusal => exact ⟨_, _, .badPattern hp .literal⟩
  | .array items, h => by
    obtain ⟨L, d', hL⟩ := h _ .array d
    exact ⟨_, _, .array hL⟩
  | .record items, h => by
    obtain ⟨L, d', hL⟩ := h _ .record d
    exact ⟨_, _, .record hL⟩
  | .ident _, _ => ⟨_, _, .ident⟩
  | .this, _ => ⟨_, _, .this⟩
  | .member object property, h => by
    obtain ⟨L, d', hL⟩ := h _ .member d
    exact ⟨_, _, .member hL⟩
  | .index object key, h => by
    obtain ⟨L, d₁, hL⟩ := h _ .indexObject d
    obtain ⟨K, d', hK⟩ := h _ .indexKey d₁
    exact ⟨_, _, .index hL hK⟩
  | .not operand, h => by
    obtain ⟨L, d', hL⟩ := h _ .not (d.skip 2)
    exact ⟨_, _, .not hL .literal .literal⟩
  | .negate operand, h => by
    obtain ⟨L, d', hL⟩ := h _ .negate (poolIndex .zero d).2
    exact ⟨_, _, .negate .literal hL⟩
  | .update op giveNew (.node own k), h => by
    by_cases hk : (Expr.node own k).isAssignable = true
    · obtain ⟨place, K, d', hK⟩ := h _ .update d hk
      exact ⟨_, _, .update hK .literal⟩
    · exact ⟨_, _, .badUpdate (Bool.eq_false_iff.2 hk) .literal⟩
  | .binary op left right, h => by
    obtain ⟨L, d₁, hL⟩ := h _ .binaryLeft d
    obtain ⟨R, d', hR⟩ := h _ .binaryRight d₁
    exact ⟨_, _, .binary hL hR⟩
  | .logical op left right, h => by
    obtain ⟨L, d₁, hL⟩ := h _ .logicalLeft (d.skip 2)
    obtain ⟨R, d', hR⟩ := h _ .logicalRight d₁
    exact ⟨_, _, .logical hL hR .literal⟩
  | .assign op (.node own k) value, h => by
    by_cases hk : (Expr.node own k).isAssignable = true
    · cases op with
      | some op =>
        obtain ⟨place, K, d₁, hK⟩ := h _ .assignTarget d hk
        obtain ⟨V, d', hV⟩ := h _ .assignValue d₁
        exact ⟨_, _, .assignOp hK hV⟩
      | none =>
        obtain ⟨V, d₁, hV⟩ := h _ .assignValue d
        obtain ⟨S, d', hS⟩ := h _ .assignStore d₁ hk
        exact ⟨_, _, .assign hV hS⟩
    · exact ⟨_, _, .badAssign (Bool.eq_false_iff.2 hk) .literal⟩
  | .conditional test yes no, h => by
    obtain ⟨T, d₁, hT⟩ := h _ .test (d.skip 2)
    obtain ⟨Y, d₂, hY⟩ := h _ .yes d₁
    obtain ⟨N, d', hN⟩ := h _ .no d₂
    exact ⟨_, _, .conditional hT hY hN⟩
  | .call f args, h => by
    obtain ⟨A, d₁, hA⟩ := h _ .args d
    obtain ⟨C, d', hC⟩ := h _ .callee d₁
    exact ⟨_, _, .call hA hC⟩
  | .new className args, h => by
    obtain ⟨A, d', hA⟩ := h _ .new d
    exact ⟨_, _, .new hA⟩
  | .function name params ss, h => by
    obtain ⟨L, d', hL⟩ := h _ (.lambda d.lambdas) (newLambda d).2
    exact ⟨_, _, .lambda hL⟩

theorem ends_callee {argc : Nat} : ∀ {e}, CallsEnd (.callee span argc e) → Ends d (.callee span argc e)
  | .node own k, h => by
    by_cases hk : isProperty k = true
    · cases k with
      | member object property =>
        obtain ⟨L, d', hL⟩ := h _ .calleeMember d
        exact ⟨_, _, .calleeMember hL⟩
      | index object key =>
        obtain ⟨L, d₁, hL⟩ := h _ .calleeObject d
        obtain ⟨K, d', hK⟩ := h _ .calleeKey d₁
        exact ⟨_, _, .calleeIndex hL hK⟩
      | _ => cases hk
    · obtain ⟨L, d', hL⟩ := h _ .calleeOther d
      exact ⟨_, _, .calleeOther (Bool.eq_false_iff.2 hk) hL⟩

theorem ends_stmtKind : ∀ {k}, CallsEnd (.stmtKind around span k) → Ends d (.stmtKind around span k)
  | .expr e, h => by
    obtain ⟨L, d', hL⟩ := h _ .exprStmt d
    exact ⟨_, _, .exprStmt hL⟩
  | .var name init, h => by
    obtain ⟨L, d', hL⟩ := h _ .var d
    exact ⟨_, _, .var hL⟩
  | .block ss, h => by
    obtain ⟨L, d', hL⟩ := h _ .block d
    exact ⟨_, _, .block hL⟩
  | .cond test yes no, h => by
    obtain ⟨T, d₁, hT⟩ := h _ .condTest (d.skip 2)
    obtain ⟨Y, d₂, hY⟩ := h _ .condYes d₁
    obtain ⟨N, d', hN⟩ := h _ .condNo d₂
    exact ⟨_, _, .cond hT hY hN⟩
  | .while test inner, h => by
    obtain ⟨T, d₁, hT⟩ := h _ .whileTest (d.skip 2)
    obtain ⟨B, d', hB⟩ := h _ (.whileBody d.labels (d.labels + 1)) d₁
    exact ⟨_, _, .while hT hB⟩
  | .for init test update inner, h => by
    obtain ⟨I, d₁, hI⟩ := h _ .forInit (d.skip 3)
    obtain ⟨T, d₂, hT⟩ := h _ (.forTest (d.labels + 2)) d₁
    obtain ⟨B, d₃, hB⟩ := h _ (.forBody (d.labels + 1) (d.labels + 2)) d₂
    obtain ⟨U, d', hU⟩ := h _ .forUpdate d₃
    exact ⟨_, _, .for hI hT hB hU⟩
  | .break, h => by
    cases hloop : innermostLoop? around.contexts with
    | none => exact ⟨_, _, .strayBreak hloop⟩
    | some found =>
      obtain ⟨L, d', hL⟩ := h _ (.break hloop) d
      exact ⟨_, _, .break hloop hL⟩
  | .continue, h => by
    cases hloop : innermostLoop? around.contexts with
    | none => exact ⟨_, _, .strayContinue hloop⟩
    | some found =>
      obtain ⟨L, d', hL⟩ := h _ (.continue hloop) d
      exact ⟨_, _, .continue hloop hL⟩
  | .ret value, h => by
    by_cases hs : around.body = .script
    · exact ⟨_, _, .strayReturn hs⟩
    · obtain ⟨V, d₁, hV⟩ := h _ .ret d
      by_cases hc : around.contexts = []
      · exact ⟨_, _, .ret hs hc hV⟩
      · obtain ⟨L, d', hL⟩ := h _ .retLeave d₁
        exact ⟨_, _, .retLeaving hs hc hV hL⟩
  | .throw value, h => by
    obtain ⟨L, d', hL⟩ := h _ .throw d
    exact ⟨_, _, .throw hL⟩
  | .try inner clause part, h => by
    obtain ⟨B, d₁, hB⟩ := h _ .tryBody (d.skip 3)
    obtain ⟨H, d₂, hH⟩ := h _ .tryHandler d₁
    obtain ⟨F, d₃, hF⟩ := h _ .tryFailing d₂
    obtain ⟨E, d', hE⟩ := h _ .tryEnding d₃
    exact ⟨_, _, .try hB hH hF hE⟩
  | .function name params ss, h => by
    obtain ⟨L, d', hL⟩ := h _ .function d
    exact ⟨_, _, .functionStmt hL⟩
  | .class name ms, h => by
    cases hc : (d.classes.lookup name).isSome with
    | true => exact ⟨_, _, .repeatedClass hc⟩
    | false =>
      obtain ⟨indices, L, d', hL⟩ := h _ .class d
      exact ⟨_, _, .class hc hL⟩
  | .debugger, _ => ⟨_, _, .debugger⟩
  | .empty, _ => ⟨_, _, .empty⟩

theorem ends_leave {owner : BodyKind} :
    ∀ {n contexts}, CallsEnd (.leave owner span n contexts) → Ends d (.leave owner span n contexts)
  | 0, _, _ => ⟨_, _, .leaveZero⟩
  | _ + 1, [], _ => ⟨_, _, .leaveNil⟩
  | _ + 1, .loop _ _ :: _, h => by
    obtain ⟨L, d', hL⟩ := h _ .leaveRest d
    exact ⟨_, _, .leaveLoop hL⟩
  | _ + 1, .region _ :: _, h => by
    obtain ⟨F, d₁, hF⟩ := h _ .leaveFinal d
    obtain ⟨L, d', hL⟩ := h _ .leaveRest d₁
    exact ⟨_, _, .leaveRegion hF hL⟩
  | _ + 1, .pendingThrow :: _, h => by
    obtain ⟨L, d', hL⟩ := h _ .leaveRest d
    exact ⟨_, _, .leavePending hL⟩

/-- **A job needs no result but those of its calls.** -/
theorem ends_of_calls : ∀ {p : Job}, p.CallsEnd → ∀ d, p.Ends d
  | .expr _ (.node _ _), h, d => by
    obtain ⟨L, d', hL⟩ := h _ .expr d
    exact ⟨_, _, .expr hL⟩
  | .kind _ _, h, _ => ends_kind h
  | .exprs _ [], _, _ => ⟨_, _, .exprsNil⟩
  | .exprs _ (_ :: _), h, d => by
    obtain ⟨L, d₁, hL⟩ := h _ .exprsHead d
    obtain ⟨R, d', hR⟩ := h _ .exprsTail d₁
    exact ⟨_, _, .exprsCons hL hR⟩
  | .fields _ [], _, _ => ⟨_, _, .fieldsNil⟩
  | .fields _ ((_, _) :: _), h, d => by
    obtain ⟨L, d₁, hL⟩ := h _ .fieldsHead d
    obtain ⟨R, d', hR⟩ := h _ .fieldsTail d₁
    exact ⟨_, _, .fieldsCons hL hR⟩
  | .exprThen _ _ none, _, _ => ⟨_, _, .exprThenNone⟩
  | .exprThen _ _ (some _), h, d => by
    obtain ⟨L, d', hL⟩ := h _ .exprThen d
    exact ⟨_, _, .exprThenSome hL⟩
  | .target _ _, h, _ => ends_target h
  | .store _ _, h, _ => ends_store h
  | .callee _ _ _, h, _ => ends_callee h
  | .body span name params owner ss, h, d => by
    obtain ⟨L, d₁, hL⟩ := h _ .body (openBody name params d).2
    obtain ⟨F, hF, -⟩ := follows_finish owner span L d₁
    exact ⟨_, _, .body hL hF⟩
  | .methods _ _ [], _, _ => ⟨_, _, _, .methodsNil⟩
  | .methods _ _ (.node _ _ _ :: _), h, d => by
    obtain ⟨L, d₁, hL⟩ := h _ .method d
    obtain ⟨indices, R, d', hR⟩ := h _ .methodsTail d₁
    exact ⟨_, _, _, .methodsCons hL hR⟩
  | .stmt _ (.node _ _), h, d => by
    obtain ⟨L, d', hL⟩ := h _ .stmt d
    exact ⟨_, _, .stmt hL⟩
  | .stmtOption _ none, _, _ => ⟨_, _, .stmtNone⟩
  | .stmtOption _ (some _), h, d => by
    obtain ⟨L, d', hL⟩ := h _ .stmtOption d
    exact ⟨_, _, .stmtSome hL⟩
  | .stmts _ [], _, _ => ⟨_, _, .stmtsNil⟩
  | .stmts _ (_ :: _), h, d => by
    obtain ⟨L, d₁, hL⟩ := h _ .stmtsHead d
    obtain ⟨R, d', hR⟩ := h _ .stmtsTail d₁
    exact ⟨_, _, .stmtsCons hL hR⟩
  | .stmtKind _ _ _, h, _ => ends_stmtKind h
  | .returned owner span none, _, d => by
    obtain ⟨L, hL, -⟩ := follows_default owner span d
    exact ⟨_, _, .returnedNone hL⟩
  | .returned _ _ (some _), h, d => by
    obtain ⟨L, d', hL⟩ := h _ .returned d
    exact ⟨_, _, .returnedSome hL⟩
  | .handler _ _ none, _, _ => ⟨_, _, .noHandler⟩
  | .handler _ _ (some (.clause (some _) _)), h, d => by
    obtain ⟨L, d', hL⟩ := h _ .handler d
    exact ⟨_, _, .handlerParam hL⟩
  | .handler _ _ (some (.clause none _)), h, d => by
    obtain ⟨L, d', hL⟩ := h _ .handler d
    exact ⟨_, _, .handler hL⟩
  | .final _ _ none, _, _ => ⟨_, _, .finalNone⟩
  | .final _ _ (some _), h, d => by
    obtain ⟨L, d', hL⟩ := h _ .final d
    exact ⟨_, _, .finalSome hL⟩
  | .leave _ _ _ _, h, _ => ends_leave h

/-- Every job comes to its result. -/
theorem ends (p : Job) : ∀ d, p.Ends d :=
  wellFounded_calls.induction p fun _ ih => ends_of_calls ih

end Job

/-! ### Rules and calls -/

/-- The job whose result a piece is. Constants, results by default and the ends of bodies need no tree. -/
def Piece.job? : Piece → Option Job
  | .expr outer e => some (.expr outer e)
  | .kind span k => some (.kind span k)
  | .exprs span es => some (.exprs span es)
  | .fields span items => some (.fields span items)
  | .exprThen span after e => some (.exprThen span after e)
  | .operands span k _ => some (.target span k)
  | .save span k => some (.store span k)
  | .callee span argc e => some (.callee span argc e)
  | .body span name params owner ss => some (.body span name params owner ss)
  | .methods span className ms _ => some (.methods span className ms)
  | .stmt around s => some (.stmt around s)
  | .stmtOption around s => some (.stmtOption around s)
  | .stmts around ss => some (.stmts around ss)
  | .stmtKind around span k => some (.stmtKind around span k)
  | .returned owner span value => some (.returned owner span value)
  | .handler around span clause => some (.handler around span clause)
  | .final around span part => some (.final around span part)
  | .leave owner span n contexts => some (.leave owner span n contexts)
  | .literal _ _ | .default _ _ | .finish _ _ _ => none

namespace Emission

open Segment

/-- If one piece is the result of a job, another is the result of a job that calls it. -/
def CalledBy (e e' : Emission) : Prop := ∀ q, e'.piece.job? = some q → ∃ p, e.piece.job? = some p ∧ p.Calls q

theorem CalledBy.of {e e' : Emission} {p q : Job} (hcall : p.Calls q) (hp : e.piece.job? = some p := by rfl)
    (hq : e'.piece.job? = some q := by rfl) : e.CalledBy e' := fun _ hq' =>
  ⟨p, hp, Option.some.inj (hq.symm.trans hq') ▸ hcall⟩

/-- What needs no tree is called by anything. -/
theorem CalledBy.treeless {e e' : Emission} (hnone : e'.piece.job? = none := by rfl) : e.CalledBy e' := fun q hq => by
  rw [hnone] at hq
  cases hq

/-- Each rule puts a listing together from the results of calls. -/
theorem Splits.called {e : Emission} {segments : List Segment} (h : e.Splits segments) :
    Parts e.CalledBy segments := by
  cases h with
  | literal | ident | this | exprsNil | fieldsNil | exprThenNone | operandsIdent | saveIdent | defaultConstructor
  | finished | methodsNil | stmtNone | stmtsNil | strayBreak | strayContinue | strayReturn | repeatedClass | debugger
  | empty | noHandler | finalNone | leaveZero | leaveNil => trivial
  | constant | badPattern | badUpdate | badAssign | defaultOther | unfinished | returnedNone =>
    exact ⟨.treeless, trivial⟩
  | expr => exact ⟨.of .expr, trivial⟩
  | array => exact ⟨.of .array, trivial⟩
  | record => exact ⟨.of .record, trivial⟩
  | member => exact ⟨.of .member, trivial⟩
  | index => exact ⟨.of .indexObject, .of .indexKey, trivial⟩
  | not => exact ⟨.of .not, .treeless, .treeless, trivial⟩
  | negate => exact ⟨.treeless, .of .negate, trivial⟩
  | @update _ _ _ _ place | @updateOld _ _ _ _ place => cases place <;> exact ⟨.of .update, .treeless, trivial⟩
  | binary => exact ⟨.of .binaryLeft, .of .binaryRight, trivial⟩
  | logical => exact ⟨.of .logicalLeft, .of .logicalRight, .treeless, trivial⟩
  | @assignOp _ _ _ _ _ place => cases place <;> exact ⟨.of .assignTarget, .of .assignValue, trivial⟩
  | assign => exact ⟨.of .assignValue, .of .assignStore, trivial⟩
  | conditional => exact ⟨.of .test, .of .yes, .of .no, trivial⟩
  | call => exact ⟨.of .args, .of .callee, trivial⟩
  | new => exact ⟨.of .new, trivial⟩
  | lambda => exact ⟨.of (.lambda _), trivial⟩
  | exprsCons => exact ⟨.of .exprsHead, .of .exprsTail, trivial⟩
  | fieldsCons => exact ⟨.of .fieldsHead, .of .fieldsTail, trivial⟩
  | exprThenSome => exact ⟨.of .exprThen, trivial⟩
  | operandsMember => exact ⟨.of .targetMember, trivial⟩
  | operandsIndex => exact ⟨.of .targetObject, .of .targetKey, trivial⟩
  | saveMember => exact ⟨.of .storeMember, trivial⟩
  | saveIndex => exact ⟨.of .storeObject, .of .storeKey, trivial⟩
  | calleeMember => exact ⟨.of .calleeMember, trivial⟩
  | calleeIndex => exact ⟨.of .calleeObject, .of .calleeKey, trivial⟩
  | calleeOther => exact ⟨.of .calleeOther, trivial⟩
  | methodsCons => exact ⟨.of .method, .of .methodsTail, trivial⟩
  | stmt => exact ⟨.of .stmt, trivial⟩
  | stmtSome => exact ⟨.of .stmtOption, trivial⟩
  | stmtsCons => exact ⟨.of .stmtsHead, .of .stmtsTail, trivial⟩
  | exprStmt => exact ⟨.of .exprStmt, trivial⟩
  | var => exact ⟨.of .var, trivial⟩
  | block => exact ⟨.of .block, trivial⟩
  | cond => exact ⟨.of .condTest, .of .condYes, .of .condNo, trivial⟩
  | «while» => exact ⟨.of .whileTest, .of (.whileBody _ _), trivial⟩
  | «for» => exact ⟨.of .forInit, .of (.forTest _), .of (.forBody _ _), .of .forUpdate, trivial⟩
  | «break» hn => exact ⟨.of (.break hn), trivial⟩
  | «continue» hn => exact ⟨.of (.continue hn), trivial⟩
  | ret => exact ⟨.of .ret, trivial⟩
  | retLeaving => exact ⟨.of .ret, .of .retLeave, trivial⟩
  | throw => exact ⟨.of .throw, trivial⟩
  | «try» => exact ⟨.of .tryBody, .of .tryHandler, .of .tryFailing, .of .tryEnding, trivial⟩
  | functionStmt => exact ⟨.of .function, trivial⟩
  | «class» => exact ⟨.of .class, trivial⟩
  | returnedSome => exact ⟨.of .returned, trivial⟩
  | handlerParam | handler => exact ⟨.of .handler, trivial⟩
  | finalSome => exact ⟨.of .final, trivial⟩
  | leaveLoop | leavePending => exact ⟨.of .leaveRest, trivial⟩
  | leaveRegion => exact ⟨.of .leaveFinal, .of .leaveRest, trivial⟩

/-- The rule by which a piece became its listing uses the result of another piece. -/
inductive Uses : Emission → Emission → Prop where
  | part {e e' : Emission} {before after : List Segment} : e.Splits (before ++ .part e' :: after) → Uses e e'
  | statements {span name params kind ss d L d₁ F d₂}
      (hL : Emits (.stmts { body := kind } ss) (openBody name params d).2 L d₁)
      (hF : Emits (.finish kind span L) d₁ F d₂) : Uses (.of (.body hL hF)) (.of hL)
  | ending {span name params kind ss d L d₁ F d₂}
      (hL : Emits (.stmts { body := kind } ss) (openBody name params d).2 L d₁)
      (hF : Emits (.finish kind span L) d₁ F d₂) : Uses (.of (.body hL hF)) (.of hF)

/-- **The rules use results of calls only.** -/
theorem Uses.calledBy {e e' : Emission} (h : e.Uses e') : e.CalledBy e' := by
  cases h with
  | part hsplit => exact hsplit.called.of_part
  | statements => exact .of .body
  | ending => exact .treeless

end Emission

/-- **Compilation ends for every script.** No chain of calls of the generator goes on forever, whatever the tree and
whatever the contexts, those that an exit leaves included. The rule by which a job gets its result uses nothing but
results of calls that the job makes, and it needs nothing else, so that the rules give every call its result. For a
script no more calls are ever nested than twice the size of the script, and what the rules give is the code and the
draft of the script. -/
theorem compilation_terminates :
    WellFounded (fun q p : Job => p.Calls q) ∧
    (∀ e e' : Emission, e.Uses e' → ∀ q, e'.piece.job? = some q → ∃ p, e.piece.job? = some p ∧ p.Calls q) ∧
    (∀ p : Job, p.CallsEnd → ∀ d, p.Ends d) ∧ (∀ (p : Job) d, p.Ends d) ∧
    ∀ script : Script,
      (∀ jobs, (Job.stmts { body := .script } script.body :: jobs).IsChain Job.Calls →
        jobs.length ≤ 2 * sizeOf script.body) ∧
      ∃ L d, Emits (.stmts { body := .script } script.body) {} L d ∧
        script.draft = (L.code ++ emit .unknown [.eof], d) := by
  refine ⟨Job.wellFounded_calls, fun _ _ h => h.calledBy, fun p => Job.ends_of_calls, Job.ends, fun script =>
    ⟨fun jobs h => ?_, ?_⟩⟩
  · have hdepth := Job.length_le_work h
    simpa [Job.work, Surroundings.weight, weight] using hdepth
  · obtain ⟨L, hL, hcode⟩ := emits_draft script
    exact ⟨L, _, hL, Prod.ext hcode rfl⟩

end ScriptMachine.Compile
