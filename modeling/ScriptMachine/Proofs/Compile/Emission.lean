import ScriptMachine.Proofs.Compile.Listing

/-!
# Emission — the generator follows the rules

Every function of the generator gives the code of a listing that `Emits` allows. The functions are
mutually recursive along the measure of the generator, and so are these proofs.
-/

namespace ScriptMachine.Compile

open Listing

/-- The generator does for a piece what the rules say. -/
def Follows (p : Piece) (g : Gen Code) : Prop :=
  ∀ d, ∃ L, Emits p d L (g d).2 ∧ L.code = (g d).1

theorem gen_bind {α β : Type} (x : Gen α) (f : α → Gen β) (d : Draft) :
    (x >>= f) d = f (x d).1 (x d).2 := rfl

theorem follows_default (kind : BodyKind) (span : Span) :
    Follows (.default kind span) (defaultResult kind span) := by
  intro d
  cases kind with
  | constructor => exact ⟨_, .defaultConstructor, rfl⟩
  | script => exact ⟨_, .defaultOther nofun .literal, rfl⟩
  | function => exact ⟨_, .defaultOther nofun .literal, rfl⟩

theorem follows_finish (kind : BodyKind) (span : Span) (L : Listing) :
    Follows (.finish kind span L) (finishBody kind span L.code) := by
  intro d
  unfold finishBody
  by_cases h : lastOp? L.code = some .ret
  · rw [if_pos h]
    exact ⟨L, .finished h, rfl⟩
  · rw [if_neg h]
    obtain ⟨D, hD, cD⟩ := follows_default kind span d
    exact ⟨_, .unfinished h hD, by simp only [code_append, code_asm, cD]; rfl⟩

mutual

theorem follows_expr (outer : Span) : ∀ e, Follows (.expr outer e) (expr outer e)
  | .node own k => by
    intro d
    obtain ⟨L, hL, cL⟩ := follows_kind (outer.refine own) k d
    rw [expr]
    exact ⟨L, .expr hL, cL⟩
termination_by e => 2 * sizeOf e

theorem follows_kind (span : Span) : ∀ k, Follows (.kind span k) (exprKind span k)
  | .undefined => fun d => by rw [exprKind]; exact ⟨_, .constant rfl .literal, rfl⟩
  | .null => fun d => by rw [exprKind]; exact ⟨_, .constant rfl .literal, rfl⟩
  | .bool b => fun d => by rw [exprKind]; exact ⟨_, .constant rfl .literal, rfl⟩
  | .number bits => fun d => by rw [exprKind]; exact ⟨_, .constant rfl .literal, rfl⟩
  | .string s => fun d => by rw [exprKind]; exact ⟨_, .constant rfl .literal, rfl⟩
  | .regex source => by
    intro d
    rw [exprKind]
    cases h : Pattern.compile source with
    | ok pattern => exact ⟨_, .constant (by simp only [literal?, h]) .literal, rfl⟩
    | error refusal => exact ⟨_, .badPattern h .literal, rfl⟩
  | .array items => by
    intro d
    obtain ⟨L, hL, cL⟩ := follows_exprs span items d
    rw [exprKind]
    exact ⟨_, .array hL, by simp only [code_append, code_asm, cL]; rfl⟩
  | .record fields => by
    intro d
    obtain ⟨L, hL, cL⟩ := follows_fields span fields d
    rw [exprKind]
    exact ⟨_, .record hL, by simp only [code_append, code_asm, cL]; rfl⟩
  | .ident name => fun d => by rw [exprKind]; exact ⟨_, .ident, rfl⟩
  | .this => fun d => by rw [exprKind]; exact ⟨_, .this, rfl⟩
  | .member object property => by
    intro d
    obtain ⟨L, hL, cL⟩ := follows_expr span object d
    rw [exprKind]
    exact ⟨_, .member hL, by simp only [code_append, code_asm, cL]; rfl⟩
  | .index object key => by
    intro d
    obtain ⟨L, hL, cL⟩ := follows_expr span object d
    obtain ⟨K, hK, cK⟩ := follows_expr span key (expr span object d).2
    rw [exprKind]
    exact ⟨_, .index hL hK, by simp only [code_append, code_asm, cL, cK]; rfl⟩
  | .not operand => by
    intro d
    obtain ⟨L, hL, cL⟩ := follows_expr span operand (d.skip 2)
    rw [exprKind]
    exact ⟨_, .not hL .literal .literal, by simp only [code_append, code_asm, cL]; rfl⟩
  | .negate operand => by
    intro d
    obtain ⟨L, hL, cL⟩ := follows_expr span operand (poolIndex .zero d).2
    rw [exprKind]
    exact ⟨_, .negate .literal hL, by simp only [code_append, code_asm, cL]; rfl⟩
  | .update op giveNew (.node own k) => by
    intro d
    rw [exprKind]
    rcases follows_target span k with ⟨hk, ht⟩ | ht
    · rw [ht]
      exact ⟨_, .badUpdate hk .literal, rfl⟩
    · obtain ⟨place, K, hK, ht⟩ := ht d
      rw [gen_bind, ht]
      refine ⟨_, .update hK .literal, ?_⟩
      rw [code_around]
      cases giveNew <;> rfl
  | .binary op left right => by
    intro d
    obtain ⟨L, hL, cL⟩ := follows_expr span left d
    obtain ⟨R, hR, cR⟩ := follows_expr span right (expr span left d).2
    rw [exprKind]
    exact ⟨_, .binary hL hR, by simp only [code_append, code_asm, cL, cR]; rfl⟩
  | .logical op left right => by
    intro d
    obtain ⟨L, hL, cL⟩ := follows_expr span left (d.skip 2)
    obtain ⟨R, hR, cR⟩ := follows_expr span right (expr span left (d.skip 2)).2
    rw [exprKind]
    cases op with
    | and => exact ⟨_, .logical hL hR .literal, by simp only [code_append, code_asm, cL, cR]; rfl⟩
    | or => exact ⟨_, .logical hL hR .literal, by simp only [code_append, code_asm, cL, cR]; rfl⟩
  | .assign (some op) (.node own k) value => by
    intro d
    rw [exprKind]
    rcases follows_target span k with ⟨hk, ht⟩ | ht
    · rw [ht]
      exact ⟨_, .badAssign hk .literal, rfl⟩
    · obtain ⟨place, K, hK, ht⟩ := ht d
      obtain ⟨V, hV, cV⟩ := follows_expr span value (target span k d).2
      rw [gen_bind, ht]
      exact ⟨_, .assignOp hK hV, by simp only [code_around, code_append, code_asm, code_ops, cV]; rfl⟩
  | .assign none (.node own k) value => by
    intro d
    rw [exprKind]
    by_cases hk : (Expr.node .unknown k).isAssignable = true
    · obtain ⟨V, hV, cV⟩ := follows_expr span value d
      obtain ⟨S, hS, cS⟩ := follows_save span k hk (expr span value d).2
      rw [if_pos hk]
      exact ⟨_, .assign hV hS, by simp only [code_append, code_asm, cV, cS]; rfl⟩
    · rw [if_neg hk]
      exact ⟨_, .badAssign (Bool.not_eq_true _ ▸ hk : (Expr.node .unknown k).isAssignable = false)
        .literal, rfl⟩
  | .conditional test yes no => by
    intro d
    obtain ⟨T, hT, cT⟩ := follows_expr span test (d.skip 2)
    obtain ⟨Y, hY, cY⟩ := follows_expr span yes (expr span test (d.skip 2)).2
    obtain ⟨N, hN, cN⟩ := follows_expr span no (expr span yes (expr span test (d.skip 2)).2).2
    rw [exprKind]
    exact ⟨_, .conditional hT hY hN, by simp only [code_append, code_asm, cT, cY, cN]; rfl⟩
  | .call callee args => by
    intro d
    obtain ⟨A, hA, cA⟩ := follows_exprs span args d
    obtain ⟨C, hC, cC⟩ := follows_callee span args.length callee (exprs span args d).2
    rw [exprKind]
    exact ⟨_, .call hA hC, by simp only [code_append, cA, cC]; rfl⟩
  | .new className args => by
    intro d
    obtain ⟨A, hA, cA⟩ := follows_exprs span args d
    rw [exprKind]
    exact ⟨_, .new hA, by simp only [code_append, code_asm, cA]; rfl⟩
  | .function name params ss => by
    intro d
    have hb := follows_body span (lambdaName name d.lambdas) params .function ss (newLambda d).2
    rw [exprKind]
    exact ⟨_, .lambda hb.1, rfl⟩
termination_by k => 2 * sizeOf k

theorem follows_exprs (span : Span) : ∀ es, Follows (.exprs span es) (exprs span es)
  | [] => fun d => by rw [exprs]; exact ⟨_, .exprsNil, rfl⟩
  | e :: rest => by
    intro d
    obtain ⟨L, hL, cL⟩ := follows_expr span e d
    obtain ⟨R, hR, cR⟩ := follows_exprs span rest (expr span e d).2
    rw [exprs]
    exact ⟨_, .exprsCons hL hR, by simp only [code_append, cL, cR]; rfl⟩
termination_by es => 2 * sizeOf es

theorem follows_fields (span : Span) : ∀ fields, Follows (.fields span fields) (fieldValues span fields)
  | [] => fun d => by rw [fieldValues]; exact ⟨_, .fieldsNil, rfl⟩
  | (_, e) :: rest => by
    intro d
    obtain ⟨L, hL, cL⟩ := follows_expr span e d
    obtain ⟨R, hR, cR⟩ := follows_fields span rest (expr span e d).2
    rw [fieldValues]
    exact ⟨_, .fieldsCons hL hR, by simp only [code_append, cL, cR]; rfl⟩
termination_by fields => 2 * sizeOf fields

theorem follows_exprThen (span : Span) (after : List Opcode) :
    ∀ e, Follows (.exprThen span after e) (exprThen span after e)
  | none => fun d => by rw [exprThen]; exact ⟨_, .exprThenNone, rfl⟩
  | some e => by
    intro d
    obtain ⟨L, hL, cL⟩ := follows_expr span e d
    rw [exprThen]
    exact ⟨_, .exprThenSome hL, by simp only [code_append, code_asm, cL]; rfl⟩
termination_by e => 2 * sizeOf e

/-- Either an expression is no target, or its operands are kept. -/
theorem follows_target (span : Span) : ∀ k,
    ((Expr.node .unknown k).isAssignable = false ∧ target span k = pure none) ∨
      ∀ d, ∃ place K, Emits (.operands span k place) d K (target span k d).2 ∧
        (target span k d).1 = some (place, K.code)
  | .ident name => .inr fun d => by
    rw [target]
    exact ⟨_, _, .operandsIdent, rfl⟩
  | .member object property => .inr fun d => by
    obtain ⟨L, hL, cL⟩ := follows_expr span object (newParked d).2
    rw [target]
    exact ⟨_, _, .operandsMember hL, by simp only [code_append, code_ops, cL]; rfl⟩
  | .index object key => .inr fun d => by
    obtain ⟨L, hL, cL⟩ := follows_expr span object (newParked d).2
    obtain ⟨K, hK, cK⟩ := follows_expr span key (newParked (expr span object (newParked d).2).2).2
    rw [target]
    exact ⟨_, _, .operandsIndex hL hK, by simp only [code_append, code_ops, cL, cK]; rfl⟩
  | .undefined | .null | .bool _ | .number _ | .string _ | .regex _ | .array _ | .record _ | .this
  | .not _ | .negate _ | .update _ _ _ | .binary _ _ _ | .logical _ _ _ | .assign _ _ _
  | .conditional _ _ _ | .call _ _ | .new _ _ | .function _ _ _ => .inl ⟨rfl, by rw [target]; all_goals nofun⟩
termination_by k => 2 * sizeOf k

theorem follows_save (span : Span) : ∀ k, (Expr.node .unknown k).isAssignable = true →
    Follows (.save span k) (storeTo span k)
  | .ident name => fun _ d => by rw [storeTo]; exact ⟨_, .saveIdent, rfl⟩
  | .member object property => by
    intro _ d
    obtain ⟨L, hL, cL⟩ := follows_expr span object d
    rw [storeTo]
    exact ⟨_, .saveMember hL, by simp only [code_append, code_asm, cL]; rfl⟩
  | .index object key => by
    intro _ d
    obtain ⟨L, hL, cL⟩ := follows_expr span object d
    obtain ⟨K, hK, cK⟩ := follows_expr span key (expr span object d).2
    rw [storeTo]
    exact ⟨_, .saveIndex hL hK, by simp only [code_append, code_asm, cL, cK]; rfl⟩
  | .undefined | .null | .bool _ | .number _ | .string _ | .regex _ | .array _ | .record _ | .this
  | .not _ | .negate _ | .update _ _ _ | .binary _ _ _ | .logical _ _ _ | .assign _ _ _
  | .conditional _ _ _ | .call _ _ | .new _ _ | .function _ _ _ => nofun
termination_by k => 2 * sizeOf k

theorem follows_callee (span : Span) (argc : Nat) : ∀ e, Follows (.callee span argc e) (calleeCode span argc e)
  | .node own k => by
    intro d
    by_cases hk : isProperty k = true
    · cases k with
      | member object property =>
        obtain ⟨L, hL, cL⟩ := follows_expr span object d
        rw [calleeCode]
        exact ⟨_, .calleeMember hL, by simp only [code_append, code_asm, cL]; rfl⟩
      | index object key =>
        obtain ⟨L, hL, cL⟩ := follows_expr span object d
        obtain ⟨K, hK, cK⟩ := follows_expr span key (expr span object d).2
        rw [calleeCode]
        exact ⟨_, .calleeIndex hL hK, by simp only [code_append, code_asm, cL, cK]; rfl⟩
      | _ => cases hk
    · obtain ⟨L, hL, cL⟩ := follows_kind (span.refine own) k d
      rw [calleeCode]
      · exact ⟨_, .calleeOther (Bool.not_eq_true _ ▸ hk : isProperty k = false) hL,
          by simp only [code_append, code_asm, cL]; rfl⟩
      · rintro object property rfl
        exact hk rfl
      · rintro object key rfl
        exact hk rfl
termination_by e => 2 * sizeOf e

theorem follows_body (span : Span) (name : String) (params : List String) (kind : BodyKind)
    (ss : List Stmt) (d : Draft) :
    Emits (.body span name params kind ss) d (.ops []) (function span name params kind ss d).2 ∧
      (function span name params kind ss d).1 = d.bodies.size := by
  obtain ⟨L, hL, cL⟩ := follows_stmts { body := kind } ss (openBody name params d).2
  obtain ⟨F, hF, cF⟩ := follows_finish kind span L (stmts { body := kind } ss (openBody name params d).2).2
  rw [cL] at hF cF
  have hb := Emits.body hL hF
  rw [cF] at hb
  rw [function]
  exact ⟨hb, rfl⟩
termination_by 2 * sizeOf ss + 1
decreasing_by simp [Surroundings.weight, weight]

theorem follows_methods (span : Span) (className : String) : ∀ ms d,
    ∃ L, Emits (.methods span className ms (methods span className ms d).1) d L (methods span className ms d).2
  | [], d => by rw [methods]; exact ⟨_, .methodsNil⟩
  | .node name params ss :: rest, d => by
    obtain ⟨hb, hi⟩ := follows_body span (ScriptFunction.methodName className name) params (methodKind name) ss d
    obtain ⟨R, hR⟩ := follows_methods span className rest
      (function span (ScriptFunction.methodName className name) params (methodKind name) ss d).2
    have hm := Emits.methodsCons hb hR
    rw [← hi] at hm
    rw [methods]
    exact ⟨_, hm⟩
termination_by ms => 2 * sizeOf ms

theorem follows_stmt (around : Surroundings) : ∀ s, Follows (.stmt around s) (stmt around s)
  | .node span k => by
    intro d
    obtain ⟨L, hL, cL⟩ := follows_stmtKind around span k d
    rw [stmt]
    exact ⟨_, .stmt hL, by rw [code_stmt, cL]; rfl⟩
termination_by s => 2 * sizeOf s + around.weight

theorem follows_stmtOption (around : Surroundings) :
    ∀ s, Follows (.stmtOption around s) (stmtOption around s)
  | none => fun d => by rw [stmtOption]; exact ⟨_, .stmtNone, rfl⟩
  | some s => by
    intro d
    obtain ⟨L, hL, cL⟩ := follows_stmt around s d
    rw [stmtOption]
    exact ⟨_, .stmtSome hL, cL⟩
termination_by s => 2 * sizeOf s + around.weight

theorem follows_stmts (around : Surroundings) : ∀ ss, Follows (.stmts around ss) (stmts around ss)
  | [] => fun d => by rw [stmts]; exact ⟨_, .stmtsNil, rfl⟩
  | s :: rest => by
    intro d
    obtain ⟨L, hL, cL⟩ := follows_stmt around s d
    obtain ⟨R, hR, cR⟩ := follows_stmts around rest (stmt around s d).2
    rw [stmts]
    exact ⟨_, .stmtsCons hL hR, by simp only [code_append, cL, cR]; rfl⟩
termination_by ss => 2 * sizeOf ss + around.weight

theorem follows_stmtKind (around : Surroundings) (span : Span) :
    ∀ k, Follows (.stmtKind around span k) (stmtKind around span k)
  | .expr e => by
    intro d
    obtain ⟨L, hL, cL⟩ := follows_expr span e d
    rw [stmtKind]
    exact ⟨_, .exprStmt hL, by simp only [code_append, code_asm, cL]; rfl⟩
  | .var name init => by
    intro d
    obtain ⟨L, hL, cL⟩ := follows_exprThen span [.store name] init d
    rw [stmtKind]
    exact ⟨_, .var hL, by simp only [code_append, code_asm, cL]; rfl⟩
  | .block ss => by
    intro d
    obtain ⟨L, hL, cL⟩ := follows_stmts around ss d
    rw [stmtKind]
    exact ⟨_, .block hL, by simp only [code_within, cL]; rfl⟩
  | .cond test yes no => by
    intro d
    obtain ⟨T, hT, cT⟩ := follows_expr span test (d.skip 2)
    obtain ⟨Y, hY, cY⟩ := follows_stmt around yes (expr span test (d.skip 2)).2
    obtain ⟨N, hN, cN⟩ := follows_stmtOption around no (stmt around yes (expr span test (d.skip 2)).2).2
    rw [stmtKind]
    exact ⟨_, .cond hT hY hN, by simp only [code_append, code_asm, cT, cY, cN]; rfl⟩
  | .while test body => by
    intro d
    obtain ⟨T, hT, cT⟩ := follows_expr span test (d.skip 2)
    obtain ⟨B, hB, cB⟩ := follows_stmt (around.inside (.loop d.labels (d.labels + 1))) body
      (expr span test (d.skip 2)).2
    rw [stmtKind]
    exact ⟨_, .while hT hB, by simp only [code_append, code_asm, cT, cB]; rfl⟩
  | .for init test update body => by
    intro d
    obtain ⟨I, hI, cI⟩ := follows_stmtOption around init (d.skip 3)
    obtain ⟨T, hT, cT⟩ := follows_exprThen span [.jumpFalse (d.labels + 2)] test
      (stmtOption around init (d.skip 3)).2
    obtain ⟨B, hB, cB⟩ := follows_stmt (around.inside (.loop (d.labels + 1) (d.labels + 2))) body _
    obtain ⟨U, hU, cU⟩ := follows_exprThen span [.pop] update _
    rw [stmtKind]
    exact ⟨_, .for hI hT hB hU,
      by simp only [code_within, code_append, code_asm, cI, cT, cB, cU]; rfl⟩
  | .break => by
    intro d
    rw [stmtKind]
    cases h : innermostLoop? around.contexts with
    | none => exact ⟨_, .strayBreak h, rfl⟩
    | some found =>
      obtain ⟨L, hL, cL⟩ := follows_leave around.body span found.1 around.contexts d
      exact ⟨_, .break h hL, by simp only [code_append, code_asm, cL]; rfl⟩
  | .continue => by
    intro d
    rw [stmtKind]
    cases h : innermostLoop? around.contexts with
    | none => exact ⟨_, .strayContinue h, rfl⟩
    | some found =>
      obtain ⟨L, hL, cL⟩ := follows_leave around.body span found.1 around.contexts d
      exact ⟨_, .continue h hL, by simp only [code_append, code_asm, cL]; rfl⟩
  | .ret value => by
    intro d
    rw [stmtKind]
    by_cases hs : around.body = .script
    · rw [if_pos hs]
      exact ⟨_, .strayReturn hs, rfl⟩
    · rw [if_neg hs]
      obtain ⟨V, hV, cV⟩ := follows_returned around.body span value d
      rw [gen_bind]
      by_cases hc : around.contexts = []
      · rw [if_pos (by rw [hc]; rfl)]
        exact ⟨_, .ret hs hc hV, by simp only [code_append, code_asm, cV]; rfl⟩
      · rw [if_neg (by simpa using hc)]
        obtain ⟨L, hL, cL⟩ := follows_leave around.body span around.contexts.length around.contexts
          (returned around.body span value d).2
        exact ⟨_, .retLeaving hs hc hV hL,
          by simp only [code_append, code_asm, code_ops, cV, cL]; rfl⟩
  | .throw value => by
    intro d
    obtain ⟨L, hL, cL⟩ := follows_expr span value d
    rw [stmtKind]
    exact ⟨_, .throw hL, by simp only [code_append, code_asm, cL]; rfl⟩
  | .try body handler final => by
    intro d
    obtain ⟨B, hB, cB⟩ := follows_stmts (around.inside (.region final)) body (d.skip 3)
    obtain ⟨H, hH, cH⟩ := follows_handler (around.inside (.region final)) span handler _
    obtain ⟨F, hF, cF⟩ := follows_final (around.inside .pendingThrow) span final _
    obtain ⟨E, hE, cE⟩ := follows_final around span final _
    rw [stmtKind]
    exact ⟨_, .try hB hH hF hE,
      by simp only [code_within, code_append, code_asm, cB, cH, cF, cE]; rfl⟩
  | .function name params ss => by
    intro d
    have hb := follows_body span name params .function ss d
    rw [stmtKind]
    exact ⟨_, .functionStmt hb.1, rfl⟩
  | .class name ms => by
    intro d
    rw [stmtKind]
    have hdeclared : classDeclared name d = ((d.classes.lookup name).isSome, d) := rfl
    rw [gen_bind, hdeclared]
    cases h : (d.classes.lookup name).isSome with
    | true => exact ⟨_, .repeatedClass h, rfl⟩
    | false =>
      obtain ⟨L, hL⟩ := follows_methods span name ms d
      exact ⟨_, .class h hL, rfl⟩
  | .debugger => fun d => by rw [stmtKind]; exact ⟨_, .debugger, rfl⟩
  | .empty => fun d => by rw [stmtKind]; exact ⟨_, .empty, rfl⟩
termination_by k => 2 * sizeOf k + around.weight
decreasing_by
  all_goals
    simp only [Surroundings.weight, Surroundings.inside, weight, Context.weight,
      StmtKind.expr.sizeOf_spec, StmtKind.var.sizeOf_spec, StmtKind.block.sizeOf_spec,
      StmtKind.cond.sizeOf_spec, StmtKind.while.sizeOf_spec, StmtKind.for.sizeOf_spec,
      StmtKind.break.sizeOf_spec, StmtKind.continue.sizeOf_spec, StmtKind.ret.sizeOf_spec,
      StmtKind.throw.sizeOf_spec, StmtKind.try.sizeOf_spec, StmtKind.function.sizeOf_spec,
      StmtKind.class.sizeOf_spec]
    omega

theorem follows_returned (kind : BodyKind) (span : Span) :
    ∀ value, Follows (.returned kind span value) (returned kind span value)
  | none => by
    intro d
    obtain ⟨L, hL, cL⟩ := follows_default kind span d
    rw [returned]
    exact ⟨_, .returnedNone hL, cL⟩
  | some e => by
    intro d
    obtain ⟨L, hL, cL⟩ := follows_expr span e d
    rw [returned]
    exact ⟨_, .returnedSome hL, cL⟩
termination_by value => 2 * sizeOf value

theorem follows_handler (around : Surroundings) (span : Span) :
    ∀ handler, Follows (.handler around span handler) (handlerCode around span handler)
  | none => fun d => by rw [handlerCode]; exact ⟨_, .noHandler, rfl⟩
  | some (.clause (some param) ss) => by
    intro d
    obtain ⟨L, hL, cL⟩ := follows_stmts around ss d
    rw [handlerCode]
    exact ⟨_, .handlerParam hL, by simp only [code_within, code_append, code_ops, cL]; rfl⟩
  | some (.clause none ss) => by
    intro d
    obtain ⟨L, hL, cL⟩ := follows_stmts around ss d
    rw [handlerCode]
    exact ⟨_, .handler hL, by simp only [code_within, code_append, code_asm, cL]; rfl⟩
termination_by handler => 2 * sizeOf handler + around.weight

theorem follows_final (around : Surroundings) (span : Span) :
    ∀ final, Follows (.final around span final) (finalCode around span final)
  | none => fun d => by rw [finalCode]; exact ⟨_, .finalNone, rfl⟩
  | some ss => by
    intro d
    obtain ⟨L, hL, cL⟩ := follows_stmts around ss d
    rw [finalCode]
    exact ⟨_, .finalSome hL, by simp only [code_within, cL]; rfl⟩
termination_by final => 2 * sizeOf final + around.weight

theorem follows_leave (kind : BodyKind) (span : Span) :
    ∀ n contexts, Follows (.leave kind span n contexts) (leave kind span n contexts)
  | 0, contexts => fun d => by rw [leave]; exact ⟨_, .leaveZero, rfl⟩
  | n + 1, [] => fun d => by rw [leave]; exact ⟨_, .leaveNil, rfl⟩
  | n + 1, .loop continueTo breakTo :: rest => by
    intro d
    obtain ⟨L, hL, cL⟩ := follows_leave kind span n rest d
    rw [leave]
    exact ⟨_, .leaveLoop hL, by simp only [code_append, code_asm, cL]; rfl⟩
  | n + 1, .region final :: rest => by
    intro d
    obtain ⟨F, hF, cF⟩ := follows_final { body := kind, contexts := rest } span final d
    obtain ⟨L, hL, cL⟩ := follows_leave kind span n rest _
    rw [leave]
    exact ⟨_, .leaveRegion hF hL, by simp only [code_append, code_asm, cF, cL]; rfl⟩
  | n + 1, .pendingThrow :: rest => by
    intro d
    obtain ⟨L, hL, cL⟩ := follows_leave kind span n rest d
    rw [leave]
    exact ⟨_, .leavePending hL, by simp only [code_append, code_asm, cL]; rfl⟩
termination_by _ contexts => weight contexts
decreasing_by
  all_goals
    simp only [Surroundings.weight, weight, Context.weight]
    omega

end

/-- The code of a script is that of a listing of its statements, and an end. -/
theorem emits_draft (script : Script) :
    ∃ L, Emits (.stmts { body := .script } script.body) {} L script.draft.2 ∧
      script.draft.1 = L.code ++ emit .unknown [.eof] := by
  obtain ⟨L, hL, cL⟩ := follows_stmts { body := .script } script.body {}
  exact ⟨L, hL, by rw [cL]; rfl⟩

end ScriptMachine.Compile
