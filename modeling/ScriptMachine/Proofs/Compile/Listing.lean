import ScriptMachine.Compile.Basic

/-!
# Listing — generated code with the statements it comes from

`Emits` is the graph of the generator: which listing a tree becomes, from which draft, and the draft
afterwards. A listing is code with brackets around what each statement became, so a proof about
generated code is an induction over the rules of `Emits`, and a place in the code of a statement can
be named. That the generator gives exactly such code is the subject of `Emission`.
-/

namespace ScriptMachine.Compile

/-! ### Listings -/

/-- Code with a bracket around the code of each statement. -/
inductive Listing where
  | ops (code : Code)
  | append (a b : Listing)
  | stmt (body : Listing)

namespace Listing

instance : Append Listing := ⟨append⟩

/-- The code of a listing. The first instruction of a statement is a boundary. -/
def code : Listing → Code
  | .ops code => code
  | .append a b => a.code ++ b.code
  | .stmt body => markFirst body.code

@[simp] theorem code_ops (c : Code) : (ops c).code = c := rfl

@[simp] theorem code_append (a b : Listing) : (a ++ b).code = a.code ++ b.code := rfl

@[simp] theorem code_stmt (body : Listing) : (stmt body).code = markFirst body.code := rfl

/-- Where the statements of a listing begin and end, if the listing begins at a given place. -/
def statements : Listing → Nat → List (Nat × Nat)
  | .ops _, _ => []
  | .append a b, start => a.statements start ++ b.statements (start + a.code.length)
  | .stmt body, start => (start, start + body.code.length) :: body.statements start

/-- Instructions at one place. -/
def asm (span : Span) (ops : List Opcode) : Listing := .ops (emit span ops)

@[simp] theorem code_asm (span : Span) (ops : List Opcode) : (asm span ops).code = emit span ops := rfl

/-- A listing inside a scope of its own. -/
def within (span : Span) (body : Listing) : Listing :=
  asm span [.enterScope] ++ body ++ asm span [.leaveScope]

@[simp] theorem code_within (span : Span) (body : Listing) :
    (within span body).code = inScope span body.code := rfl

/-- A listing around the uses of a target. -/
def around (span : Span) (keep uses : Listing) : Target → Listing
  | .plain _ => uses
  | _ => within span (keep ++ uses)

@[simp] theorem code_around (span : Span) (keep uses : Listing) (place : Target) :
    (around span keep uses place).code = place.around span keep.code uses.code := by
  cases place <;> rfl

end Listing

open Listing

/-! ### What the generator works on -/

/-- A task of the generator. -/
inductive Piece where
  | literal (span : Span) (literal : Literal)
  | expr (outer : Span) (e : Expr)
  | kind (span : Span) (k : ExprKind)
  | exprs (span : Span) (es : List Expr)
  | fields (span : Span) (fields : List (String × Expr))
  | exprThen (span : Span) (after : List Opcode) (e : Option Expr)
  /-- What keeps the operands of a target. -/
  | operands (span : Span) (k : ExprKind) (place : Target)
  | save (span : Span) (k : ExprKind)
  | callee (span : Span) (argc : Nat) (e : Expr)
  | body (span : Span) (name : String) (params : List String) (kind : BodyKind) (ss : List Stmt)
  | default (kind : BodyKind) (span : Span)
  | finish (kind : BodyKind) (span : Span) (code : Listing)
  | methods (span : Span) (className : String) (ms : List Method) (indices : List Nat)
  | stmt (around : Surroundings) (s : Stmt)
  | stmtOption (around : Surroundings) (s : Option Stmt)
  | stmts (around : Surroundings) (ss : List Stmt)
  | stmtKind (around : Surroundings) (span : Span) (k : StmtKind)
  | returned (kind : BodyKind) (span : Span) (value : Option Expr)
  | handler (around : Surroundings) (span : Span) (handler : Option Handler)
  | final (around : Surroundings) (span : Span) (final : Option (List Stmt))
  | leave (kind : BodyKind) (span : Span) (n : Nat) (contexts : List Context)

/-- The constant that an expression stands for by itself. -/
def literal? : ExprKind → Option Literal
  | .undefined => some .undefined
  | .null => some .null
  | .bool b => some (.bool b)
  | .number bits => some (.number bits)
  | .string s => some (.string s)
  | .regex source =>
    match Pattern.compile source with
    | .ok pattern => some (.regex pattern)
    | .error _ => none
  | _ => none

/-- Whether an expression is the property of an object. -/
def isProperty : ExprKind → Bool
  | .member _ _ | .index _ _ => true
  | _ => false

/-- The jump past the right side of a logical operator, and the result in that case. -/
def shortcut (label : Nat) : LogicalOp → Opcode × Bool
  | .and => (.jumpFalse label, false)
  | .or => (.jumpTrue label, true)

/-- The label that is next. -/
abbrev Draft.label (d : Draft) : Nat := (newLabel d).1

/-- The draft with `n` more labels. -/
def Draft.skip (d : Draft) (n : Nat) : Draft := { d with labels := d.labels + n }

/-- The draft with a problem more. -/
abbrev Draft.report (d : Draft) (span : Span) (message : String) : Draft := (Compile.report span message d).2

/-- A piece becomes a listing: the rules of the generator. -/
inductive Emits : Piece → Draft → Listing → Draft → Prop where
  -- expressions
  | literal {span lit d} :
      Emits (.literal span lit) d (asm span [.const (poolIndex lit d).1]) (poolIndex lit d).2
  | expr {outer own k d L d'} :
      Emits (.kind (outer.refine own) k) d L d' → Emits (.expr outer (.node own k)) d L d'
  | constant {span k lit d L d'} :
      literal? k = some lit → Emits (.literal span lit) d L d' → Emits (.kind span k) d L d'
  | badPattern {span source refusal d L d'} :
      Pattern.compile source = .error refusal →
      Emits (.literal span .undefined)
        (d.report span (Cause.message {} (.badPattern source refusal))) L d' →
      Emits (.kind span (.regex source)) d L d'
  | array {span items d L d'} :
      Emits (.exprs span items) d L d' →
      Emits (.kind span (.array items)) d (L ++ asm span [.createArray items.length]) d'
  | record {span fields d L d'} :
      Emits (.fields span fields) d L d' →
      Emits (.kind span (.record fields)) d (L ++ asm span [.createRecord (fields.map Prod.fst)]) d'
  | ident {span name d} : Emits (.kind span (.ident name)) d (asm span [.fetch name]) d
  | this {span d} : Emits (.kind span .this) d (asm span [.fetch thisName]) d
  | member {span object property d L d'} :
      Emits (.expr span object) d L d' →
      Emits (.kind span (.member object property)) d (L ++ asm span [.fetchProperty property]) d'
  | index {span object key d L d₁ K d'} :
      Emits (.expr span object) d L d₁ → Emits (.expr span key) d₁ K d' →
      Emits (.kind span (.index object key)) d (L ++ K ++ asm span [.fetchProperty indexer]) d'
  | not {span operand d L d₁ Y d₂ N d'} :
      Emits (.expr span operand) (d.skip 2) L d₁ →
      Emits (.literal span (.bool true)) d₁ Y d₂ → Emits (.literal span (.bool false)) d₂ N d' →
      Emits (.kind span (.not operand)) d
        (L ++ asm span [.jumpTrue d.labels] ++ Y ++ asm span [.jump (d.labels + 1), .label d.labels]
          ++ N ++ asm span [.label (d.labels + 1)]) d'
  | negate {span operand d Z d₁ L d'} :
      Emits (.literal span .zero) d Z d₁ → Emits (.expr span operand) d₁ L d' →
      Emits (.kind span (.negate operand)) d (Z ++ L ++ asm span [.binary .sub]) d'
  | badUpdate {span op giveNew target d L d'} :
      target.isAssignable = false →
      Emits (.literal span .undefined) (d.report span "invalid increment/decrement target") L d' →
      Emits (.kind span (.update op giveNew target)) d L d'
  | update {span op giveNew own k place d K d₁ N d'} :
      Emits (.operands span k place) d K d₁ → Emits (.literal span .one) d₁ N d' →
      Emits (.kind span (.update op giveNew (.node own k))) d
        (around span K
          (if giveNew then
            .ops (place.load (span.refine own))
              ++ (N ++ asm span [.binary (updateOp op)] ++ .ops (place.save span))
              ++ .ops (place.load (span.refine own))
          else
            .ops (place.load (span.refine own)) ++ .ops (place.load (span.refine own))
              ++ (N ++ asm span [.binary (updateOp op)] ++ .ops (place.save span))) place) d'
  | binary {span op left right d L d₁ R d'} :
      Emits (.expr span left) d L d₁ → Emits (.expr span right) d₁ R d' →
      Emits (.kind span (.binary op left right)) d (L ++ R ++ asm span [.binary op]) d'
  | logical {span op left right d L d₁ R d₂ O d'} :
      Emits (.expr span left) (d.skip 2) L d₁ → Emits (.expr span right) d₁ R d₂ →
      Emits (.literal span (.bool (shortcut d.labels op).2)) d₂ O d' →
      Emits (.kind span (.logical op left right)) d
        (L ++ asm span [(shortcut d.labels op).1] ++ R
          ++ asm span [.jump (d.labels + 1), .label d.labels] ++ O ++ asm span [.label (d.labels + 1)]) d'
  | badAssign {span op target value d L d'} :
      target.isAssignable = false →
      Emits (.literal span .undefined) (d.report span "invalid assignment target") L d' →
      Emits (.kind span (.assign op target value)) d L d'
  | assignOp {span op own k value place d K d₁ V d'} :
      Emits (.operands span k place) d K d₁ → Emits (.expr span value) d₁ V d' →
      Emits (.kind span (.assign (some op) (.node own k) value)) d
        (around span K
          (.ops (place.load (span.refine own)) ++ V ++ asm span [.binary op, .dup]
            ++ .ops (place.save span)) place) d'
  | assign {span own k value d V d₁ S d'} :
      Emits (.expr span value) d V d₁ → Emits (.save span k) d₁ S d' →
      Emits (.kind span (.assign none (.node own k) value)) d (V ++ asm span [.dup] ++ S) d'
  | conditional {span test yes no d T d₁ Y d₂ N d'} :
      Emits (.expr span test) (d.skip 2) T d₁ → Emits (.expr span yes) d₁ Y d₂ →
      Emits (.expr span no) d₂ N d' →
      Emits (.kind span (.conditional test yes no)) d
        (T ++ asm span [.jumpFalse d.labels] ++ Y ++ asm span [.jump (d.labels + 1), .label d.labels]
          ++ N ++ asm span [.label (d.labels + 1)]) d'
  | call {span callee args d A d₁ C d'} :
      Emits (.exprs span args) d A d₁ → Emits (.callee span args.length callee) d₁ C d' →
      Emits (.kind span (.call callee args)) d (A ++ C) d'
  | new {span className args d A d'} :
      Emits (.exprs span args) d A d' →
      Emits (.kind span (.new className args)) d (A ++ asm span [.createObject className args.length]) d'
  | lambda {span name params ss d L d'} :
      Emits (.body span (lambdaName name d.lambdas) params .function ss) (newLambda d).2 L d' →
      Emits (.kind span (.function name params ss)) d (asm span [.fetch (lambdaName name d.lambdas)]) d'
  | exprsNil {span d} : Emits (.exprs span []) d (.ops []) d
  | exprsCons {span e rest d L d₁ R d'} :
      Emits (.expr span e) d L d₁ → Emits (.exprs span rest) d₁ R d' →
      Emits (.exprs span (e :: rest)) d (L ++ R) d'
  | fieldsNil {span d} : Emits (.fields span []) d (.ops []) d
  | fieldsCons {span name e rest d L d₁ R d'} :
      Emits (.expr span e) d L d₁ → Emits (.fields span rest) d₁ R d' →
      Emits (.fields span ((name, e) :: rest)) d (L ++ R) d'
  | exprThenNone {span after d} : Emits (.exprThen span after none) d (.ops []) d
  | exprThenSome {span after e d L d'} :
      Emits (.expr span e) d L d' → Emits (.exprThen span after (some e)) d (L ++ asm span after) d'
  -- targets and callees
  | operandsIdent {span name d} : Emits (.operands span (.ident name) (.plain name)) d (.ops []) d
  | operandsMember {span object property d L d'} :
      Emits (.expr span object) (newParked d).2 L d' →
      Emits (.operands span (.member object property) (.property (newParked d).1 object.span property)) d
        (L ++ .ops (keepAs span (newParked d).1)) d'
  | operandsIndex {span object key d L d₁ K d'} :
      Emits (.expr span object) (newParked d).2 L d₁ → Emits (.expr span key) (newParked d₁).2 K d' →
      Emits (.operands span (.index object key)
          (.element (newParked d).1 object.span (newParked d₁).1 key.span)) d
        (L ++ .ops (keepAs span (newParked d).1) ++ K ++ .ops (keepAs span (newParked d₁).1)) d'
  | saveIdent {span name d} : Emits (.save span (.ident name)) d (asm span [.store name]) d
  | saveMember {span object property d L d'} :
      Emits (.expr span object) d L d' →
      Emits (.save span (.member object property)) d (L ++ asm span [.storeProperty property]) d'
  | saveIndex {span object key d L d₁ K d'} :
      Emits (.expr span object) d L d₁ → Emits (.expr span key) d₁ K d' →
      Emits (.save span (.index object key)) d (L ++ K ++ asm span [.storeProperty indexer]) d'
  | calleeMember {span argc own object property d L d'} :
      Emits (.expr span object) d L d' →
      Emits (.callee span argc (.node own (.member object property))) d
        (L ++ asm span [.dup, .fetchProperty property, .call argc true]) d'
  | calleeIndex {span argc own object key d L d₁ K d'} :
      Emits (.expr span object) d L d₁ → Emits (.expr span key) d₁ K d' →
      Emits (.callee span argc (.node own (.index object key))) d
        (L ++ asm span [.dup] ++ K ++ asm span [.fetchProperty indexer, .call argc true]) d'
  | calleeOther {span argc own k d L d'} :
      isProperty k = false → Emits (.kind (span.refine own) k) d L d' →
      Emits (.callee span argc (.node own k)) d (L ++ asm span [.call argc false]) d'
  -- bodies
  | defaultConstructor {span d} : Emits (.default .constructor span) d (asm span [.fetch thisName]) d
  | defaultOther {kind span d L d'} :
      kind ≠ .constructor → Emits (.literal span .undefined) d L d' →
      Emits (.default kind span) d L d'
  | finished {kind span L d} : lastOp? L.code = some .ret → Emits (.finish kind span L) d L d
  | unfinished {kind span L d D d'} :
      lastOp? L.code ≠ some .ret → Emits (.default kind span) d D d' →
      Emits (.finish kind span L) d (L ++ D ++ asm span [.ret]) d'
  | body {span name params kind ss d L d₁ F d₂} :
      Emits (.stmts { body := kind } ss) (openBody name params d).2 L d₁ →
      Emits (.finish kind span L) d₁ F d₂ →
      Emits (.body span name params kind ss) d (.ops []) (closeBody d.bodies.size F.code d₂).2
  | methodsNil {span className d} : Emits (.methods span className [] []) d (.ops []) d
  | methodsCons {span className name params ss rest indices d L d₁ R d'} :
      Emits (.body span (ScriptFunction.methodName className name) params (methodKind name) ss) d L d₁ →
      Emits (.methods span className rest indices) d₁ R d' →
      Emits (.methods span className (.node name params ss :: rest) (d.bodies.size :: indices)) d (.ops []) d'
  -- statements
  | stmt {around span k d L d'} :
      Emits (.stmtKind around span k) d L d' → Emits (.stmt around (.node span k)) d (.stmt L) d'
  | stmtNone {around d} : Emits (.stmtOption around none) d (.ops []) d
  | stmtSome {around s d L d'} :
      Emits (.stmt around s) d L d' → Emits (.stmtOption around (some s)) d L d'
  | stmtsNil {around d} : Emits (.stmts around []) d (.ops []) d
  | stmtsCons {around s rest d L d₁ R d'} :
      Emits (.stmt around s) d L d₁ → Emits (.stmts around rest) d₁ R d' →
      Emits (.stmts around (s :: rest)) d (L ++ R) d'
  | exprStmt {around span e d L d'} :
      Emits (.expr span e) d L d' → Emits (.stmtKind around span (.expr e)) d (L ++ asm span [.pop]) d'
  | var {around span name init d L d'} :
      Emits (.exprThen span [.store name] init) d L d' →
      Emits (.stmtKind around span (.var name init)) d (asm span [.declare name] ++ L) d'
  | block {around span ss d L d'} :
      Emits (.stmts around ss) d L d' → Emits (.stmtKind around span (.block ss)) d (within span L) d'
  | cond {around span test yes no d T d₁ Y d₂ N d'} :
      Emits (.expr span test) (d.skip 2) T d₁ → Emits (.stmt around yes) d₁ Y d₂ →
      Emits (.stmtOption around no) d₂ N d' →
      Emits (.stmtKind around span (.cond test yes no)) d
        (T ++ asm span [.jumpFalse d.labels] ++ Y ++ asm span [.jump (d.labels + 1), .label d.labels]
          ++ N ++ asm span [.label (d.labels + 1)]) d'
  | while {around span test body d T d₁ B d'} :
      Emits (.expr span test) (d.skip 2) T d₁ →
      Emits (.stmt (around.inside (.loop d.labels (d.labels + 1))) body) d₁ B d' →
      Emits (.stmtKind around span (.while test body)) d
        (asm span [.loopStart, .label d.labels] ++ T ++ asm span [.jumpFalse (d.labels + 1)] ++ B
          ++ asm span [.jump d.labels, .label (d.labels + 1), .loopEnd]) d'
  | for {around span init test update body d I d₁ T d₂ B d₃ U d'} :
      Emits (.stmtOption around init) (d.skip 3) I d₁ →
      Emits (.exprThen span [.jumpFalse (d.labels + 2)] test) d₁ T d₂ →
      Emits (.stmt (around.inside (.loop (d.labels + 1) (d.labels + 2))) body) d₂ B d₃ →
      Emits (.exprThen span [.pop] update) d₃ U d' →
      Emits (.stmtKind around span (.for init test update body)) d
        (within span
          (I ++ asm span [.loopStart, .label d.labels] ++ T ++ B ++ asm span [.label (d.labels + 1)] ++ U
            ++ asm span [.jump d.labels, .label (d.labels + 2), .loopEnd])) d'
  | break {around span n continueTo breakTo d L d'} :
      innermostLoop? around.contexts = some (n, continueTo, breakTo) →
      Emits (.leave around.body span n around.contexts) d L d' →
      Emits (.stmtKind around span .break) d (L ++ asm span [.loopExit breakTo]) d'
  | strayBreak {around span d} :
      innermostLoop? around.contexts = none →
      Emits (.stmtKind around span .break) d (.ops []) (d.report span "`break` outside of a loop")
  | continue {around span n continueTo breakTo d L d'} :
      innermostLoop? around.contexts = some (n, continueTo, breakTo) →
      Emits (.leave around.body span n around.contexts) d L d' →
      Emits (.stmtKind around span .continue) d (L ++ asm span [.loopExit continueTo]) d'
  | strayContinue {around span d} :
      innermostLoop? around.contexts = none →
      Emits (.stmtKind around span .continue) d (.ops []) (d.report span "`continue` outside of a loop")
  | strayReturn {around span value d} :
      around.body = .script →
      Emits (.stmtKind around span (.ret value)) d (.ops []) (d.report span "`return` outside of a function")
  | ret {around span value d V d'} :
      around.body ≠ .script → around.contexts = [] → Emits (.returned around.body span value) d V d' →
      Emits (.stmtKind around span (.ret value)) d (V ++ asm span [.ret]) d'
  | retLeaving {around span value d V d₁ L d'} :
      around.body ≠ .script → around.contexts ≠ [] → Emits (.returned around.body span value) d V d₁ →
      Emits (.leave around.body span around.contexts.length around.contexts) d₁ L d' →
      Emits (.stmtKind around span (.ret value)) d
        (V ++ .ops (keepAs span returnSlot) ++ L ++ asm span [.fetch returnSlot, .ret]) d'
  | throw {around span value d L d'} :
      Emits (.expr span value) d L d' →
      Emits (.stmtKind around span (.throw value)) d (L ++ asm span [.throw]) d'
  | try {around span body handler final d B d₁ H d₂ F d₃ E d'} :
      Emits (.stmts (around.inside (.region final)) body) (d.skip 3) B d₁ →
      Emits (.handler (around.inside (.region final)) span handler) d₁ H d₂ →
      Emits (.final (around.inside .pendingThrow) span final) d₂ F d₃ →
      Emits (.final around span final) d₃ E d' →
      Emits (.stmtKind around span (.try body handler final)) d
        (asm span [.tryStart d.labels (final.map fun _ => d.labels + 1) false] ++ within span B
          ++ asm span [.tryEnd, .jump (d.labels + 2), .label d.labels, .tryStart (d.labels + 1) none true]
          ++ H ++ asm span [.tryEnd, .jump (d.labels + 2), .label (d.labels + 1)]
          ++ F ++ asm span [.throw, .label (d.labels + 2)] ++ E) d'
  | functionStmt {around span name params ss d L d'} :
      Emits (.body span name params .function ss) d L d' →
      Emits (.stmtKind around span (.function name params ss)) d (.ops []) d'
  | repeatedClass {around span name ms d} :
      (d.classes.lookup name).isSome →
      Emits (.stmtKind around span (.class name ms)) d (.ops [])
        (d.report span ("duplicate class declaration `" ++ name ++ "`"))
  | class {around span name ms indices d L d'} :
      (d.classes.lookup name).isSome = false → Emits (.methods span name ms indices) d L d' →
      Emits (.stmtKind around span (.class name ms)) d (.ops []) (declareClass name indices d').2
  | debugger {around span d} : Emits (.stmtKind around span .debugger) d (asm span [.debugger]) d
  | empty {around span d} : Emits (.stmtKind around span .empty) d (.ops []) d
  | returnedNone {kind span d L d'} :
      Emits (.default kind span) d L d' → Emits (.returned kind span none) d L d'
  | returnedSome {kind span e d L d'} :
      Emits (.expr span e) d L d' → Emits (.returned kind span (some e)) d L d'
  | noHandler {around span d} : Emits (.handler around span none) d (asm span [.throw]) d
  | handlerParam {around span param ss d L d'} :
      Emits (.stmts around ss) d L d' →
      Emits (.handler around span (some (.clause (some param) ss))) d
        (within span (.ops (keepAs span param) ++ L)) d'
  | handler {around span ss d L d'} :
      Emits (.stmts around ss) d L d' →
      Emits (.handler around span (some (.clause none ss))) d (asm span [.pop] ++ within span L) d'
  | finalNone {around span d} : Emits (.final around span none) d (.ops []) d
  | finalSome {around span ss d L d'} :
      Emits (.stmts around ss) d L d' → Emits (.final around span (some ss)) d (within span L) d'
  -- leaving contexts
  | leaveZero {kind span contexts d} : Emits (.leave kind span 0 contexts) d (.ops []) d
  | leaveNil {kind span n d} : Emits (.leave kind span (n + 1) []) d (.ops []) d
  | leaveLoop {kind span n continueTo breakTo rest d L d'} :
      Emits (.leave kind span n rest) d L d' →
      Emits (.leave kind span (n + 1) (.loop continueTo breakTo :: rest)) d
        (asm span [.loopEnd] ++ L) d'
  | leaveRegion {kind span n final rest d F d₁ L d'} :
      Emits (.final { body := kind, contexts := rest } span final) d F d₁ →
      Emits (.leave kind span n rest) d₁ L d' →
      Emits (.leave kind span (n + 1) (.region final :: rest)) d (asm span [.tryEnd] ++ F ++ L) d'
  | leavePending {kind span n rest d L d'} :
      Emits (.leave kind span n rest) d L d' →
      Emits (.leave kind span (n + 1) (.pendingThrow :: rest)) d (asm span [.pop] ++ L) d'

end ScriptMachine.Compile
