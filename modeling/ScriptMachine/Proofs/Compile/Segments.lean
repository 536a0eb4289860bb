import ScriptMachine.Proofs.Compile.Listing

/-!
# Segments — what the code of a piece is put together from

A piece that was compiled is an `Emission`. Its code consists of instructions of its own and of the code of the pieces
it is put together from, in order (`Emission.Splits`, one rule for each rule of the generator). The one piece that is
not in line is a body, whose code goes to a section of its own. What holds of every piece is shown once for pieces that
split and once for bodies (`Emission.induct`).
-/

namespace ScriptMachine.Compile

open Listing

/-- A piece that was compiled: what it became, and the drafts before and after. -/
structure Emission where
  piece : Piece
  before : Draft
  listing : Listing
  after : Draft
  emits : Emits piece before listing after

/-- What a rule of the generator has compiled. -/
def Emission.of {p : Piece} {d d' : Draft} {L : Listing} (h : Emits p d L d') : Emission := ⟨p, d, L, d', h⟩

section Projections

variable {p : Piece} {d d' : Draft} {L : Listing} (h : Emits p d L d')

@[simp] theorem Emission.piece_of : (Emission.of h).piece = p := rfl

@[simp] theorem Emission.before_of : (Emission.of h).before = d := rfl

@[simp] theorem Emission.listing_of : (Emission.of h).listing = L := rfl

@[simp] theorem Emission.after_of : (Emission.of h).after = d' := rfl

end Projections

/-! ### Segments -/

/-- A stretch of the code of a piece: instructions of its own, code it was handed, or the code of a part. -/
inductive Segment where
  | own (code : Code) (bare : ∀ i ∈ code, i.boundary = false)
  | given (listing : Listing)
  | part (e : Emission)

namespace Segment

/-- The code of a segment. -/
def code : Segment → Code
  | .own code _ => code
  | .given listing => listing.code
  | .part e => e.listing.code

theorem bare_emit (span : Span) (ops : List Opcode) : ∀ i ∈ emit span ops, i.boundary = false := by
  simp [emit]

theorem bare_append {a b : Code} (ha : ∀ i ∈ a, i.boundary = false) (hb : ∀ i ∈ b, i.boundary = false) :
    ∀ i ∈ a ++ b, i.boundary = false := fun i hi => (List.mem_append.1 hi).elim (ha i) (hb i)

/-- Instructions at one place. -/
def ops (span : Span) (ops : List Opcode) : Segment := .own (emit span ops) (bare_emit span ops)

theorem bare_load (span : Span) (place : Target) : ∀ i ∈ place.load span, i.boundary = false := by
  cases place with
  | plain => exact bare_emit _ _
  | property => exact bare_append (bare_emit _ _) (bare_emit _ _)
  | element => exact bare_append (bare_append (bare_emit _ _) (bare_emit _ _)) (bare_emit _ _)

theorem bare_save (span : Span) (place : Target) : ∀ i ∈ place.save span, i.boundary = false := by
  cases place with
  | plain => exact bare_emit _ _
  | property => exact bare_append (bare_emit _ _) (bare_emit _ _)
  | element => exact bare_append (bare_append (bare_emit _ _) (bare_emit _ _)) (bare_emit _ _)

/-- Reads a target. -/
def load (span : Span) (place : Target) : Segment := .own (place.load span) (bare_load span place)

/-- Writes a target. -/
def save (span : Span) (place : Target) : Segment := .own (place.save span) (bare_save span place)

/-- Keeps the top value under a hidden name. -/
def keepAs (span : Span) (name : String) : Segment := .own (Compile.keepAs span name) (bare_emit _ _)

/-- The segments around the uses of a target. -/
def around (span : Span) (keep : Emission) (uses : List Segment) : Target → List Segment
  | .plain _ => .part keep :: uses
  | _ => ops span [.enterScope] :: .part keep :: uses ++ [ops span [.leaveScope]]

/-- The code of segments in order. -/
def codes (segments : List Segment) : Code := segments.flatMap code

/-- Something holds of every part. -/
def Parts (P : Emission → Prop) : List Segment → Prop
  | [] => True
  | .part e :: rest => P e ∧ Parts P rest
  | _ :: rest => Parts P rest

theorem Parts.of_part {P : Emission → Prop} {before after : List Segment} {e : Emission}
    (h : Parts P (before ++ .part e :: after)) : P e := by
  induction before with
  | nil => exact h.1
  | cons s rest ih =>
    cases s with
    | own | given => exact ih h
    | part => exact ih h.2

@[simp] theorem code_ops (span : Span) (l : List Opcode) : (ops span l).code = emit span l := rfl

@[simp] theorem code_load (span : Span) (place : Target) : (load span place).code = place.load span := rfl

@[simp] theorem code_save (span : Span) (place : Target) : (save span place).code = place.save span := rfl

@[simp] theorem code_keepAs (span : Span) (name : String) :
    (keepAs span name).code = Compile.keepAs span name := rfl

@[simp] theorem code_part (e : Emission) : (part e).code = e.listing.code := rfl

@[simp] theorem code_given (L : Listing) : (given L).code = L.code := rfl

@[simp] theorem codes_nil : codes [] = [] := rfl

@[simp] theorem codes_cons (s : Segment) (rest : List Segment) : codes (s :: rest) = s.code ++ codes rest := rfl

@[simp] theorem codes_append (a b : List Segment) : codes (a ++ b) = codes a ++ codes b := List.flatMap_append

end Segment

open Segment

/-- The segments of what was compiled: one rule for each rule of the generator. A body has none, since its code is not
in line. -/
inductive Emission.Splits : Emission → List Segment → Prop where
  -- expressions
  | literal {span lit d} : Splits (.of (@Emits.literal span lit d)) [ops span [.const (poolIndex lit d).1]]
  | expr {outer own k d L d'} (h : Emits (.kind (Span.refine outer own) k) d L d') :
      Splits (.of (.expr h)) [.part (.of h)]
  | constant {span k lit d L d'} (hk : literal? k = some lit) (h : Emits (.literal span lit) d L d') :
      Splits (.of (.constant hk h)) [.part (.of h)]
  | badPattern {span source refusal d L d'} (hs : Pattern.compile source = .error refusal)
      (h : Emits (.literal span .undefined) (Draft.report d span (Cause.message {} (.badPattern source refusal))) L
        d') :
      Splits (.of (.badPattern hs h)) [.part (.of h)]
  | array {span items d L d'} (h : Emits (.exprs span items) d L d') :
      Splits (.of (.array h)) [.part (.of h), ops span [.createArray items.length]]
  | record {span fields d L d'} (h : Emits (.fields span fields) d L d') :
      Splits (.of (.record h)) [.part (.of h), ops span [.createRecord (fields.map Prod.fst)]]
  | ident {span name d} : Splits (.of (@Emits.ident span name d)) [ops span [.fetch name]]
  | this {span d} : Splits (.of (@Emits.this span d)) [ops span [.fetch thisName]]
  | member {span object property d L d'} (h : Emits (.expr span object) d L d') :
      Splits (.of (p := .kind span (.member object property)) (.member h))
        [.part (.of h), ops span [.fetchProperty property]]
  | index {span object key d L d₁ K d'} (hL : Emits (.expr span object) d L d₁) (hK : Emits (.expr span key) d₁ K d') :
      Splits (.of (.index hL hK)) [.part (.of hL), .part (.of hK), ops span [.fetchProperty indexer]]
  | not {span operand d L d₁ Y d₂ N d'} (hL : Emits (.expr span operand) (Draft.skip d 2) L d₁)
      (hY : Emits (.literal span (.bool true)) d₁ Y d₂) (hN : Emits (.literal span (.bool false)) d₂ N d') :
      Splits (.of (.not hL hY hN))
        [.part (.of hL), ops span [.jumpTrue d.labels], .part (.of hY),
          ops span [.jump (d.labels + 1), .label d.labels], .part (.of hN), ops span [.label (d.labels + 1)]]
  | negate {span operand d Z d₁ L d'} (hZ : Emits (.literal span .zero) d Z d₁)
      (hL : Emits (.expr span operand) d₁ L d') :
      Splits (.of (.negate hZ hL)) [.part (.of hZ), .part (.of hL), ops span [.binary .sub]]
  | badUpdate {span op giveNew target d L d'} (ht : target.isAssignable = false)
      (h : Emits (.literal span .undefined) (Draft.report d span "invalid increment/decrement target") L d') :
      Splits (.of (p := .kind span (.update op giveNew target)) (.badUpdate ht h)) [.part (.of h)]
  | update {span op own k place d K d₁ N d'} (hK : Emits (.operands span k place) d K d₁)
      (hN : Emits (.literal span .one) d₁ N d') :
      Splits (.of (p := .kind span (.update op true (.node own k))) (.update hK hN))
        (around span (.of hK)
          [load (span.refine own) place, .part (.of hN), ops span [.binary (updateOp op)], save span place,
            load (span.refine own) place] place)
  | updateOld {span op own k place d K d₁ N d'} (hK : Emits (.operands span k place) d K d₁)
      (hN : Emits (.literal span .one) d₁ N d') :
      Splits (.of (p := .kind span (.update op false (.node own k))) (.update hK hN))
        (around span (.of hK)
          [load (span.refine own) place, load (span.refine own) place, .part (.of hN),
            ops span [.binary (updateOp op)], save span place] place)
  | binary {span op left right d L d₁ R d'} (hL : Emits (.expr span left) d L d₁)
      (hR : Emits (.expr span right) d₁ R d') :
      Splits (.of (p := .kind span (.binary op left right)) (.binary hL hR))
        [.part (.of hL), .part (.of hR), ops span [.binary op]]
  | logical {span op left right d L d₁ R d₂ O d'} (hL : Emits (.expr span left) (Draft.skip d 2) L d₁)
      (hR : Emits (.expr span right) d₁ R d₂)
      (hO : Emits (.literal span (.bool (shortcut d.labels op).2)) d₂ O d') :
      Splits (.of (.logical hL hR hO))
        [.part (.of hL), ops span [(shortcut d.labels op).1], .part (.of hR),
          ops span [.jump (d.labels + 1), .label d.labels], .part (.of hO), ops span [.label (d.labels + 1)]]
  | badAssign {span op target value d L d'} (ht : target.isAssignable = false)
      (h : Emits (.literal span .undefined) (Draft.report d span "invalid assignment target") L d') :
      Splits (.of (p := .kind span (.assign op target value)) (.badAssign ht h)) [.part (.of h)]
  | assignOp {span op own k value place d K d₁ V d'} (hK : Emits (.operands span k place) d K d₁)
      (hV : Emits (.expr span value) d₁ V d') :
      Splits (.of (p := .kind span (.assign (some op) (.node own k) value)) (.assignOp hK hV))
        (around span (.of hK)
          [load (span.refine own) place, .part (.of hV), ops span [.binary op, .dup], save span place] place)
  | assign {span own k value d V d₁ S d'} (hV : Emits (.expr span value) d V d₁) (hS : Emits (.save span k) d₁ S d') :
      Splits (.of (p := .kind span (.assign none (.node own k) value)) (.assign hV hS))
        [.part (.of hV), ops span [.dup], .part (.of hS)]
  | conditional {span test yes no d T d₁ Y d₂ N d'} (hT : Emits (.expr span test) (Draft.skip d 2) T d₁)
      (hY : Emits (.expr span yes) d₁ Y d₂) (hN : Emits (.expr span no) d₂ N d') :
      Splits (.of (.conditional hT hY hN))
        [.part (.of hT), ops span [.jumpFalse d.labels], .part (.of hY),
          ops span [.jump (d.labels + 1), .label d.labels], .part (.of hN), ops span [.label (d.labels + 1)]]
  | call {span callee args d A d₁ C d'} (hA : Emits (.exprs span args) d A d₁)
      (hC : Emits (.callee span args.length callee) d₁ C d') :
      Splits (.of (.call hA hC)) [.part (.of hA), .part (.of hC)]
  | new {span className args d A d'} (h : Emits (.exprs span args) d A d') :
      Splits (.of (p := .kind span (.new className args)) (.new h))
        [.part (.of h), ops span [.createObject className args.length]]
  | lambda {span name params ss d L d'}
      (h : Emits (.body span (lambdaName name (Draft.lambdas d)) params .function ss) (newLambda d).2 L d') :
      Splits (.of (.lambda h)) [.part (.of h), ops span [.fetch (lambdaName name d.lambdas)]]
  | exprsNil {span d} : Splits (.of (@Emits.exprsNil span d)) []
  | exprsCons {span e rest d L d₁ R d'} (hL : Emits (.expr span e) d L d₁) (hR : Emits (.exprs span rest) d₁ R d') :
      Splits (.of (.exprsCons hL hR)) [.part (.of hL), .part (.of hR)]
  | fieldsNil {span d} : Splits (.of (@Emits.fieldsNil span d)) []
  | fieldsCons {span name e rest d L d₁ R d'} (hL : Emits (.expr span e) d L d₁)
      (hR : Emits (.fields span rest) d₁ R d') :
      Splits (.of (p := .fields span ((name, e) :: rest)) (.fieldsCons hL hR)) [.part (.of hL), .part (.of hR)]
  | exprThenNone {span after d} : Splits (.of (@Emits.exprThenNone span after d)) []
  | exprThenSome {span after e d L d'} (h : Emits (.expr span e) d L d') :
      Splits (.of (p := .exprThen span after (some e)) (.exprThenSome h)) [.part (.of h), ops span after]
  -- targets and callees
  | operandsIdent {span name d} : Splits (.of (@Emits.operandsIdent span name d)) []
  | operandsMember {span object property d L d'} (h : Emits (.expr span object) (newParked d).2 L d') :
      Splits (.of (p := .operands span (.member object property) _) (.operandsMember h))
        [.part (.of h), Segment.keepAs span (newParked d).1]
  | operandsIndex {span object key d L d₁ K d'} (hL : Emits (.expr span object) (newParked d).2 L d₁)
      (hK : Emits (.expr span key) (newParked d₁).2 K d') :
      Splits (.of (.operandsIndex hL hK))
        [.part (.of hL), Segment.keepAs span (newParked d).1, .part (.of hK), Segment.keepAs span (newParked d₁).1]
  | saveIdent {span name d} : Splits (.of (@Emits.saveIdent span name d)) [ops span [.store name]]
  | saveMember {span object property d L d'} (h : Emits (.expr span object) d L d') :
      Splits (.of (p := .save span (.member object property)) (.saveMember h))
        [.part (.of h), ops span [.storeProperty property]]
  | saveIndex {span object key d L d₁ K d'} (hL : Emits (.expr span object) d L d₁)
      (hK : Emits (.expr span key) d₁ K d') :
      Splits (.of (.saveIndex hL hK)) [.part (.of hL), .part (.of hK), ops span [.storeProperty indexer]]
  | calleeMember {span argc own object property d L d'} (h : Emits (.expr span object) d L d') :
      Splits (.of (p := .callee span argc (.node own (.member object property))) (.calleeMember h))
        [.part (.of h), ops span [.dup, .fetchProperty property, .call argc true]]
  | calleeIndex {span argc own object key d L d₁ K d'} (hL : Emits (.expr span object) d L d₁)
      (hK : Emits (.expr span key) d₁ K d') :
      Splits (.of (p := .callee span argc (.node own (.index object key))) (.calleeIndex hL hK))
        [.part (.of hL), ops span [.dup], .part (.of hK), ops span [.fetchProperty indexer, .call argc true]]
  | calleeOther {span argc own k d L d'} (hk : isProperty k = false)
      (h : Emits (.kind (Span.refine span own) k) d L d') :
      Splits (.of (p := .callee span argc (.node own k)) (.calleeOther hk h))
        [.part (.of h), ops span [.call argc false]]
  -- bodies
  | defaultConstructor {span d} : Splits (.of (@Emits.defaultConstructor span d)) [ops span [.fetch thisName]]
  | defaultOther {kind span d L d'} (hk : kind ≠ BodyKind.constructor) (h : Emits (.literal span .undefined) d L d') :
      Splits (.of (.defaultOther hk h)) [.part (.of h)]
  | finished {kind span L d} (hL : lastOp? (Listing.code L) = some .ret) :
      Splits (.of (@Emits.finished kind span L d hL)) [.given L]
  | unfinished {kind span L d D d'} (hL : lastOp? (Listing.code L) ≠ some .ret)
      (h : Emits (.default kind span) d D d') :
      Splits (.of (.unfinished hL h)) [.given L, .part (.of h), ops span [.ret]]
  | methodsNil {span className d} : Splits (.of (@Emits.methodsNil span className d)) []
  | methodsCons {span className name params ss rest indices d L d₁ R d'}
      (hL : Emits (.body span (ScriptFunction.methodName className name) params (methodKind name) ss) d L d₁)
      (hR : Emits (.methods span className rest indices) d₁ R d') :
      Splits (.of (.methodsCons hL hR)) [.part (.of hL), .part (.of hR)]
  -- statements
  | stmt {around span k d L d'} (h : Emits (.stmtKind around span k) d L d') : Splits (.of (.stmt h)) [.part (.of h)]
  | stmtNone {around d} : Splits (.of (@Emits.stmtNone around d)) []
  | stmtSome {around s d L d'} (h : Emits (.stmt around s) d L d') : Splits (.of (.stmtSome h)) [.part (.of h)]
  | stmtsNil {around d} : Splits (.of (@Emits.stmtsNil around d)) []
  | stmtsCons {around s rest d L d₁ R d'} (hL : Emits (.stmt around s) d L d₁)
      (hR : Emits (.stmts around rest) d₁ R d') :
      Splits (.of (.stmtsCons hL hR)) [.part (.of hL), .part (.of hR)]
  | exprStmt {around span e d L d'} (h : Emits (.expr span e) d L d') :
      Splits (.of (p := .stmtKind around span (.expr e)) (.exprStmt h)) [.part (.of h), ops span [.pop]]
  | var {around span name init d L d'} (h : Emits (.exprThen span [.store name] init) d L d') :
      Splits (.of (p := .stmtKind around span (.var name init)) (.var h)) [ops span [.declare name], .part (.of h)]
  | block {around span ss d L d'} (h : Emits (.stmts around ss) d L d') :
      Splits (.of (p := .stmtKind around span (.block ss)) (.block h))
        [ops span [.enterScope], .part (.of h), ops span [.leaveScope]]
  | cond {around span test yes no d T d₁ Y d₂ N d'} (hT : Emits (.expr span test) (Draft.skip d 2) T d₁)
      (hY : Emits (.stmt around yes) d₁ Y d₂) (hN : Emits (.stmtOption around no) d₂ N d') :
      Splits (.of (.cond hT hY hN))
        [.part (.of hT), ops span [.jumpFalse d.labels], .part (.of hY),
          ops span [.jump (d.labels + 1), .label d.labels], .part (.of hN), ops span [.label (d.labels + 1)]]
  | while {around span test body d T d₁ B d'} (hT : Emits (.expr span test) (Draft.skip d 2) T d₁)
      (hB : Emits (.stmt (Surroundings.inside around (.loop d.labels (d.labels + 1))) body) d₁ B d') :
      Splits (.of (.while hT hB))
        [ops span [.loopStart, .label d.labels], .part (.of hT), ops span [.jumpFalse (d.labels + 1)], .part (.of hB),
          ops span [.jump d.labels, .label (d.labels + 1), .loopEnd]]
  | for {around span init test update body d I d₁ T d₂ B d₃ U d'}
      (hI : Emits (.stmtOption around init) (Draft.skip d 3) I d₁)
      (hT : Emits (.exprThen span [.jumpFalse (d.labels + 2)] test) d₁ T d₂)
      (hB : Emits (.stmt (around.inside (.loop (d.labels + 1) (d.labels + 2))) body) d₂ B d₃)
      (hU : Emits (.exprThen span [.pop] update) d₃ U d') :
      Splits (.of (.for hI hT hB hU))
        [ops span [.enterScope], .part (.of hI), ops span [.loopStart, .label d.labels], .part (.of hT),
          .part (.of hB), ops span [.label (d.labels + 1)], .part (.of hU),
          ops span [.jump d.labels, .label (d.labels + 2), .loopEnd], ops span [.leaveScope]]
  | break {around span n continueTo breakTo d L d'}
      (hn : innermostLoop? (Surroundings.contexts around) = some (n, continueTo, breakTo))
      (h : Emits (.leave around.body span n around.contexts) d L d') :
      Splits (.of (.break hn h)) [.part (.of h), ops span [.loopExit breakTo]]
  | strayBreak {around span d} (hn : innermostLoop? (Surroundings.contexts around) = none) :
      Splits (.of (@Emits.strayBreak around span d hn)) []
  | continue {around span n continueTo breakTo d L d'}
      (hn : innermostLoop? (Surroundings.contexts around) = some (n, continueTo, breakTo))
      (h : Emits (.leave around.body span n around.contexts) d L d') :
      Splits (.of (.continue hn h)) [.part (.of h), ops span [.loopExit continueTo]]
  | strayContinue {around span d} (hn : innermostLoop? (Surroundings.contexts around) = none) :
      Splits (.of (@Emits.strayContinue around span d hn)) []
  | strayReturn {around span value d} (hb : Surroundings.body around = .script) :
      Splits (.of (@Emits.strayReturn around span value d hb)) []
  | ret {around span value d V d'} (hb : Surroundings.body around ≠ .script) (hc : around.contexts = [])
      (h : Emits (.returned around.body span value) d V d') :
      Splits (.of (.ret hb hc h)) [.part (.of h), ops span [.ret]]
  | retLeaving {around span value d V d₁ L d'} (hb : Surroundings.body around ≠ .script) (hc : around.contexts ≠ [])
      (hV : Emits (.returned around.body span value) d V d₁)
      (hL : Emits (.leave around.body span around.contexts.length around.contexts) d₁ L d') :
      Splits (.of (.retLeaving hb hc hV hL))
        [.part (.of hV), Segment.keepAs span returnSlot, .part (.of hL), ops span [.fetch returnSlot, .ret]]
  | throw {around span value d L d'} (h : Emits (.expr span value) d L d') :
      Splits (.of (p := .stmtKind around span (.throw value)) (.throw h)) [.part (.of h), ops span [.throw]]
  | try {around span body handler final d B d₁ H d₂ F d₃ E d'}
      (hB : Emits (.stmts (Surroundings.inside around (.region final)) body) (Draft.skip d 3) B d₁)
      (hH : Emits (.handler (around.inside (.region final)) span handler) d₁ H d₂)
      (hF : Emits (.final (around.inside .pendingThrow) span final) d₂ F d₃)
      (hE : Emits (.final around span final) d₃ E d') :
      Splits (.of (.try hB hH hF hE))
        [ops span [.tryStart d.labels (final.map fun _ => d.labels + 1) false], ops span [.enterScope], .part (.of hB),
          ops span [.leaveScope],
          ops span [.tryEnd, .jump (d.labels + 2), .label d.labels, .tryStart (d.labels + 1) none true],
          .part (.of hH), ops span [.tryEnd, .jump (d.labels + 2), .label (d.labels + 1)], .part (.of hF),
          ops span [.throw, .label (d.labels + 2)], .part (.of hE)]
  | functionStmt {around span name params ss d L d'} (h : Emits (.body span name params .function ss) d L d') :
      Splits (.of (p := .stmtKind around span (.function name params ss)) (.functionStmt h)) [.part (.of h)]
  | repeatedClass {around span name ms d} (hc : (List.lookup name (Draft.classes d)).isSome) :
      Splits (.of (@Emits.repeatedClass around span name ms d hc)) []
  | class {around span name ms indices d L d'} (hc : (List.lookup name (Draft.classes d)).isSome = false)
      (h : Emits (.methods span name ms indices) d L d') :
      Splits (.of (p := .stmtKind around span (.class name ms)) (.class hc h)) [.part (.of h)]
  | debugger {around span d} : Splits (.of (@Emits.debugger around span d)) [ops span [.debugger]]
  | empty {around span d} : Splits (.of (@Emits.empty around span d)) []
  | returnedNone {kind span d L d'} (h : Emits (.default kind span) d L d') :
      Splits (.of (.returnedNone h)) [.part (.of h)]
  | returnedSome {kind span e d L d'} (h : Emits (.expr span e) d L d') :
      Splits (.of (p := .returned kind span (some e)) (.returnedSome h)) [.part (.of h)]
  | noHandler {around span d} : Splits (.of (@Emits.noHandler around span d)) [ops span [.throw]]
  | handlerParam {around span param ss d L d'} (h : Emits (.stmts around ss) d L d') :
      Splits (.of (p := .handler around span (some (.clause (some param) ss))) (.handlerParam h))
        [ops span [.enterScope], Segment.keepAs span param, .part (.of h), ops span [.leaveScope]]
  | handler {around span ss d L d'} (h : Emits (.stmts around ss) d L d') :
      Splits (.of (p := .handler around span (some (.clause none ss))) (.handler h))
        [ops span [.pop], ops span [.enterScope], .part (.of h), ops span [.leaveScope]]
  | finalNone {around span d} : Splits (.of (@Emits.finalNone around span d)) []
  | finalSome {around span ss d L d'} (h : Emits (.stmts around ss) d L d') :
      Splits (.of (p := .final around span (some ss)) (.finalSome h))
        [ops span [.enterScope], .part (.of h), ops span [.leaveScope]]
  -- leaving contexts
  | leaveZero {kind span contexts d} : Splits (.of (@Emits.leaveZero kind span contexts d)) []
  | leaveNil {kind span n d} : Splits (.of (@Emits.leaveNil kind span n d)) []
  | leaveLoop {kind span n continueTo breakTo rest d L d'} (h : Emits (.leave kind span n rest) d L d') :
      Splits (.of (p := .leave kind span (n + 1) (.loop continueTo breakTo :: rest)) (.leaveLoop h))
        [ops span [.loopEnd], .part (.of h)]
  | leaveRegion {kind span n final rest d F d₁ L d'}
      (hF : Emits (.final { body := kind, contexts := rest } span final) d F d₁)
      (hL : Emits (.leave kind span n rest) d₁ L d') :
      Splits (.of (.leaveRegion hF hL)) [ops span [.tryEnd], .part (.of hF), .part (.of hL)]
  | leavePending {kind span n rest d L d'} (h : Emits (.leave kind span n rest) d L d') :
      Splits (.of (.leavePending h)) [ops span [.pop], .part (.of h)]

namespace Emission

/-- Every piece other than a body splits, and what holds of its parts is there to be used. -/
theorem induct {P : Emission → Prop}
    (split : ∀ e segments, Splits e segments → Parts P segments → P e)
    (body : ∀ {span name params kind ss d L d₁ F d₂}
      (hL : Emits (.stmts { body := kind } ss) (openBody name params d).2 L d₁)
      (hF : Emits (.finish kind span L) d₁ F d₂), P (.of hL) → P (.of hF) → P (.of (.body hL hF))) (e : Emission) :
    P e := by
  obtain ⟨p, d, L, d', h⟩ := e
  induction h with
  | body hL hF ihL ihF => exact body hL hF ihL ihF
  | literal => exact split _ _ .literal trivial
  | ident => exact split _ _ .ident trivial
  | this => exact split _ _ .this trivial
  | exprsNil => exact split _ _ .exprsNil trivial
  | fieldsNil => exact split _ _ .fieldsNil trivial
  | exprThenNone => exact split _ _ .exprThenNone trivial
  | operandsIdent => exact split _ _ .operandsIdent trivial
  | saveIdent => exact split _ _ .saveIdent trivial
  | defaultConstructor => exact split _ _ .defaultConstructor trivial
  | finished hL => exact split _ _ (.finished hL) trivial
  | methodsNil => exact split _ _ .methodsNil trivial
  | stmtNone => exact split _ _ .stmtNone trivial
  | stmtsNil => exact split _ _ .stmtsNil trivial
  | strayBreak hn => exact split _ _ (.strayBreak hn) trivial
  | strayContinue hn => exact split _ _ (.strayContinue hn) trivial
  | strayReturn hb => exact split _ _ (.strayReturn hb) trivial
  | repeatedClass hc => exact split _ _ (.repeatedClass hc) trivial
  | debugger => exact split _ _ .debugger trivial
  | empty => exact split _ _ .empty trivial
  | noHandler => exact split _ _ .noHandler trivial
  | finalNone => exact split _ _ .finalNone trivial
  | leaveZero => exact split _ _ .leaveZero trivial
  | leaveNil => exact split _ _ .leaveNil trivial
  | expr h ih => exact split _ _ (.expr h) ⟨ih, trivial⟩
  | constant hk h ih => exact split _ _ (.constant hk h) ⟨ih, trivial⟩
  | badPattern hs h ih => exact split _ _ (.badPattern hs h) ⟨ih, trivial⟩
  | array h ih => exact split _ _ (.array h) ⟨ih, trivial⟩
  | record h ih => exact split _ _ (.record h) ⟨ih, trivial⟩
  | member h ih => exact split _ _ (.member h) ⟨ih, trivial⟩
  | badUpdate ht h ih => exact split _ _ (.badUpdate ht h) ⟨ih, trivial⟩
  | badAssign ht h ih => exact split _ _ (.badAssign ht h) ⟨ih, trivial⟩
  | new h ih => exact split _ _ (.new h) ⟨ih, trivial⟩
  | lambda h ih => exact split _ _ (.lambda h) ⟨ih, trivial⟩
  | exprThenSome h ih => exact split _ _ (.exprThenSome h) ⟨ih, trivial⟩
  | operandsMember h ih => exact split _ _ (.operandsMember h) ⟨ih, trivial⟩
  | saveMember h ih => exact split _ _ (.saveMember h) ⟨ih, trivial⟩
  | calleeMember h ih => exact split _ _ (.calleeMember h) ⟨ih, trivial⟩
  | calleeOther hk h ih => exact split _ _ (.calleeOther hk h) ⟨ih, trivial⟩
  | defaultOther hk h ih => exact split _ _ (.defaultOther hk h) ⟨ih, trivial⟩
  | unfinished hL h ih => exact split _ _ (.unfinished hL h) ⟨ih, trivial⟩
  | stmt h ih => exact split _ _ (.stmt h) ⟨ih, trivial⟩
  | stmtSome h ih => exact split _ _ (.stmtSome h) ⟨ih, trivial⟩
  | exprStmt h ih => exact split _ _ (.exprStmt h) ⟨ih, trivial⟩
  | var h ih => exact split _ _ (.var h) ⟨ih, trivial⟩
  | block h ih => exact split _ _ (.block h) ⟨ih, trivial⟩
  | «break» hn h ih => exact split _ _ (.break hn h) ⟨ih, trivial⟩
  | «continue» hn h ih => exact split _ _ (.continue hn h) ⟨ih, trivial⟩
  | ret hb hc h ih => exact split _ _ (.ret hb hc h) ⟨ih, trivial⟩
  | throw h ih => exact split _ _ (.throw h) ⟨ih, trivial⟩
  | functionStmt h ih => exact split _ _ (.functionStmt h) ⟨ih, trivial⟩
  | «class» hc h ih => exact split _ _ (.class hc h) ⟨ih, trivial⟩
  | returnedNone h ih => exact split _ _ (.returnedNone h) ⟨ih, trivial⟩
  | returnedSome h ih => exact split _ _ (.returnedSome h) ⟨ih, trivial⟩
  | handlerParam h ih => exact split _ _ (.handlerParam h) ⟨ih, trivial⟩
  | handler h ih => exact split _ _ (.handler h) ⟨ih, trivial⟩
  | finalSome h ih => exact split _ _ (.finalSome h) ⟨ih, trivial⟩
  | leaveLoop h ih => exact split _ _ (.leaveLoop h) ⟨ih, trivial⟩
  | leavePending h ih => exact split _ _ (.leavePending h) ⟨ih, trivial⟩
  | index h₁ h₂ ih₁ ih₂ => exact split _ _ (.index h₁ h₂) ⟨ih₁, ih₂, trivial⟩
  | negate h₁ h₂ ih₁ ih₂ => exact split _ _ (.negate h₁ h₂) ⟨ih₁, ih₂, trivial⟩
  | binary h₁ h₂ ih₁ ih₂ => exact split _ _ (.binary h₁ h₂) ⟨ih₁, ih₂, trivial⟩
  | assign h₁ h₂ ih₁ ih₂ => exact split _ _ (.assign h₁ h₂) ⟨ih₁, ih₂, trivial⟩
  | call h₁ h₂ ih₁ ih₂ => exact split _ _ (.call h₁ h₂) ⟨ih₁, ih₂, trivial⟩
  | exprsCons h₁ h₂ ih₁ ih₂ => exact split _ _ (.exprsCons h₁ h₂) ⟨ih₁, ih₂, trivial⟩
  | fieldsCons h₁ h₂ ih₁ ih₂ => exact split _ _ (.fieldsCons h₁ h₂) ⟨ih₁, ih₂, trivial⟩
  | operandsIndex h₁ h₂ ih₁ ih₂ => exact split _ _ (.operandsIndex h₁ h₂) ⟨ih₁, ih₂, trivial⟩
  | saveIndex h₁ h₂ ih₁ ih₂ => exact split _ _ (.saveIndex h₁ h₂) ⟨ih₁, ih₂, trivial⟩
  | calleeIndex h₁ h₂ ih₁ ih₂ => exact split _ _ (.calleeIndex h₁ h₂) ⟨ih₁, ih₂, trivial⟩
  | methodsCons h₁ h₂ ih₁ ih₂ => exact split _ _ (.methodsCons h₁ h₂) ⟨ih₁, ih₂, trivial⟩
  | stmtsCons h₁ h₂ ih₁ ih₂ => exact split _ _ (.stmtsCons h₁ h₂) ⟨ih₁, ih₂, trivial⟩
  | «while» h₁ h₂ ih₁ ih₂ => exact split _ _ (.while h₁ h₂) ⟨ih₁, ih₂, trivial⟩
  | retLeaving hb hc h₁ h₂ ih₁ ih₂ => exact split _ _ (.retLeaving hb hc h₁ h₂) ⟨ih₁, ih₂, trivial⟩
  | leaveRegion h₁ h₂ ih₁ ih₂ => exact split _ _ (.leaveRegion h₁ h₂) ⟨ih₁, ih₂, trivial⟩
  | not h₁ h₂ h₃ ih₁ ih₂ ih₃ => exact split _ _ (.not h₁ h₂ h₃) ⟨ih₁, ih₂, ih₃, trivial⟩
  | logical h₁ h₂ h₃ ih₁ ih₂ ih₃ => exact split _ _ (.logical h₁ h₂ h₃) ⟨ih₁, ih₂, ih₃, trivial⟩
  | conditional h₁ h₂ h₃ ih₁ ih₂ ih₃ => exact split _ _ (.conditional h₁ h₂ h₃) ⟨ih₁, ih₂, ih₃, trivial⟩
  | cond h₁ h₂ h₃ ih₁ ih₂ ih₃ => exact split _ _ (.cond h₁ h₂ h₃) ⟨ih₁, ih₂, ih₃, trivial⟩
  | «for» h₁ h₂ h₃ h₄ ih₁ ih₂ ih₃ ih₄ => exact split _ _ (.for h₁ h₂ h₃ h₄) ⟨ih₁, ih₂, ih₃, ih₄, trivial⟩
  | «try» h₁ h₂ h₃ h₄ ih₁ ih₂ ih₃ ih₄ => exact split _ _ (.try h₁ h₂ h₃ h₄) ⟨ih₁, ih₂, ih₃, ih₄, trivial⟩
  | @assignOp _ _ _ _ _ place _ _ _ _ _ h₁ h₂ ih₁ ih₂ =>
    refine split _ _ (.assignOp h₁ h₂) ?_
    cases place <;> exact ⟨ih₁, ih₂, trivial⟩
  | @update _ _ giveNew _ _ place _ _ _ _ _ h₁ h₂ ih₁ ih₂ =>
    cases giveNew with
    | true =>
      refine split _ _ (.update h₁ h₂) ?_
      cases place <;> exact ⟨ih₁, ih₂, trivial⟩
    | false =>
      refine split _ _ (.updateOld h₁ h₂) ?_
      cases place <;> exact ⟨ih₁, ih₂, trivial⟩

/-- The code around the uses of a target is that of its segments: a name has no operands to keep. -/
theorem codes_around {span : Span} {k : ExprKind} {place : Target} {d d₁ : Draft} {K : Listing}
    (hK : Emits (.operands span k place) d K d₁) (uses : List Segment) :
    codes (Segment.around span (.of hK) uses place) = place.around span K.code (codes uses) := by
  cases hK <;> simp [Segment.around, Target.around, inScope]

/-- A body has no code in line. -/
theorem code_of_body {span : Span} {name : String} {params : List String} {kind : BodyKind} {ss : List Stmt}
    {d d' : Draft} {L : Listing} (h : Emits (.body span name params kind ss) d L d') : L.code = [] := by
  cases h
  rfl

/-- Methods have none. -/
theorem code_of_methods {span : Span} {className : String} {ms : List Method} {indices : List Nat} {d d' : Draft}
    {L : Listing} (h : Emits (.methods span className ms indices) d L d') : L.code = [] := by
  cases h <;> rfl

/-- The code of what was compiled: that of its segments, marked if it is a statement. -/
theorem Splits.code {e : Emission} {segments : List Segment} (h : Splits e segments) :
    e.listing.code = if e.piece matches .stmt _ _ then markFirst (codes segments) else codes segments := by
  cases h with
  | stmt => simp
  | update hK | updateOld hK | assignOp hK => simp [codes_around hK]
  | lambda h | functionStmt h => simp [code_of_body h]
  | methodsCons hL hR => simp [code_of_body hL, code_of_methods hR]
  | «class» _ h => simp [code_of_methods h]
  | _ => simp [inScope]

end Emission

end ScriptMachine.Compile
