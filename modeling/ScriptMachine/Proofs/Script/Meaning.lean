import ScriptMachine.Compile.Generate
import ScriptMachine.Proofs.Machine.Exec

/-!
# Meaning — what scripts mean without a machine

The meaning of expressions is a computation on the heap, and that of statements a relation: a
statement leads from a heap to a completion and another heap. A completion is normal, or it leaves a
loop, a body or everything up to a handler; a final part runs once whatever the completion before it,
and replaces that completion if its own is not normal. There are no instructions, no stack and no
copies of final parts here.

A machine serves as the world around a script: names that no scope defines are looked up in its
program and its registry, and host values are its own. Calls, `new`, function expressions and what the
generator refuses have no meaning here.
-/

namespace ScriptMachine.Meaning

open Compile

/-- Computations on the heap that may fail. -/
abbrev Calc := EStateM Cause Heap

/-- The failure of what has no meaning. Nothing catches it. -/
def meaningless {α : Type} : Calc α := throw .halted

/-- Reads from the world, seen from a scope. -/
def look {α : Type} (m : Machine) (env : ScopeId) (f : Machine → Except Cause α) : Calc α := fun h =>
  match f { m with env, heap := h } with
  | .ok a => .ok a h
  | .error c => .error c h

/-- Makes something new on the heap. -/
def make {α : Type} (f : Heap → α × Heap) : Calc α := fun h => .ok (f h).1 (f h).2

/-- Declares a name in a scope. -/
def declare (env : ScopeId) (name : String) (v : Value) : Calc Unit :=
  make fun h => ((), h.define env name v)

/-- Assigns to the nearest scope that defines a name. -/
def assign (env : ScopeId) (name : String) (v : Value) : Calc Unit := fun h =>
  match h.slot env name with
  | .ok slot => .ok () (h.define slot name v)
  | .error c => .error c h

/-- Writes a property. -/
def setProperty (m : Machine) (env : ScopeId) (target key v : Value) : Calc Unit := fun h =>
  match { m with env, heap := h }.setProperty target key v with
  | (.ok (), m) => .ok () m.heap
  | (.error c, m) => .error c m.heap

/-- Whether a value is a pattern with a given source. -/
def isPattern (source : String) : Value → Bool
  | .regex _ q => q.source == source
  | _ => false

/-- The value of a pattern in the pool. Patterns with one source are one value. -/
def pattern (m : Machine) (source : String) : Calc Value :=
  match m.program.constants.find? (isPattern source) with
  | some v => pure v
  | none => meaningless

/-! ### Expressions -/

/-- A target whose operands have values. -/
inductive Place where
  | plain (name : String)
  | property (object key : Value)
  deriving Inhabited

/-- The value at a place. -/
def Place.read (m : Machine) (env : ScopeId) : Place → Calc Value
  | .plain name => look m env (·.lookup name)
  | .property object key => look m env (·.property object key)

/-- Writes to a place. -/
def Place.write (m : Machine) (env : ScopeId) : Place → Value → Calc Unit
  | .plain name, v => assign env name v
  | .property object key, v => setProperty m env object key v

/-- What uses the value of a target: if the target is a property, it gets a scope of its own. -/
def holding {α : Type} (env : ScopeId) (target : ExprKind) (x : ScopeId → Calc α) : Calc α :=
  match target with
  | .member _ _ | .index _ _ => do x (← make (·.newChild env))
  | _ => x env

mutual

/-- The value of an expression. -/
def eval (m : Machine) (env : ScopeId) : Expr → Calc Value
  | .node _ k => evalKind m env k

/-- The value of an expression by its form. -/
def evalKind (m : Machine) (env : ScopeId) : ExprKind → Calc Value
  | .undefined => pure .undefined
  | .null => pure .null
  | .bool b => pure (.bool b)
  | .number bits => pure (.number bits)
  | .string s => pure (.string s)
  | .regex source =>
    match Pattern.compile source with
    | .ok p => pattern m p.source
    | .error _ => meaningless
  | .array items => do
    let values ← evalAll m env items
    return .array (← make (·.newArray values.toArray))
  | .record fields => do
    let values ← evalFields m env fields
    return .object (← make (Machine.newInstance Machine.recordClass m.globals ((fields.map Prod.fst).zip values)))
  | .ident name => look m env (·.lookup name)
  | .this => look m env (·.lookup thisName)
  | .member object property => do
    let object ← eval m env object
    look m env (·.property object (.string property))
  | .index object key => do
    let object ← eval m env object
    let key ← eval m env key
    look m env (·.property object key)
  | .not operand => do return .bool !(← eval m env operand).isTruthy
  | .negate operand => do
    let v ← eval m env operand
    look m env fun m => BinaryOp.sub.apply m.heap (Literal.zero.value 0) v
  | .update op giveNew (.node _ target) => holding env target fun env => do
    let place ← evalPlace m env target
    let old ← place.read m env
    let new ← look m env fun m => (updateOp op).apply m.heap old (Literal.one.value 0)
    place.write m env new
    -- the new value is what the target then holds
    if giveNew then place.read m env else return old
  | .binary op left right => do
    let a ← eval m env left
    let b ← eval m env right
    look m env fun m => op.apply m.heap a b
  | .logical .and left right => do
    if (← eval m env left).isTruthy then eval m env right else return .bool false
  | .logical .or left right => do
    if (← eval m env left).isTruthy then return .bool true else eval m env right
  | .assign none (.node own target) value => do
    if (Expr.node own target).isAssignable then
      let v ← eval m env value
      let place ← evalPlace m env target
      place.write m env v
      return v
    else meaningless
  | .assign (some op) (.node _ target) value => holding env target fun env => do
    let place ← evalPlace m env target
    let old ← place.read m env
    let v ← eval m env value
    let new ← look m env fun m => op.apply m.heap old v
    place.write m env new
    return new
  | .conditional test yes no => do
    if (← eval m env test).isTruthy then eval m env yes else eval m env no
  | .call _ _ | .new _ _ | .function _ _ _ => meaningless

/-- The place that a target stands for. -/
def evalPlace (m : Machine) (env : ScopeId) : ExprKind → Calc Place
  | .ident name => pure (.plain name)
  | .member object property => do return .property (← eval m env object) (.string property)
  | .index object key => do
    let object ← eval m env object
    return .property object (← eval m env key)
  | _ => meaningless

/-- The values of expressions, in order. -/
def evalAll (m : Machine) (env : ScopeId) : List Expr → Calc (List Value)
  | [] => pure []
  | e :: rest => do
    let v ← eval m env e
    return v :: (← evalAll m env rest)

/-- The values of the fields of a record, in order. -/
def evalFields (m : Machine) (env : ScopeId) : List (String × Expr) → Calc (List Value)
  | [] => pure []
  | (_, e) :: rest => do
    let v ← eval m env e
    return v :: (← evalFields m env rest)

end

/-- What a return gives: a value, or what the body returns by itself. -/
def evalReturn (m : Machine) (env : ScopeId) : BodyKind → Option Expr → Calc Value
  | _, some e => eval m env e
  | .constructor, none => look m env (·.lookup thisName)
  | _, none => pure .undefined

/-- Declares a variable, and assigns to it what it begins with. -/
def introduce (m : Machine) (env : ScopeId) (name : String) : Option Expr → Calc Unit
  | none => declare env name .undefined
  | some e => do
    declare env name .undefined
    assign env name (← eval m env e)

/-- The value of an expression that may be absent. -/
def evalOr (m : Machine) (env : ScopeId) (default : Value) : Option Expr → Calc Value
  | none => pure default
  | some e => eval m env e

/-- What a computation comes to: a result or an exception. Failures that nothing can catch are neither. -/
def attempt {α : Type} (x : Calc α) (h : Heap) : Option (Except Value α × Heap) :=
  match x h with
  | .ok a h => some (.ok a, h)
  | .error c h =>
    if c.isCatchable then some (.error (Machine.thrownValue c h).1, (Machine.thrownValue c h).2) else none

/-! ### Statements -/

/-- How a statement ends. -/
inductive Completion where
  | normal
  | break
  | continue
  | ret (v : Value)
  | throw (v : Value)

/-- The completion of a try statement: that of its final part, unless it is normal. -/
def Completion.unless (pending : Completion) : Completion → Completion
  | .normal => pending
  | final => final

/-- The surroundings of a statement: the kind of its body, and whether it stands in a loop. -/
structure Site where
  body : BodyKind
  inLoop : Bool

/-- What is run. -/
inductive Task where
  | stmt (s : Stmt)
  | stmts (ss : List Stmt)
  | option (s : Option Stmt)
  /-- Statements in a scope of their own. -/
  | scoped (ss : List Stmt)
  /-- A loop from the test on. -/
  | loop (test update : Option Expr) (body : Stmt)
  /-- The body of a try statement with its handler. -/
  | guarded (ss : List Stmt) (handler : Option Handler)
  /-- A handler that gets an exception. -/
  | handler (handler : Option Handler) (thrown : Value)
  | final (final : Option (List Stmt))

/-- A task leads from a heap to a completion and another heap. -/
inductive Runs (m : Machine) : Site → ScopeId → Task → Heap → Completion → Heap → Prop where
  -- sequences and scopes
  | nil {site env h} : Runs m site env (.stmts []) h .normal h
  | cons {site env s rest h h₁ c h'} :
      Runs m site env (.stmt s) h .normal h₁ → Runs m site env (.stmts rest) h₁ c h' →
      Runs m site env (.stmts (s :: rest)) h c h'
  | stop {site env s rest h c h'} :
      Runs m site env (.stmt s) h c h' → c ≠ .normal → Runs m site env (.stmts (s :: rest)) h c h'
  | absent {site env h} : Runs m site env (.option none) h .normal h
  | present {site env s h c h'} :
      Runs m site env (.stmt s) h c h' → Runs m site env (.option (some s)) h c h'
  | scoped {site env ss h c h'} :
      Runs m site (h.newChild env).1 (.stmts ss) (h.newChild env).2 c h' →
      Runs m site env (.scoped ss) h c h'
  -- plain statements
  | expr {site env span e h v h'} :
      attempt (eval m env e) h = some (.ok v, h') → Runs m site env (.stmt (.node span (.expr e))) h .normal h'
  | exprThrows {site env span e h v h'} :
      attempt (eval m env e) h = some (.error v, h') →
      Runs m site env (.stmt (.node span (.expr e))) h (.throw v) h'
  | var {site env span name init h h'} :
      attempt (introduce m env name init) h = some (.ok (), h') →
      Runs m site env (.stmt (.node span (.var name init))) h .normal h'
  | varThrows {site env span name init h v h'} :
      attempt (introduce m env name init) h = some (.error v, h') →
      Runs m site env (.stmt (.node span (.var name init))) h (.throw v) h'
  | block {site env span ss h c h'} :
      Runs m site env (.scoped ss) h c h' → Runs m site env (.stmt (.node span (.block ss))) h c h'
  | function {site env span name params ss h} :
      Runs m site env (.stmt (.node span (.function name params ss))) h .normal h
  | class {site env span name methods h} :
      Runs m site env (.stmt (.node span (.class name methods))) h .normal h
  | empty {site env span h} : Runs m site env (.stmt (.node span .empty)) h .normal h
  -- conditionals and loops
  | yes {site env span test yes no h v h₁ c h'} :
      attempt (eval m env test) h = some (.ok v, h₁) → v.isTruthy = true →
      Runs m site env (.stmt yes) h₁ c h' → Runs m site env (.stmt (.node span (.cond test yes no))) h c h'
  | no {site env span test yes no h v h₁ c h'} :
      attempt (eval m env test) h = some (.ok v, h₁) → v.isTruthy = false →
      Runs m site env (.option no) h₁ c h' → Runs m site env (.stmt (.node span (.cond test yes no))) h c h'
  | testThrows {site env span test yes no h v h'} :
      attempt (eval m env test) h = some (.error v, h') →
      Runs m site env (.stmt (.node span (.cond test yes no))) h (.throw v) h'
  | while {site env span test body h c h'} :
      Runs m site env (.loop (some test) none body) h c h' →
      Runs m site env (.stmt (.node span (.while test body))) h c h'
  | for {site env span init test update body h h₁ c h'} :
      Runs m site (h.newChild env).1 (.option init) (h.newChild env).2 .normal h₁ →
      Runs m site (h.newChild env).1 (.loop test update body) h₁ c h' →
      Runs m site env (.stmt (.node span (.for init test update body))) h c h'
  | forStops {site env span init test update body h c h'} :
      Runs m site (h.newChild env).1 (.option init) (h.newChild env).2 c h' → c ≠ .normal →
      Runs m site env (.stmt (.node span (.for init test update body))) h c h'
  | loopDone {site env test update body h v h'} :
      attempt (evalOr m env (.bool true) test) h = some (.ok v, h') → v.isTruthy = false →
      Runs m site env (.loop test update body) h .normal h'
  | loopThrows {site env test update body h v h'} :
      attempt (evalOr m env (.bool true) test) h = some (.error v, h') →
      Runs m site env (.loop test update body) h (.throw v) h'
  | loopNext {site env test update body h v h₁ c₁ h₂ w h₃ c h'} :
      attempt (evalOr m env (.bool true) test) h = some (.ok v, h₁) → v.isTruthy = true →
      Runs m { site with inLoop := true } env (.stmt body) h₁ c₁ h₂ → c₁ = .normal ∨ c₁ = .continue →
      attempt (evalOr m env .undefined update) h₂ = some (.ok w, h₃) →
      Runs m site env (.loop test update body) h₃ c h' → Runs m site env (.loop test update body) h c h'
  | updateThrows {site env test update body h v h₁ c₁ h₂ w h'} :
      attempt (evalOr m env (.bool true) test) h = some (.ok v, h₁) → v.isTruthy = true →
      Runs m { site with inLoop := true } env (.stmt body) h₁ c₁ h₂ → c₁ = .normal ∨ c₁ = .continue →
      attempt (evalOr m env .undefined update) h₂ = some (.error w, h') →
      Runs m site env (.loop test update body) h (.throw w) h'
  | loopBreak {site env test update body h v h₁ h'} :
      attempt (evalOr m env (.bool true) test) h = some (.ok v, h₁) → v.isTruthy = true →
      Runs m { site with inLoop := true } env (.stmt body) h₁ .break h' →
      Runs m site env (.loop test update body) h .normal h'
  | loopLeft {site env test update body h v h₁ c h'} :
      attempt (evalOr m env (.bool true) test) h = some (.ok v, h₁) → v.isTruthy = true →
      Runs m { site with inLoop := true } env (.stmt body) h₁ c h' →
      (∃ w, c = .ret w) ∨ (∃ w, c = .throw w) → Runs m site env (.loop test update body) h c h'
  -- exits
  | break {site env span h} :
      site.inLoop = true → Runs m site env (.stmt (.node span .break)) h .break h
  | continue {site env span h} :
      site.inLoop = true → Runs m site env (.stmt (.node span .continue)) h .continue h
  | ret {site env span value h v h'} :
      site.body ≠ .script → attempt (evalReturn m env site.body value) h = some (.ok v, h') →
      Runs m site env (.stmt (.node span (.ret value))) h (.ret v) h'
  | retThrows {site env span value h v h'} :
      site.body ≠ .script → attempt (evalReturn m env site.body value) h = some (.error v, h') →
      Runs m site env (.stmt (.node span (.ret value))) h (.throw v) h'
  | throw {site env span e h v h'} :
      attempt (eval m env e) h = some (.ok v, h') →
      Runs m site env (.stmt (.node span (.throw e))) h (.throw v) h'
  | throwThrows {site env span e h v h'} :
      attempt (eval m env e) h = some (.error v, h') →
      Runs m site env (.stmt (.node span (.throw e))) h (.throw v) h'
  -- try statements
  | try {site env span body handler final h c h₁ c' h'} :
      Runs m site env (.guarded body handler) h c h₁ → Runs m site env (.final final) h₁ c' h' →
      Runs m site env (.stmt (.node span (.try body handler final))) h (c.unless c') h'
  | unharmed {site env body handler h c h'} :
      Runs m site env (.scoped body) h c h' → (∀ v, c ≠ .throw v) →
      Runs m site env (.guarded body handler) h c h'
  | caught {site env body handler h v h₁ c h'} :
      Runs m site env (.scoped body) h (.throw v) h₁ → Runs m site env (.handler handler v) h₁ c h' →
      Runs m site env (.guarded body handler) h c h'
  | noHandler {site env v h} : Runs m site env (.handler none v) h (.throw v) h
  | handler {site env ss v h c h'} :
      Runs m site env (.scoped ss) h c h' → Runs m site env (.handler (some (.clause none ss)) v) h c h'
  | handlerParam {site env param ss v h c h'} :
      Runs m site (h.newChild env).1 (.stmts ss)
        ((h.newChild env).2.define (h.newChild env).1 param v) c h' →
      Runs m site env (.handler (some (.clause (some param) ss)) v) h c h'
  | noFinal {site env h} : Runs m site env (.final none) h .normal h
  | final {site env ss h c h'} :
      Runs m site env (.scoped ss) h c h' → Runs m site env (.final (some ss)) h c h'

/-- What a body comes to: a value or an exception, and a heap. -/
inductive Comes (m : Machine) (kind : BodyKind) (env : ScopeId) (ss : List Stmt) (h : Heap) :
    Except Value Value → Heap → Prop where
  | falls {h₁ r h'} : Runs m ⟨kind, false⟩ env (.stmts ss) h .normal h₁ →
      attempt (evalReturn m env kind none) h₁ = some (r, h') → Comes m kind env ss h r h'
  | returns {v h'} : Runs m ⟨kind, false⟩ env (.stmts ss) h (.ret v) h' → Comes m kind env ss h (.ok v) h'
  | throws {v h'} : Runs m ⟨kind, false⟩ env (.stmts ss) h (.throw v) h' →
      Comes m kind env ss h (.error v) h'

end ScriptMachine.Meaning
