import ScriptMachine.Compile.Context

/-!
# Generate — the code of statements and expressions

Every tree becomes a list of instructions that carry its place. The code of an expression pushes one
value; the code of a statement leaves the stack as it found it, and its first instruction is a
boundary.

An exit from a try statement compiles the final part once more in its own place, within the contexts
around the try statement. That is work on a tree outside of the statement at hand, and it ends: the
contexts left to leave get fewer, and what they may cost was paid when they were entered. The measure
is twice the size of the tree and the weight of its contexts.
-/

namespace ScriptMachine.Compile

/-- The hidden name of a value that is being returned. -/
def returnSlot : String := "@return"

/-- The name of the method that `new` runs. -/
def constructorName : String := "constructor"

/-- Instructions at one place. -/
def emit (span : Span) (ops : List Opcode) : Code := ops.map fun op => { op, span }

/-- Marks the first instruction as the boundary of a statement. A flag that the first instruction to be
written takes marks the same one: see `Compile.Emits.flagged`. -/
def markFirst : Code → Code
  | [] => []
  | i :: rest => { i with boundary := true } :: rest

/-- Pushes a constant. -/
def constant (span : Span) (literal : Literal) : Gen Code := do
  return emit span [.const (← poolIndex literal)]

/-- Code inside a scope of its own. -/
def inScope (span : Span) (body : Code) : Code :=
  emit span [.enterScope] ++ body ++ emit span [.leaveScope]

/-- The last operation of some code. -/
def lastOp? (code : Code) : Option Opcode := code.getLast?.map (·.op)

/-! ### Targets -/

/-- A target that can be read and written any number of times: a name, or a property whose operands
are kept under hidden names. Operands keep their places. -/
inductive Target where
  | plain (name : String)
  | property (object : String) (objectSpan : Span) (name : String)
  | element (object : String) (objectSpan : Span) (key : String) (keySpan : Span)

namespace Target

/-- Pushes the value of a target. -/
def load (span : Span) : Target → Code
  | .plain name => emit span [.fetch name]
  | .property object objectSpan name =>
    emit (span.refine objectSpan) [.fetch object] ++ emit span [.fetchProperty name]
  | .element object objectSpan key keySpan =>
    emit (span.refine objectSpan) [.fetch object] ++ emit (span.refine keySpan) [.fetch key]
      ++ emit span [.fetchProperty indexer]

/-- Takes a value and writes it to a target. -/
def save (span : Span) : Target → Code
  | .plain name => emit span [.store name]
  | .property object objectSpan name =>
    emit (span.refine objectSpan) [.fetch object] ++ emit span [.storeProperty name]
  | .element object objectSpan key keySpan =>
    emit (span.refine objectSpan) [.fetch object] ++ emit (span.refine keySpan) [.fetch key]
      ++ emit span [.storeProperty indexer]

/-- Code around the uses of a target: what keeps the operands, and a scope if there are any. -/
def around (span : Span) (keep : Code) (uses : Code) : Target → Code
  | .plain _ => uses
  | _ => inScope span (keep ++ uses)

end Target

/-- Keeps the top value under a hidden name. -/
def keepAs (span : Span) (name : String) : Code := emit span [.declare name, .store name]

/-- The operation of an update. -/
def updateOp : UpdateOp → BinaryOp
  | .increment => .add
  | .decrement => .sub

/-- The name of a function expression in the function table. -/
def lambdaName (name : Option String) (number : Nat) : String :=
  "@" ++ name.getD "lambda" ++ s!"#{number}"

/-- The kind of the body of a method. -/
def methodKind (name : String) : BodyKind :=
  if name = constructorName then .constructor else .function

/-- What a body returns by itself: a constructor its receiver, any other body `undefined`. -/
def defaultResult (kind : BodyKind) (span : Span) : Gen Code :=
  match kind with
  | .constructor => return emit span [.fetch thisName]
  | _ => constant span .undefined

/-- The code of a body with the return it lacks. -/
def finishBody (kind : BodyKind) (span : Span) (code : Code) : Gen Code :=
  if lastOp? code = some .ret then return code
  else return code ++ (← defaultResult kind span) ++ emit span [.ret]

/-! ### The generator -/

mutual

/-- The code of an expression inside a place. -/
def expr (outer : Span) : Expr → Gen Code
  | .node own kind => exprKind (outer.refine own) kind
termination_by e => 2 * sizeOf e

/-- The code of an expression at its place. -/
def exprKind (span : Span) : ExprKind → Gen Code
  | .undefined => constant span .undefined
  | .null => constant span .null
  | .bool b => constant span (.bool b)
  | .number bits => constant span (.number bits)
  | .string s => constant span (.string s)
  | .regex source =>
    match Pattern.compile source with
    | .ok pattern => constant span (.regex pattern)
    | .error refusal => do
      report span (Cause.message {} (.badPattern source refusal))
      constant span .undefined
  | .array items => do
    return (← exprs span items) ++ emit span [.createArray items.length]
  | .record fields => do
    return (← fieldValues span fields) ++ emit span [.createRecord (fields.map Prod.fst)]
  | .ident name => return emit span [.fetch name]
  | .this => return emit span [.fetch thisName]
  | .member object property => do
    return (← expr span object) ++ emit span [.fetchProperty property]
  | .index object key => do
    let object ← expr span object
    let key ← expr span key
    return object ++ key ++ emit span [.fetchProperty indexer]
  | .not operand => do
    let isTrue ← newLabel
    let done ← newLabel
    let operand ← expr span operand
    let yes ← constant span (.bool true)
    let no ← constant span (.bool false)
    return operand ++ emit span [.jumpTrue isTrue] ++ yes ++ emit span [.jump done, .label isTrue]
      ++ no ++ emit span [.label done]
  | .negate operand => do
    let zero ← constant span .zero
    let operand ← expr span operand
    return zero ++ operand ++ emit span [.binary .sub]
  | .update op giveNew (.node own kind) => do
    match ← target span kind with
    | none =>
      report span "invalid increment/decrement target"
      constant span .undefined
    | some (place, keep) =>
      let load := place.load (span.refine own)
      let one ← constant span .one
      let change := one ++ emit span [.binary (updateOp op)] ++ place.save span
      let uses := if giveNew then load ++ change ++ load else load ++ load ++ change
      return place.around span keep uses
  | .binary op left right => do
    let left ← expr span left
    let right ← expr span right
    return left ++ right ++ emit span [.binary op]
  | .logical op left right => do
    let shortcut ← newLabel
    let done ← newLabel
    let left ← expr span left
    let right ← expr span right
    let (jump, fallback) := match op with
      | .and => (Opcode.jumpFalse shortcut, false)
      | .or => (Opcode.jumpTrue shortcut, true)
    let otherwise ← constant span (.bool fallback)
    return left ++ emit span [jump] ++ right ++ emit span [.jump done, .label shortcut] ++ otherwise
      ++ emit span [.label done]
  | .assign (some op) (.node own kind) value => do
    match ← target span kind with
    | none =>
      report span "invalid assignment target"
      constant span .undefined
    | some (place, keep) =>
      let value ← expr span value
      let uses := place.load (span.refine own) ++ value ++ emit span [.binary op, .dup]
        ++ place.save span
      return place.around span keep uses
  | .assign none (.node _ kind) value => do
    if (Expr.node .unknown kind).isAssignable then
      let value ← expr span value
      let store ← storeTo span kind
      return value ++ emit span [.dup] ++ store
    else
      report span "invalid assignment target"
      constant span .undefined
  | .conditional test yes no => do
    let otherwise ← newLabel
    let done ← newLabel
    let test ← expr span test
    let yes ← expr span yes
    let no ← expr span no
    return test ++ emit span [.jumpFalse otherwise] ++ yes
      ++ emit span [.jump done, .label otherwise] ++ no ++ emit span [.label done]
  | .call callee args => do
    let values ← exprs span args
    let callee ← calleeCode span args.length callee
    return values ++ callee
  | .new className args => do
    return (← exprs span args) ++ emit span [.createObject className args.length]
  | .function name params body => do
    let name := lambdaName name (← newLambda)
    let _ ← function span name params .function body
    return emit span [.fetch name]
termination_by kind => 2 * sizeOf kind

/-- The code of expressions in order. -/
def exprs (span : Span) : List Expr → Gen Code
  | [] => return []
  | e :: rest => do
    let code ← expr span e
    return code ++ (← exprs span rest)
termination_by es => 2 * sizeOf es

/-- The code of the values of a record in order. -/
def fieldValues (span : Span) : List (String × Expr) → Gen Code
  | [] => return []
  | (_, e) :: rest => do
    let code ← expr span e
    return code ++ (← fieldValues span rest)
termination_by fields => 2 * sizeOf fields

/-- The code of an expression, if there is one, and what follows it. -/
def exprThen (span : Span) (after : List Opcode) : Option Expr → Gen Code
  | none => return []
  | some e => return (← expr span e) ++ emit span after
termination_by e => 2 * sizeOf e

/-- A target that is read before it is written, with the code that keeps its operands. -/
def target (span : Span) : ExprKind → Gen (Option (Target × Code))
  | .ident name => return some (.plain name, [])
  | .member object property => do
    let name ← newParked
    let code ← expr span object
    return some (.property name object.span property, code ++ keepAs span name)
  | .index object key => do
    let objectName ← newParked
    let objectCode ← expr span object
    let keyName ← newParked
    let keyCode ← expr span key
    return some (.element objectName object.span keyName key.span,
      objectCode ++ keepAs span objectName ++ keyCode ++ keepAs span keyName)
  | _ => return none
termination_by kind => 2 * sizeOf kind

/-- Takes a value and writes it to a target that is not read. -/
def storeTo (span : Span) : ExprKind → Gen Code
  | .ident name => return emit span [.store name]
  | .member object property => do
    return (← expr span object) ++ emit span [.storeProperty property]
  | .index object key => do
    let object ← expr span object
    let key ← expr span key
    return object ++ key ++ emit span [.storeProperty indexer]
  | _ => return []
termination_by kind => 2 * sizeOf kind

/-- The code of a callee and the call; a property is called as a method of its object. -/
def calleeCode (span : Span) (argc : Nat) : Expr → Gen Code
  | .node _ (.member object property) => do
    return (← expr span object) ++ emit span [.dup, .fetchProperty property, .call argc true]
  | .node _ (.index object key) => do
    let object ← expr span object
    let key ← expr span key
    return object ++ emit span [.dup] ++ key ++ emit span [.fetchProperty indexer, .call argc true]
  | .node own kind => do
    return (← exprKind (span.refine own) kind) ++ emit span [.call argc false]
termination_by e => 2 * sizeOf e

/-- Compiles a body of its own and gives its number. -/
def function (span : Span) (name : String) (params : List String) (kind : BodyKind)
    (body : List Stmt) : Gen Nat := do
  let index ← openBody name params
  let code ← stmts { body := kind } body
  closeBody index (← finishBody kind span code)
  return index
termination_by 2 * sizeOf body + 1
decreasing_by simp [Surroundings.weight, weight]

/-- Compiles the methods of a class and gives their numbers. -/
def methods (span : Span) (className : String) : List Method → Gen (List Nat)
  | [] => return []
  | .node name params body :: rest => do
    let index ← function span (ScriptFunction.methodName className name) params (methodKind name) body
    return index :: (← methods span className rest)
termination_by ms => 2 * sizeOf ms

/-- The code of a statement. -/
def stmt (around : Surroundings) : Stmt → Gen Code
  | .node span kind => return markFirst (← stmtKind around span kind)
termination_by s => 2 * sizeOf s + around.weight

/-- The code of a statement, if there is one. -/
def stmtOption (around : Surroundings) : Option Stmt → Gen Code
  | none => return []
  | some s => stmt around s
termination_by s => 2 * sizeOf s + around.weight

/-- The code of statements in order. -/
def stmts (around : Surroundings) : List Stmt → Gen Code
  | [] => return []
  | s :: rest => do
    let code ← stmt around s
    return code ++ (← stmts around rest)
termination_by ss => 2 * sizeOf ss + around.weight

/-- The code of a statement before its boundary is marked. -/
def stmtKind (around : Surroundings) (span : Span) : StmtKind → Gen Code
  | .expr e => return (← expr span e) ++ emit span [.pop]
  | .var name init => do
    return emit span [.declare name] ++ (← exprThen span [.store name] init)
  | .block body => return inScope span (← stmts around body)
  | .cond test yes no => do
    let otherwise ← newLabel
    let done ← newLabel
    let test ← expr span test
    let yes ← stmt around yes
    let no ← stmtOption around no
    return test ++ emit span [.jumpFalse otherwise] ++ yes
      ++ emit span [.jump done, .label otherwise] ++ no ++ emit span [.label done]
  | .while test body => do
    let start ← newLabel
    let done ← newLabel
    let test ← expr span test
    let body ← stmt (around.inside (.loop start done)) body
    return emit span [.loopStart, .label start] ++ test ++ emit span [.jumpFalse done] ++ body
      ++ emit span [.jump start, .label done, .loopEnd]
  | .for init test update body => do
    let start ← newLabel
    let next ← newLabel
    let done ← newLabel
    let init ← stmtOption around init
    let test ← exprThen span [.jumpFalse done] test
    let body ← stmt (around.inside (.loop next done)) body
    let update ← exprThen span [.pop] update
    return inScope span
      (init ++ emit span [.loopStart, .label start] ++ test ++ body ++ emit span [.label next]
        ++ update ++ emit span [.jump start, .label done, .loopEnd])
  | .break => do
    match innermostLoop? around.contexts with
    | some (n, _, breakTo) =>
      return (← leave around.body span n around.contexts) ++ emit span [.loopExit breakTo]
    | none =>
      report span "`break` outside of a loop"
      return []
  | .continue => do
    match innermostLoop? around.contexts with
    | some (n, continueTo, _) =>
      return (← leave around.body span n around.contexts) ++ emit span [.loopExit continueTo]
    | none =>
      report span "`continue` outside of a loop"
      return []
  | .ret value => do
    if around.body = .script then
      report span "`return` outside of a function"
      return []
    else
      let value ← returned around.body span value
      if around.contexts.isEmpty then return value ++ emit span [.ret]
      else
        let cleanup ← leave around.body span around.contexts.length around.contexts
        return value ++ keepAs span returnSlot ++ cleanup ++ emit span [.fetch returnSlot, .ret]
  | .throw value => return (← expr span value) ++ emit span [.throw]
  | .try body handler final => do
    let caught ← newLabel
    let rethrow ← newLabel
    let done ← newLabel
    let inner := around.inside (.region final)
    let body ← stmts inner body
    let handler ← handlerCode inner span handler
    let failing ← finalCode (around.inside .pendingThrow) span final
    let ending ← finalCode around span final
    return emit span [.tryStart caught (final.map fun _ => rethrow) false]
      ++ inScope span body ++ emit span [.tryEnd, .jump done, .label caught, .tryStart rethrow none true]
      ++ handler ++ emit span [.tryEnd, .jump done, .label rethrow]
      ++ failing ++ emit span [.throw, .label done] ++ ending
  | .function name params body => do
    let _ ← function span name params .function body
    return []
  | .class name ms => do
    if ← classDeclared name then
      report span ("duplicate class declaration `" ++ name ++ "`")
      return []
    else
      declareClass name (← methods span name ms)
      return []
  | .debugger => return emit span [.debugger]
  | .empty => return []
termination_by kind => 2 * sizeOf kind + around.weight
decreasing_by
  all_goals
    simp only [Surroundings.weight, Surroundings.inside, weight, Context.weight,
      StmtKind.expr.sizeOf_spec, StmtKind.var.sizeOf_spec, StmtKind.block.sizeOf_spec,
      StmtKind.cond.sizeOf_spec, StmtKind.while.sizeOf_spec, StmtKind.for.sizeOf_spec,
      StmtKind.break.sizeOf_spec, StmtKind.continue.sizeOf_spec, StmtKind.ret.sizeOf_spec,
      StmtKind.throw.sizeOf_spec, StmtKind.try.sizeOf_spec, StmtKind.function.sizeOf_spec,
      StmtKind.class.sizeOf_spec]
    omega

/-- The value of a return statement. -/
def returned (kind : BodyKind) (span : Span) : Option Expr → Gen Code
  | none => defaultResult kind span
  | some e => expr span e
termination_by e => 2 * sizeOf e

/-- The code of a handler, which finds the thrown value on the stack. Without a handler the value is
thrown again. -/
def handlerCode (around : Surroundings) (span : Span) : Option Handler → Gen Code
  | none => return emit span [.throw]
  | some (.clause (some param) body) => do
    return inScope span (keepAs span param ++ (← stmts around body))
  | some (.clause none body) => do
    return emit span [.pop] ++ inScope span (← stmts around body)
termination_by handler => 2 * sizeOf handler + around.weight

/-- The code of a final part. -/
def finalCode (around : Surroundings) (span : Span) : Option (List Stmt) → Gen Code
  | none => return []
  | some body => return inScope span (← stmts around body)
termination_by final => 2 * sizeOf final + around.weight

/-- Takes away what the innermost `n` contexts have on the stack, and runs the final parts on the
way, each within the contexts around it. -/
def leave (kind : BodyKind) (span : Span) : Nat → List Context → Gen Code
  | 0, _ => return []
  | _ + 1, [] => return []
  | n + 1, .loop _ _ :: rest => do
    return emit span [.loopEnd] ++ (← leave kind span n rest)
  | n + 1, .region final :: rest => do
    let final ← finalCode { body := kind, contexts := rest } span final
    return emit span [.tryEnd] ++ final ++ (← leave kind span n rest)
  | n + 1, .pendingThrow :: rest => do
    return emit span [.pop] ++ (← leave kind span n rest)
termination_by _ contexts => weight contexts
decreasing_by
  all_goals
    simp only [Surroundings.weight, weight, Context.weight]
    omega

end

end ScriptMachine.Compile
