import ScriptMachine.Code.Instruction
import ScriptMachine.Script.Tree
import ScriptMachine.Value.Scope

/-!
# Nodes — the expressions and statements inside a tree

What is asked of a script is often asked of every expression and statement in it, at any depth and
also inside the bodies of functions. `nodes` lists them, so such a condition is a test of nodes.
-/

namespace ScriptMachine

/-- An expression or a statement somewhere in a tree. -/
inductive Node where
  | expr (k : ExprKind)
  | stmt (k : StmtKind)

mutual

/-- The nodes of an expression. -/
def Expr.nodes : Expr → List Node
  | .node _ k => .expr k :: k.parts

/-- The nodes below an expression. -/
def ExprKind.parts : ExprKind → List Node
  | .undefined | .null | .bool _ | .number _ | .string _ | .regex _ | .ident _ | .this => []
  | .array items => exprsNodes items
  | .record fields => fieldsNodes fields
  | .member object _ => object.nodes
  | .index object key => object.nodes ++ key.nodes
  | .not operand => operand.nodes
  | .negate operand => operand.nodes
  | .update _ _ target => target.nodes
  | .binary _ left right => left.nodes ++ right.nodes
  | .logical _ left right => left.nodes ++ right.nodes
  | .assign _ target value => target.nodes ++ value.nodes
  | .conditional test yes no => test.nodes ++ yes.nodes ++ no.nodes
  | .call callee args => callee.nodes ++ exprsNodes args
  | .new _ args => exprsNodes args
  | .function _ _ body => stmtsNodes body

/-- The nodes of expressions. -/
def exprsNodes : List Expr → List Node
  | [] => []
  | e :: rest => e.nodes ++ exprsNodes rest

/-- The nodes of the values of a record. -/
def fieldsNodes : List (String × Expr) → List Node
  | [] => []
  | (_, e) :: rest => e.nodes ++ fieldsNodes rest

/-- The nodes of an expression, if there is one. -/
def exprOptionNodes : Option Expr → List Node
  | none => []
  | some e => e.nodes

/-- The nodes of a statement. -/
def Stmt.nodes : Stmt → List Node
  | .node _ k => .stmt k :: k.parts

/-- The nodes below a statement. -/
def StmtKind.parts : StmtKind → List Node
  | .break | .continue | .debugger | .empty => []
  | .expr e => e.nodes
  | .var _ init => exprOptionNodes init
  | .block body => stmtsNodes body
  | .cond test yes no => test.nodes ++ yes.nodes ++ stmtOptionNodes no
  | .while test body => test.nodes ++ body.nodes
  | .for init test update body =>
    stmtOptionNodes init ++ exprOptionNodes test ++ exprOptionNodes update ++ body.nodes
  | .ret value => exprOptionNodes value
  | .throw value => value.nodes
  | .try body handler final => stmtsNodes body ++ handlerNodes handler ++ finalNodes final
  | .function _ _ body => stmtsNodes body
  | .class _ methods => methodsNodes methods

/-- The nodes of statements. -/
def stmtsNodes : List Stmt → List Node
  | [] => []
  | s :: rest => s.nodes ++ stmtsNodes rest

/-- The nodes of a statement, if there is one. -/
def stmtOptionNodes : Option Stmt → List Node
  | none => []
  | some s => s.nodes

/-- The nodes of a handler. -/
def handlerNodes : Option Handler → List Node
  | none => []
  | some (.clause _ body) => stmtsNodes body

/-- The nodes of a final part. -/
def finalNodes : Option (List Stmt) → List Node
  | none => []
  | some body => stmtsNodes body

/-- The nodes of the methods of a class. -/
def methodsNodes : List Method → List Node
  | [] => []
  | .node _ _ body :: rest => stmtsNodes body ++ methodsNodes rest

end

/-- The nodes of a script. -/
def Script.nodes (script : Script) : List Node := stmtsNodes script.body

/-- Whether a node reads no property by the name that stands for a key on the stack. -/
def Node.sparesIndexer : Node → Bool
  | .expr (.member _ property) => property != indexer
  | _ => true

/-- Whether no property in a script is named like the `indexer`. -/
def Script.sparesIndexer (script : Script) : Bool := script.nodes.all Node.sparesIndexer

/-! ### Names -/

/-- Whether a name is of the kind that generated code uses for itself. -/
def reserved (name : String) : Bool := name.toList.head? == some '@'

/-- The name of what a handler gets, if it is wanted. -/
def handlerParam : Option Handler → List String
  | some (.clause (some param) _) => [param]
  | _ => []

/-- The names that a node itself declares. -/
def Node.declares : Node → List String
  | .stmt (.var name _) => [name]
  | .stmt (.try _ handler _) => handlerParam handler
  | _ => []

/-- The names that a node itself mentions. A return without a value may return the receiver. -/
def Node.mentions : Node → List String
  | .expr (.ident name) => [name]
  | .expr .this => [thisName]
  | .stmt (.var name _) => [name]
  | .stmt (.try _ handler _) => handlerParam handler
  | .stmt (.ret none) => [thisName]
  | _ => []

/-- The names that nodes declare. -/
def declared (ns : List Node) : List String := ns.flatMap Node.declares

/-- The names that nodes mention. -/
def mentioned (ns : List Node) : List String := ns.flatMap Node.mentions

/-- Whether the final part of a try statement mentions nothing that its body or its handler declares. -/
def Node.separate : Node → Bool
  | .stmt (.try body handler final) =>
    (handlerParam handler ++ declared (stmtsNodes body) ++ declared (handlerNodes handler)).all
      fun name => !(mentioned (finalNodes final)).contains name
  | _ => true

/-- Whether a node mentions no reserved name and no property named like the `indexer`, and keeps final
parts apart from what they follow. -/
def Node.orderly (n : Node) : Bool :=
  n.sparesIndexer && n.separate && n.mentions.all fun name => !reserved name

end ScriptMachine
