import ScriptMachine.Fault.Cause
import ScriptMachine.Script.Span
import ScriptMachine.Value.Operator

/-!
# Tree — scripts as trees

A script comes as a tree in which every statement and expression knows its place. The reader that
makes the tree passes on the problems it found.
-/

namespace ScriptMachine

/-- Adding one or taking one away. -/
inductive UpdateOp where
  | increment
  | decrement
  deriving DecidableEq, Repr

/-- The operators that evaluate their right side only if they need it. -/
inductive LogicalOp where
  | and
  | or
  deriving DecidableEq, Repr

mutual

/-- An expression at its place. -/
inductive Expr where
  | node (span : Span) (kind : ExprKind)

/-- The forms of expressions. A number is given by the bits of its double. -/
inductive ExprKind where
  | undefined
  | null
  | bool (b : Bool)
  | number (bits : UInt64)
  | string (s : String)
  | regex (source : String)
  | array (items : List Expr)
  | record (fields : List (String × Expr))
  | ident (name : String)
  | this
  | member (object : Expr) (property : String)
  | index (object key : Expr)
  | not (operand : Expr)
  | negate (operand : Expr)
  /-- Changes a target by one; the value is the old one, or the new one if `giveNew`. -/
  | update (op : UpdateOp) (giveNew : Bool) (target : Expr)
  | binary (op : BinaryOp) (left right : Expr)
  | logical (op : LogicalOp) (left right : Expr)
  | assign (op : Option BinaryOp) (target value : Expr)
  | conditional (test yes no : Expr)
  | call (callee : Expr) (args : List Expr)
  | new (className : String) (args : List Expr)
  | function (name : Option String) (params : List String) (body : List Stmt)

/-- A statement at its place. -/
inductive Stmt where
  | node (span : Span) (kind : StmtKind)

/-- The forms of statements. -/
inductive StmtKind where
  | expr (e : Expr)
  | var (name : String) (init : Option Expr)
  | block (body : List Stmt)
  | cond (test : Expr) (yes : Stmt) (no : Option Stmt)
  | while (test : Expr) (body : Stmt)
  | for (init : Option Stmt) (test update : Option Expr) (body : Stmt)
  | break
  | continue
  | ret (value : Option Expr)
  | throw (value : Expr)
  | try (body : List Stmt) (handler : Option Handler) (final : Option (List Stmt))
  | function (name : String) (params : List String) (body : List Stmt)
  | class (name : String) (methods : List Method)
  | debugger
  | empty

/-- What handles an exception: a name for the thrown value, if it is wanted, and a body. -/
inductive Handler where
  | clause (param : Option String) (body : List Stmt)

/-- A method of a class. -/
inductive Method where
  | node (name : String) (params : List String) (body : List Stmt)

end

/-- A script: its statements, and the problems of whoever read it. -/
structure Script where
  body : List Stmt
  diagnostics : List Diagnostic := []

/-- The form of an expression. -/
def Expr.kind : Expr → ExprKind
  | .node _ kind => kind

/-- The place of an expression. -/
def Expr.span : Expr → Span
  | .node span _ => span

/-- Whether an expression can be assigned to. -/
def Expr.isAssignable (e : Expr) : Bool :=
  match e.kind with
  | .ident _ | .member _ _ | .index _ _ => true
  | _ => false

end ScriptMachine
