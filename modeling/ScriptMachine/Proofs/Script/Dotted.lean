import ScriptMachine.Compile.Context
import ScriptMachine.Proofs.Script.Nodes

/-!
# Dotted — one spelling of property access

A property whose key is a constant text can be written with a dot or with brackets. `dotted` writes every
such access with a dot, wherever in a tree it stands: as a value, as a target or as a callee. The `indexer` is
no name that a dot can be followed by, so a key of that text keeps its brackets.
-/

namespace ScriptMachine

/-- The name that a dot can be followed by in place of a key. -/
def Expr.name? : Expr → Option String
  | .node _ (.string name) => if name = indexer then none else some name
  | _ => none

mutual

/-- An expression with dots. -/
def Expr.dotted : Expr → Expr
  | .node span k => .node span k.dotted

/-- The form of an expression with dots. -/
def ExprKind.dotted : ExprKind → ExprKind
  | .undefined => .undefined
  | .null => .null
  | .bool b => .bool b
  | .number bits => .number bits
  | .string s => .string s
  | .regex source => .regex source
  | .array items => .array (exprsDotted items)
  | .record fields => .record (fieldsDotted fields)
  | .ident name => .ident name
  | .this => .this
  | .member object property => .member object.dotted property
  | .index object key =>
    match key.name? with
    | some name => .member object.dotted name
    | none => .index object.dotted key.dotted
  | .not operand => .not operand.dotted
  | .negate operand => .negate operand.dotted
  | .update op giveNew target => .update op giveNew target.dotted
  | .binary op left right => .binary op left.dotted right.dotted
  | .logical op left right => .logical op left.dotted right.dotted
  | .assign op target value => .assign op target.dotted value.dotted
  | .conditional test yes no => .conditional test.dotted yes.dotted no.dotted
  | .call callee args => .call callee.dotted (exprsDotted args)
  | .new className args => .new className (exprsDotted args)
  | .function name params body => .function name params (stmtsDotted body)

/-- Expressions with dots. -/
def exprsDotted : List Expr → List Expr
  | [] => []
  | e :: rest => e.dotted :: exprsDotted rest

/-- The fields of a record with dots in their values. -/
def fieldsDotted : List (String × Expr) → List (String × Expr)
  | [] => []
  | (name, e) :: rest => (name, e.dotted) :: fieldsDotted rest

/-- An expression with dots, if there is one. -/
def exprOptionDotted : Option Expr → Option Expr
  | none => none
  | some e => some e.dotted

/-- A statement with dots. -/
def Stmt.dotted : Stmt → Stmt
  | .node span k => .node span k.dotted

/-- The form of a statement with dots. -/
def StmtKind.dotted : StmtKind → StmtKind
  | .expr e => .expr e.dotted
  | .var name init => .var name (exprOptionDotted init)
  | .block body => .block (stmtsDotted body)
  | .cond test yes no => .cond test.dotted yes.dotted (stmtOptionDotted no)
  | .while test body => .while test.dotted body.dotted
  | .for init test update body =>
    .for (stmtOptionDotted init) (exprOptionDotted test) (exprOptionDotted update) body.dotted
  | .break => .break
  | .continue => .continue
  | .ret value => .ret (exprOptionDotted value)
  | .throw value => .throw value.dotted
  | .try body handler final => .try (stmtsDotted body) (handlerDotted handler) (finalDotted final)
  | .function name params body => .function name params (stmtsDotted body)
  | .class name methods => .class name (methodsDotted methods)
  | .debugger => .debugger
  | .empty => .empty

/-- Statements with dots. -/
def stmtsDotted : List Stmt → List Stmt
  | [] => []
  | s :: rest => s.dotted :: stmtsDotted rest

/-- A statement with dots, if there is one. -/
def stmtOptionDotted : Option Stmt → Option Stmt
  | none => none
  | some s => some s.dotted

/-- A handler with dots. -/
def handlerDotted : Option Handler → Option Handler
  | none => none
  | some (.clause param body) => some (.clause param (stmtsDotted body))

/-- A final part with dots. -/
def finalDotted : Option (List Stmt) → Option (List Stmt)
  | none => none
  | some body => some (stmtsDotted body)

/-- The methods of a class with dots. -/
def methodsDotted : List Method → List Method
  | [] => []
  | .node name params body :: rest => .node name params (stmtsDotted body) :: methodsDotted rest

end

/-- A script with dots. -/
def Script.dotted (script : Script) : Script := { script with body := stmtsDotted script.body }

/-- Two scripts that differ in nothing but how they write property access. -/
def Script.Respells (s s' : Script) : Prop := s'.dotted = s.dotted

/-! ### What dots leave alone -/

theorem Expr.name?_eq_some {e : Expr} {name : String} (h : e.name? = some name) :
    ∃ span, e = .node span (.string name) ∧ name ≠ indexer := by
  unfold Expr.name? at h
  split at h
  · split at h
    · cases h
    · cases h
      exact ⟨_, rfl, by assumption⟩
  · cases h

@[simp] theorem Expr.span_dotted (e : Expr) : e.dotted.span = e.span := by
  cases e
  rfl

@[simp] theorem length_exprsDotted (es : List Expr) : (exprsDotted es).length = es.length := by
  induction es with
  | nil => rfl
  | cons e rest ih => simp [exprsDotted, ih]

@[simp] theorem fst_fieldsDotted (fields : List (String × Expr)) :
    (fieldsDotted fields).map Prod.fst = fields.map Prod.fst := by
  induction fields with
  | nil => rfl
  | cons f rest ih => simp [fieldsDotted, ih]

/-- A target stays a target. -/
theorem ExprKind.isAssignable_dotted (span : Span) (k : ExprKind) :
    (Expr.node span k.dotted).isAssignable = (Expr.node span k).isAssignable := by
  cases k with
  | index object key =>
    cases hkey : key.name? <;> simp [ExprKind.dotted, hkey, Expr.isAssignable, Expr.kind]
  | _ => rfl

namespace Compile

/-- A context with dots. -/
def Context.dotted : Context → Context
  | .loop continueTo breakTo => .loop continueTo breakTo
  | .region final => .region (finalDotted final)
  | .pendingThrow => .pendingThrow

/-- Surroundings with dots. -/
def Surroundings.dotted (around : Surroundings) : Surroundings :=
  { around with contexts := around.contexts.map Context.dotted }

@[simp] theorem Surroundings.dotted_inside (around : Surroundings) (c : Context) :
    (around.inside c).dotted = around.dotted.inside c.dotted := rfl

theorem innermostLoop?_dotted (contexts : List Context) :
    innermostLoop? (contexts.map Context.dotted) = innermostLoop? contexts := by
  induction contexts with
  | nil => rfl
  | cons c rest ih =>
    cases c with
    | loop => rfl
    | region | pendingThrow => simp [Context.dotted, innermostLoop?, ih]

end Compile

end ScriptMachine
