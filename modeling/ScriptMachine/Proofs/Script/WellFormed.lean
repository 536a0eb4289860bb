import Mathlib.Data.List.Nodup
import ScriptMachine.Pattern.Basic
import ScriptMachine.Proofs.Script.Nodes

/-!
# WellFormed — what is asked of a script before it can run

An exit needs something to leave, an assignment something to assign to, a pattern has to be one, and a
class has one declaration. Most of this is a test of single nodes; where exits stand is a walk through
the statements of each body. Nothing here looks at code.
-/

namespace ScriptMachine

/-! ### Exits -/

mutual

/-- Whether the exits of a statement have a body and a loop to leave. The statement that begins a loop
is not inside of it, and functions are walked through on their own. -/
def Stmt.placed (inBody inLoop : Bool) : Stmt → Bool
  | .node _ k => k.placed inBody inLoop

/-- Whether the exits of a statement have something to leave, by its form. -/
def StmtKind.placed (inBody inLoop : Bool) : StmtKind → Bool
  | .break | .continue => inLoop
  | .ret _ => inBody
  | .block body => stmtsPlaced inBody inLoop body
  | .cond _ yes no => yes.placed inBody inLoop && stmtOptionPlaced inBody inLoop no
  | .while _ body => body.placed inBody true
  | .for init _ _ body => stmtOptionPlaced inBody inLoop init && body.placed inBody true
  | .try body handler final =>
    stmtsPlaced inBody inLoop body && handlerPlaced inBody inLoop handler && finalPlaced inBody inLoop final
  | .expr _ | .var _ _ | .throw _ | .function _ _ _ | .class _ _ | .debugger | .empty => true

/-- Whether the exits of statements have something to leave. -/
def stmtsPlaced (inBody inLoop : Bool) : List Stmt → Bool
  | [] => true
  | s :: rest => s.placed inBody inLoop && stmtsPlaced inBody inLoop rest

/-- Whether the exits of a statement, if there is one, have something to leave. -/
def stmtOptionPlaced (inBody inLoop : Bool) : Option Stmt → Bool
  | none => true
  | some s => s.placed inBody inLoop

/-- Whether the exits of a handler have something to leave. -/
def handlerPlaced (inBody inLoop : Bool) : Option Handler → Bool
  | none => true
  | some (.clause _ body) => stmtsPlaced inBody inLoop body

/-- Whether the exits of a final part have something to leave. -/
def finalPlaced (inBody inLoop : Bool) : Option (List Stmt) → Bool
  | none => true
  | some body => stmtsPlaced inBody inLoop body

end

/-- Whether the exits of the methods of a class have something to leave. -/
def methodsPlaced : List Method → Bool
  | [] => true
  | .node _ _ body :: rest => stmtsPlaced true false body && methodsPlaced rest

/-! ### Nodes -/

/-- Whether a node by itself is as it should be: a valid pattern, a target that can be assigned to, exits
that stay inside the body that has them. -/
def Node.sound : Node → Bool
  | .expr (.regex source) => (Pattern.compile source).isOk
  | .expr (.update _ _ target) => target.isAssignable
  | .expr (.assign _ target _) => target.isAssignable
  | .expr (.function _ _ body) => stmtsPlaced true false body
  | .stmt (.function _ _ body) => stmtsPlaced true false body
  | .stmt (.class _ methods) => methodsPlaced methods
  | _ => true

/-- The class that a node declares. -/
def Node.className? : Node → Option String
  | .stmt (.class name _) => some name
  | _ => none

/-- The classes that nodes declare. -/
def declaredClasses (ns : List Node) : List String := ns.filterMap Node.className?

theorem declaredClasses_append (a b : List Node) :
    declaredClasses (a ++ b) = declaredClasses a ++ declaredClasses b := List.filterMap_append

/-- Whether a script is well-formed: every node is sound, the exits of the script have something to
leave, and no two nodes declare one class. -/
def Script.wellFormed (script : Script) : Bool :=
  script.nodes.all Node.sound && stmtsPlaced false false script.body &&
    decide (declaredClasses script.nodes).Nodup

/-! ### Classes -/

mutual

/-- The classes that an expression declares. A class inside another of its name is not counted, and those
of a final part are counted twice. -/
def Expr.classes : Expr → List String
  | .node _ k => k.classes

/-- The classes that an expression declares, by its form. -/
def ExprKind.classes : ExprKind → List String
  | .undefined | .null | .bool _ | .number _ | .string _ | .regex _ | .ident _ | .this => []
  | .array items => exprsClasses items
  | .record fields => fieldsClasses fields
  | .member object _ => object.classes
  | .index object key => object.classes ++ key.classes
  | .not operand => operand.classes
  | .negate operand => operand.classes
  | .update _ _ target => target.classes
  | .binary _ left right => left.classes ++ right.classes
  | .logical _ left right => left.classes ++ right.classes
  | .assign _ target value => target.classes ++ value.classes
  | .conditional test yes no => test.classes ++ yes.classes ++ no.classes
  | .call callee args => callee.classes ++ exprsClasses args
  | .new _ args => exprsClasses args
  | .function _ _ body => stmtsClasses body

/-- The classes that expressions declare. -/
def exprsClasses : List Expr → List String
  | [] => []
  | e :: rest => e.classes ++ exprsClasses rest

/-- The classes that the values of a record declare. -/
def fieldsClasses : List (String × Expr) → List String
  | [] => []
  | (_, e) :: rest => e.classes ++ fieldsClasses rest

/-- The classes that an expression declares, if there is one. -/
def exprOptionClasses : Option Expr → List String
  | none => []
  | some e => e.classes

/-- The classes that a statement declares. -/
def Stmt.classes : Stmt → List String
  | .node _ k => k.classes

/-- The classes that a statement declares, by its form. -/
def StmtKind.classes : StmtKind → List String
  | .break | .continue | .debugger | .empty => []
  | .expr e => e.classes
  | .var _ init => exprOptionClasses init
  | .block body => stmtsClasses body
  | .cond test yes no => test.classes ++ yes.classes ++ stmtOptionClasses no
  | .while test body => test.classes ++ body.classes
  | .for init test update body =>
    stmtOptionClasses init ++ exprOptionClasses test ++ exprOptionClasses update ++ body.classes
  | .ret value => exprOptionClasses value
  | .throw value => value.classes
  | .try body handler final =>
    stmtsClasses body ++ handlerClasses handler ++ finalClasses final ++ finalClasses final
  | .function _ _ body => stmtsClasses body
  | .class name methods => name :: (methodsClasses methods).erase name

/-- The classes that statements declare. -/
def stmtsClasses : List Stmt → List String
  | [] => []
  | s :: rest => s.classes ++ stmtsClasses rest

/-- The classes that a statement declares, if there is one. -/
def stmtOptionClasses : Option Stmt → List String
  | none => []
  | some s => s.classes

/-- The classes that a handler declares. -/
def handlerClasses : Option Handler → List String
  | none => []
  | some (.clause _ body) => stmtsClasses body

/-- The classes that a final part declares. -/
def finalClasses : Option (List Stmt) → List String
  | none => []
  | some body => stmtsClasses body

/-- The classes that the methods of a class declare. -/
def methodsClasses : List Method → List String
  | [] => []
  | .node _ _ body :: rest => stmtsClasses body ++ methodsClasses rest

end

/-- Whether the classes in a node are compiled once: a final part declares none, and no class lies inside
another of its name. -/
def Node.plainClasses : Node → Bool
  | .stmt (.try _ _ final) => (declaredClasses (finalNodes final)).isEmpty
  | .stmt (.class name methods) => !(declaredClasses (methodsNodes methods)).contains name
  | _ => true

mutual

theorem Expr.classes_eq (e : Expr) (h : e.nodes.all Node.plainClasses = true) :
    e.classes = declaredClasses e.nodes := by
  obtain ⟨span, k⟩ := e
  rw [Expr.nodes, List.all_cons, Bool.and_eq_true] at h
  rw [Expr.classes, Expr.nodes]
  exact k.classes_eq h.2

theorem ExprKind.classes_eq (k : ExprKind) (h : k.parts.all Node.plainClasses = true) :
    k.classes = declaredClasses k.parts := by
  cases k with
  | undefined | null | bool | number | string | regex | ident | this => rfl
  | array items => exact exprsClasses_eq items h
  | new _ items => exact exprsClasses_eq items h
  | record fields => exact fieldsClasses_eq fields h
  | member e | not e | negate e | update _ _ e => exact e.classes_eq h
  | function _ _ body => exact stmtsClasses_eq body h
  | index a b | binary _ a b | logical _ a b | assign _ a b =>
    rw [ExprKind.parts, List.all_append, Bool.and_eq_true] at h
    rw [ExprKind.classes, ExprKind.parts, declaredClasses_append, a.classes_eq h.1, b.classes_eq h.2]
  | call callee args =>
    rw [ExprKind.parts, List.all_append, Bool.and_eq_true] at h
    rw [ExprKind.classes, ExprKind.parts, declaredClasses_append, callee.classes_eq h.1, exprsClasses_eq args h.2]
  | conditional a b c =>
    rw [ExprKind.parts, List.all_append, List.all_append, Bool.and_eq_true, Bool.and_eq_true] at h
    rw [ExprKind.classes, ExprKind.parts, declaredClasses_append, declaredClasses_append, a.classes_eq h.1.1,
      b.classes_eq h.1.2, c.classes_eq h.2]

theorem exprsClasses_eq (es : List Expr) (h : (exprsNodes es).all Node.plainClasses = true) :
    exprsClasses es = declaredClasses (exprsNodes es) := by
  cases es with
  | nil => rfl
  | cons e rest =>
    rw [exprsNodes, List.all_append, Bool.and_eq_true] at h
    rw [exprsClasses, exprsNodes, declaredClasses_append, e.classes_eq h.1, exprsClasses_eq rest h.2]

theorem fieldsClasses_eq (fields : List (String × Expr)) (h : (fieldsNodes fields).all Node.plainClasses = true) :
    fieldsClasses fields = declaredClasses (fieldsNodes fields) := by
  match fields with
  | [] => rfl
  | (_, e) :: rest =>
    rw [fieldsNodes, List.all_append, Bool.and_eq_true] at h
    rw [fieldsClasses, fieldsNodes, declaredClasses_append, e.classes_eq h.1, fieldsClasses_eq rest h.2]

theorem exprOptionClasses_eq (e : Option Expr) (h : (exprOptionNodes e).all Node.plainClasses = true) :
    exprOptionClasses e = declaredClasses (exprOptionNodes e) := by
  cases e with
  | none => rfl
  | some e => exact e.classes_eq h

theorem Stmt.classes_eq (s : Stmt) (h : s.nodes.all Node.plainClasses = true) :
    s.classes = declaredClasses s.nodes := by
  obtain ⟨span, k⟩ := s
  exact k.classes_eq h

theorem StmtKind.classes_eq (k : StmtKind) (h : (Node.stmt k :: k.parts).all Node.plainClasses = true) :
    k.classes = declaredClasses (.stmt k :: k.parts) := by
  rw [List.all_cons, Bool.and_eq_true] at h
  obtain ⟨hk, h⟩ := h
  cases k with
  | «break» | «continue» | debugger | empty => rfl
  | expr e | throw e => exact e.classes_eq h
  | var _ e | ret e => exact exprOptionClasses_eq e h
  | block body | function _ _ body => exact stmtsClasses_eq body h
  | cond test yes no =>
    rw [StmtKind.parts, List.all_append, List.all_append, Bool.and_eq_true, Bool.and_eq_true] at h
    rw [StmtKind.classes, test.classes_eq h.1.1, yes.classes_eq h.1.2, stmtOptionClasses_eq no h.2,
      ← declaredClasses_append, ← declaredClasses_append]
    rfl
  | «while» test body =>
    rw [StmtKind.parts, List.all_append, Bool.and_eq_true] at h
    rw [StmtKind.classes, test.classes_eq h.1, body.classes_eq h.2, ← declaredClasses_append]
    rfl
  | «for» init test update body =>
    simp only [StmtKind.parts, List.all_append, Bool.and_eq_true] at h
    rw [StmtKind.classes, stmtOptionClasses_eq init h.1.1.1, exprOptionClasses_eq test h.1.1.2,
      exprOptionClasses_eq update h.1.2, body.classes_eq h.2, ← declaredClasses_append, ← declaredClasses_append,
      ← declaredClasses_append]
    rfl
  | «try» body handler final =>
    simp only [StmtKind.parts, List.all_append, Bool.and_eq_true] at h
    have hfinal := finalClasses_eq final h.2
    have hnone : declaredClasses (finalNodes final) = [] := List.isEmpty_iff.1 hk
    rw [StmtKind.classes, stmtsClasses_eq body h.1.1, handlerClasses_eq handler h.1.2, hfinal]
    change _ = declaredClasses (stmtsNodes body ++ handlerNodes handler ++ finalNodes final)
    rw [declaredClasses_append, declaredClasses_append, hnone, List.append_nil]
  | «class» name methods =>
    have hname : name ∉ declaredClasses (methodsNodes methods) := by simpa [Node.plainClasses] using hk
    rw [StmtKind.classes, methodsClasses_eq methods h, List.erase_of_not_mem hname]
    rfl

theorem stmtsClasses_eq (ss : List Stmt) (h : (stmtsNodes ss).all Node.plainClasses = true) :
    stmtsClasses ss = declaredClasses (stmtsNodes ss) := by
  cases ss with
  | nil => rfl
  | cons s rest =>
    rw [stmtsNodes, List.all_append, Bool.and_eq_true] at h
    rw [stmtsClasses, stmtsNodes, declaredClasses_append, s.classes_eq h.1, stmtsClasses_eq rest h.2]

theorem stmtOptionClasses_eq (s : Option Stmt) (h : (stmtOptionNodes s).all Node.plainClasses = true) :
    stmtOptionClasses s = declaredClasses (stmtOptionNodes s) := by
  cases s with
  | none => rfl
  | some s => exact s.classes_eq h

theorem handlerClasses_eq (handler : Option Handler) (h : (handlerNodes handler).all Node.plainClasses = true) :
    handlerClasses handler = declaredClasses (handlerNodes handler) := by
  match handler with
  | none => rfl
  | some (.clause _ body) => exact stmtsClasses_eq body h

theorem finalClasses_eq (final : Option (List Stmt)) (h : (finalNodes final).all Node.plainClasses = true) :
    finalClasses final = declaredClasses (finalNodes final) := by
  cases final with
  | none => rfl
  | some body => exact stmtsClasses_eq body h

theorem methodsClasses_eq (ms : List Method) (h : (methodsNodes ms).all Node.plainClasses = true) :
    methodsClasses ms = declaredClasses (methodsNodes ms) := by
  match ms with
  | [] => rfl
  | .node _ _ body :: rest =>
    rw [methodsNodes, List.all_append, Bool.and_eq_true] at h
    rw [methodsClasses, methodsNodes, declaredClasses_append, stmtsClasses_eq body h.1, methodsClasses_eq rest h.2]

end

end ScriptMachine
