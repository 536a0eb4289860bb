import ScriptMachine.Arity
import ScriptMachine.Fault.Breach
import ScriptMachine.Value.Basic

/-!
# Cause — why an operation failed

Causes fall into four groups: a rejected script, runtime errors that scripts can catch, exceeded
limits, and broken promises of the code or the machine. How a cause reads is `Cause.message`.
-/

namespace ScriptMachine

/-- A problem in a script. Line zero stands for an unknown place. -/
structure Diagnostic where
  message : String
  line : Nat
  column : Nat
  deriving DecidableEq, Repr

/-- A problem with its place, if that is known. -/
def Diagnostic.text (d : Diagnostic) : String :=
  if d.line = 0 then d.message else s!"{d.line}:{d.column}: " ++ d.message

/-- A limit of the machine, with the bound that was set. -/
inductive ResourceLimit where
  | stack (limit : Nat)
  | cycles (limit : Nat)
  deriving DecidableEq, Repr

/-- An exceeded limit in words. -/
def ResourceLimit.message : ResourceLimit → String
  | .stack limit => s!"max stack size ({limit}) exceeded"
  | .cycles limit => s!"max cycle count ({limit}) exceeded"

/-- Why an operation failed. -/
inductive Cause where
  | compile (diagnostics : List Diagnostic)
  | typeMismatch (operation : String) (left right : Kind)
  | undefinedVariable (name : String)
  | invalidProperty (property : String) (target : Kind)
  | notCallable (target : Kind)
  | undefinedClass (name : String)
  | indexOutOfRange (index : Nat)
  | arityMismatch (name : String) (expected : Arity) (actual : Nat)
  | native (message : String)
  | thrown (value : Value)
  | uncaught (message : String)
  | limit (limit : ResourceLimit)
  | invariant (breach : Breach)
  | halted

namespace Cause

/-- Whether a script may catch the error. -/
def isCatchable : Cause → Bool
  | .typeMismatch .. | .undefinedVariable _ | .invalidProperty .. | .notCallable _
  | .undefinedClass _ | .indexOutOfRange _ | .arityMismatch .. | .native _ | .thrown _ => true
  | .compile _ | .uncaught _ | .limit _ | .invariant _ | .halted => false

/-- Whether a limit of the machine was exceeded. -/
def isLimit : Cause → Bool
  | .limit _ => true
  | _ => false

/-- Whether a thrown value reached the host. -/
def isUncaught : Cause → Bool
  | .uncaught _ => true
  | _ => false

/-- The error of a text that is no pattern. -/
def badPattern (source : String) (refusal : Pattern.Refusal) : Cause :=
  .native ("invalid regular expression /" ++ source ++ "/: " ++ refusal.message)

end Cause

/-- Where a fault arose: the section, the position in the source, and the bodies it unwound through,
innermost first. -/
structure Trace where
  source : Option String := none
  position : Option (Nat × Nat) := none
  frames : List String := []
  deriving DecidableEq, Repr

namespace Trace

/-- A trace in words. Without a source the position is not shown. -/
def text (t : Trace) : String :=
  let place := match t.source, t.position with
    | some source, some (line, column) => "at " ++ source ++ s!":{line}:{column}"
    | some source, none => "at " ++ source
    | none, _ => ""
  let frames := String.join (t.frames.map fun f => "  in " ++ f ++ "\n")
  if t.frames.isEmpty then place else place ++ "\n" ++ frames

end Trace

/-- A cause and, where it is known, the trace of it. -/
structure Fault where
  cause : Cause
  trace : Option Trace := none

end ScriptMachine
