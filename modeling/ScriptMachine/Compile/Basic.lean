import ScriptMachine.Compile.Generate

/-!
# Compile — from a script to a program

Problems do not stop the generator: they are collected, after those of the reader, and reported
together.
-/

namespace ScriptMachine

open Compile

/-- The code of a script with its end, and the draft it leaves. -/
def Script.draft (script : Script) : Code × Draft :=
  let (code, draft) := (stmts { body := .script } script.body).run {}
  (code ++ emit .unknown [.eof], draft)

/-- Every problem of a script: those of the reader, then those of the generator. -/
def Script.problems (script : Script) : List Diagnostic :=
  script.diagnostics ++ script.draft.2.problems.reverse

/-- Compiles a script. -/
def Script.compile (script : Script) : Except Cause Program :=
  let (code, draft) := script.draft
  let problems := script.diagnostics ++ draft.problems.reverse
  if problems.isEmpty then draft.program code else .error (.compile problems)

end ScriptMachine
