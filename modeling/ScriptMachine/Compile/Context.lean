import ScriptMachine.Compile.Draft

/-!
# Context — what surrounds the statement being compiled

Loops and try statements leave a marker on the stack while their bodies run. An exit that leaves them
has to take these markers away, and to run the final parts it passes.
-/

namespace ScriptMachine.Compile

/-- Something that has an entry on the stack while a statement inside it runs. -/
inductive Context where
  /-- A loop, with its marker. -/
  | loop (continueTo breakTo : Nat)
  /-- The body or the handler of a try statement, with its region. -/
  | region (final : Option (List Stmt))
  /-- A final part that throws again, with the exception. -/
  | pendingThrow

/-- What kind of body a statement belongs to. -/
inductive BodyKind where
  | script
  | function
  | constructor
  deriving DecidableEq, Repr

/-- The surroundings of a statement: its body and what it stands in, innermost first. -/
structure Surroundings where
  body : BodyKind
  contexts : List Context := []

/-- What a context adds to the work of leaving it. -/
noncomputable def Context.weight : Context → Nat
  | .loop _ _ => 1
  | .region final => 2 * sizeOf final + 1
  | .pendingThrow => 1

/-- The work of leaving contexts. -/
noncomputable def weight : List Context → Nat
  | [] => 0
  | c :: cs => c.weight + weight cs

namespace Surroundings

/-- The surroundings inside one more context. -/
def inside (s : Surroundings) (c : Context) : Surroundings := { s with contexts := c :: s.contexts }

/-- The work of leaving everything. -/
noncomputable def weight (s : Surroundings) : Nat := Compile.weight s.contexts

end Surroundings

/-- The number of contexts inside the innermost loop, with the labels of that loop. -/
def innermostLoop? : List Context → Option (Nat × Nat × Nat)
  | [] => none
  | .loop continueTo breakTo :: _ => some (0, continueTo, breakTo)
  | _ :: rest => (innermostLoop? rest).map fun (n, labels) => (n + 1, labels)

end ScriptMachine.Compile
