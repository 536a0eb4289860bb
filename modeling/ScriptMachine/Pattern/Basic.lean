import ScriptMachine.Pattern.Reader
import ScriptMachine.Pattern.Automaton
import ScriptMachine.Pattern.Footprint

/-!
# Pattern — compiled patterns

A pattern is compiled once from its text. `test`, `find?` and `split` are what scripts use of it.
-/

namespace ScriptMachine

/-- A pattern with the text it was made from. -/
structure Pattern where
  source : String
  automaton : Pattern.Automaton

namespace Pattern

/-- Compiles a pattern. What is refused here, for its syntax, its nesting or its size, is assumed to be
what the engine behind the patterns of a script refuses. They are known to differ where a pattern
chooses among 3000 or more plain texts: the engine has no automaton for it and never finds it too
large. -/
def compile (source : String) : Except Refusal Pattern :=
  match Node.read source with
  | .error flaw => .error (.malformed flaw)
  | .ok node =>
    if Footprint.fits sizeLimit node then .ok ⟨source, node.automaton⟩ else .error .tooLarge

/-- Whether a text holds a match. -/
def test (p : Pattern) (text : String) : Bool :=
  let chars := text.toList.toArray
  (p.automaton.find chars 0).isSome

/-- The characters of a text between two positions. -/
def between (chars : Array Char) (start stop : Nat) : String :=
  String.ofList (chars.extract start stop).toList

/-- The first match in a text. -/
def find? (p : Pattern) (text : String) : Option String :=
  let chars := text.toList.toArray
  (p.automaton.find chars 0).map fun (i, j) => between chars i j

/-- The stretches between matches, from a position on. -/
def stretches (chars : Array Char) (start : Nat) : List (Nat × Nat) → List String
  | [] => [between chars start chars.size]
  | (i, j) :: rest => between chars start i :: stretches chars j rest

/-- The parts of a text between matches. -/
def split (p : Pattern) (text : String) : List String :=
  let chars := text.toList.toArray
  stretches chars 0 (p.automaton.allMatches chars)

end Pattern

end ScriptMachine
