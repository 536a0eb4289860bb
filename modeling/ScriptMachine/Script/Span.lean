/-!
# Span — places in the source text
-/

namespace ScriptMachine

/-- A stretch of source text. Line zero stands for an unknown place. -/
structure Span where
  start : Nat := 0
  stop : Nat := 0
  line : Nat := 0
  column : Nat := 0
  deriving DecidableEq, Repr

namespace Span

/-- The unknown place. -/
def unknown : Span := {}

/-- A place without extent. -/
def point (line column : Nat) : Span := { line, column }

/-- From the start of one span to the end of another, or to its own end if that is later. -/
def through (s t : Span) : Span := { s with stop := max t.stop s.stop }

/-- Whether the place is unknown. -/
def isUnknown (s : Span) : Bool := s.line == 0

/-- The place of an inner node: its own, or the outer one while its own is unknown. -/
def refine (outer inner : Span) : Span := if inner.isUnknown then outer else inner

/-- A place in words. -/
def text (s : Span) : String := if s.isUnknown then "?" else s!"{s.line}:{s.column}"

end Span

end ScriptMachine
