/-!
# Breach — broken promises between the parts of the machine

Compiled code keeps these promises; code assembled by hand may break them.
-/

namespace ScriptMachine

/-- What an entry of the stack is. -/
inductive EntryKind where
  | value
  | frame
  | region
  | loop
  deriving DecidableEq, Repr

/-- An entry in words. -/
def EntryKind.name : EntryKind → String
  | .value => "value"
  | .frame => "call frame"
  | .region => "try region"
  | .loop => "loop marker"

/-- Why the machine stopped without a fault. -/
inductive Stop where
  | eof
  | breakpoint
  | boundary
  | hostReturn
  deriving DecidableEq, Repr

/-- A stop in words. -/
def Stop.name : Stop → String
  | .eof => "Eof"
  | .breakpoint => "Breakpoint"
  | .boundary => "Boundary"
  | .hostReturn => "HostReturn"

/-- A broken promise. -/
inductive Breach where
  | noScript
  | labelTwice (label : Nat)
  | unknownTarget (instruction sectionName : String) (label : Nat)
  | constantRange (index : Nat)
  | unknownLabel (label : Nat)
  | leaveRoot
  | unexpectedEntry (action : String) (expected : EntryKind) (found : Option EntryKind)
  | outside (pc sectionIndex : Nat)
  | strayHostReturn
  | hostCallEnded (stop : Stop)
  | reported (text : String)
  deriving DecidableEq, Repr

/-- A broken promise in words. -/
def Breach.message : Breach → String
  | .noScript => "program has no script section"
  | .labelTwice label => s!"label L{label} defined twice"
  | .unknownTarget instruction sectionName label =>
    s!"`{instruction}` in {sectionName} targets unknown label L{label}"
  | .constantRange index => s!"constant #{index} out of range"
  | .unknownLabel label => s!"unknown label L{label}"
  | .leaveRoot => "LEAVE_SCOPE at the global scope"
  | .unexpectedEntry action expected found =>
    let found := (found.map EntryKind.name).getD "an empty stack"
    action ++ " expected a " ++ expected.name ++ ", found " ++ found
  | .outside pc sectionIndex => s!"pc {pc} is outside section {sectionIndex}"
  | .strayHostReturn => "host frame returned outside a host call"
  | .hostCallEnded stop => "host call ended with " ++ stop.name
  | .reported text => text

end ScriptMachine
