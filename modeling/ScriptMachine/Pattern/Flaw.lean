/-!
# Flaw — why a text is no pattern
-/

namespace ScriptMachine.Pattern

/-- What is wrong with the text of a pattern. -/
inductive Flaw where
  | groupUnclosed
  | groupUnopened
  | nesting
  | groupName
  | groupNameDuplicate
  | lookAround
  | backReference
  | flags
  | operandMissing
  | repetitionUnclosed
  | repetitionCount
  | escape
  | escapeDigits
  | property
  | classUnclosed
  | classRange
  | classEscape
  | wordBoundary
  | notText
  deriving DecidableEq, Repr

/-- Why a pattern cannot be used. -/
inductive Refusal where
  | malformed (flaw : Flaw)
  | tooLarge
  deriving DecidableEq, Repr

/-- A flaw in words. -/
def Flaw.message : Flaw → String
  | .groupUnclosed => "unclosed group"
  | .groupUnopened => "unopened group"
  | .nesting => "exceeds the maximum number of nested parentheses/brackets (250)"
  | .groupName => "invalid capture group name"
  | .groupNameDuplicate => "duplicate capture group name"
  | .lookAround => "look-around, including look-ahead and look-behind, is not supported"
  | .backReference => "backreferences are not supported"
  | .flags => "unrecognized flag"
  | .operandMissing => "repetition operator missing expression"
  | .repetitionUnclosed => "unclosed counted repetition"
  | .repetitionCount => "invalid repetition count range"
  | .escape => "unrecognized escape sequence"
  | .escapeDigits => "invalid hexadecimal escape"
  | .property => "Unicode property not found"
  | .classUnclosed => "unclosed character class"
  | .classRange => "invalid character class range"
  | .classEscape => "invalid escape sequence found in character class"
  | .wordBoundary => "special word boundary assertion is not recognized"
  | .notText => "pattern can match invalid UTF-8"

/-- Bytes that an automaton may take. -/
def sizeLimit : Nat := 10485760

/-- A refusal in words. -/
def Refusal.message : Refusal → String
  | .malformed flaw => "regex parse error:\nerror: " ++ flaw.message
  | .tooLarge => s!"Compiled regex exceeds size limit of {sizeLimit} bytes."

end ScriptMachine.Pattern
