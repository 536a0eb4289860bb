/-!
# Handle — host values as scripts hold them

A handle names a host value by an identity and shows what any script may ask of it without a call.
What the host value does is kept beside the machine, under the same identity.
-/

namespace ScriptMachine

/-- The host functions that every machine brings along. -/
inductive Builtin where
  | print
  | makeError
  | makeRegex
  | typeOf
  | arrayPush
  | arrayPop
  | arrayIndexOf
  | arrayJoin
  | stringUpper
  | stringLower
  | stringIndexOf
  | stringSubstring
  | stringSplit
  | regexTest
  | regexMatch
  deriving DecidableEq, Repr

/-- Which host value a handle stands for. -/
inductive NativeId where
  | builtin (b : Builtin)
  | host (index : Nat)
  deriving DecidableEq, Repr

/-- A host value in the hands of a script. -/
structure NativeHandle where
  id : NativeId
  typeName : String
  label : String
  callable : Bool
  deriving DecidableEq, Repr

end ScriptMachine
