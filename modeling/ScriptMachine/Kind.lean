/-!
# Kind — the kinds of values a script can tell apart
-/

namespace ScriptMachine

/-- The kind of a value. -/
inductive Kind where
  | undefined
  | null
  | bool
  | number
  | string
  | array
  | object
  | function
  | error
  | regex
  | native
  deriving DecidableEq, Repr

namespace Kind

/-- Every kind. -/
def all : List Kind :=
  [.undefined, .null, .bool, .number, .string, .array, .object, .function, .error, .regex, .native]

/-- The name that scripts and messages use. -/
def name : Kind → String
  | .undefined => "undefined"
  | .null => "null"
  | .bool => "boolean"
  | .number => "number"
  | .string => "string"
  | .array => "array"
  | .object => "object"
  | .function => "function"
  | .error => "error"
  | .regex => "regex"
  | .native => "native"

/-- The kinds that stand for an absent value. -/
def isNullish : Kind → Bool
  | .undefined | .null => true
  | _ => false

/-- The kinds whose values share what they hold. -/
def isReference : Kind → Bool
  | .array | .object | .native => true
  | _ => false

/-- The kind with a given name. -/
def ofName? (name : String) : Option Kind := all.find? fun k => k.name == name

theorem ofName?_name (k : Kind) : ofName? k.name = some k := by
  cases k <;> decide

end Kind

end ScriptMachine
