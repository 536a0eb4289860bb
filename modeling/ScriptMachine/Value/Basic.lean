import ScriptMachine.Kind
import ScriptMachine.Native.Handle
import ScriptMachine.Number.Index
import ScriptMachine.Pattern.Basic

/-!
# Value — what scripts compute with

Arrays and objects are references into a heap. Functions, errors and patterns do not change, so they
carry what they are, together with an identity that tells apart two that look alike.
-/

namespace ScriptMachine

/-- A place in the heap that holds an array. -/
structure ArrayId where
  index : Nat
  deriving DecidableEq, Repr

/-- A place in the heap that holds an object. -/
structure ObjectId where
  index : Nat
  deriving DecidableEq, Repr

/-- A place in the heap that holds a scope. -/
structure ScopeId where
  index : Nat
  deriving DecidableEq, Repr

/-- Where a value that does not change comes from: it is an entry of the function table or of the
constant pool of the program, or it was made while running. -/
inductive Identity where
  | declared (index : Nat)
  | pooled (index : Nat)
  | made (stamp : Nat)
  deriving DecidableEq, Repr

/-- A body of code that can be called. Functions are no closures: a call sees its parameters, then
the fields of its receiver, then the globals. -/
structure ScriptFunction where
  name : String
  sectionIndex : Nat
  arity : Nat
  params : List String
  deriving DecidableEq, Repr

namespace ScriptFunction

/-- The name of a method in the function table. -/
def methodName (className method : String) : String := "@" ++ className ++ "." ++ method

/-- The method name of a function that belongs to a class. -/
def methodOf? (f : ScriptFunction) (className : String) : Option String :=
  (Text.dropBeginning? ('@' :: className.toList ++ ['.']) f.name.toList).map String.ofList

end ScriptFunction

/-- A value. A number is given by the bits of its double: the doubles that are no number differ in
nothing else. -/
inductive Value where
  | undefined
  | null
  | bool (b : Bool)
  | number (bits : UInt64)
  | string (s : String)
  | array (a : ArrayId)
  | object (o : ObjectId)
  | function (id : Identity) (f : ScriptFunction)
  | error (id : Identity) (message : String)
  | regex (id : Identity) (pattern : Pattern)
  | native (handle : NativeHandle)

namespace Value

instance : Inhabited Value := ⟨.undefined⟩

/-- The kind of a value. -/
def kind : Value → Kind
  | .undefined => .undefined
  | .null => .null
  | .bool _ => .bool
  | .number _ => .number
  | .string _ => .string
  | .array _ => .array
  | .object _ => .object
  | .function _ _ => .function
  | .error _ _ => .error
  | .regex _ _ => .regex
  | .native _ => .native

/-- Only `undefined`, `null` and `false` count as false. -/
def isTruthy : Value → Bool
  | .undefined | .null => false
  | .bool b => b
  | _ => true

/-- A number from its double. -/
def ofFloat (x : Float) : Value := .number x.toBits

/-- A count as a number. -/
def ofNat (n : Nat) : Value := .ofFloat (Float.ofNat n)

/-- Whether two values are equal to a script: numbers, texts and booleans by what they are,
everything else by identity. -/
def same : Value → Value → Bool
  | .undefined, .undefined => true
  | .null, .null => true
  | .bool a, .bool b => a == b
  | .number x, .number y => Float.ofBits x == Float.ofBits y
  | .string s, .string t => s == t
  | .array a, .array b => a == b
  | .object a, .object b => a == b
  | .function a _, .function b _ => a == b
  | .error a _, .error b _ => a == b
  | .regex a _, .regex b _ => a == b
  | .native a, .native b => a.id == b.id
  | _, _ => false

/-- A value as the position of an array element. -/
def toPosition? : Value → Option Nat
  | .number bits => Number.toPosition? (Float.ofBits bits)
  | .string s => Number.readPosition? s
  | _ => none

/-- A value as a position where an element or a character is read: a number, or a text of digits
only. -/
def readPosition? : Value → Option Nat
  | .number bits => Number.toPosition? (Float.ofBits bits)
  | .string s => if s.toList.all Char.isDigit then Number.readPosition? s else none
  | _ => none

end Value

end ScriptMachine
