import ScriptMachine.Native.Basic
import ScriptMachine.Text.Casing
import ScriptMachine.Text.Search

/-!
# Builtins — the host functions of every machine

Four global functions, and the methods of arrays, strings and patterns. A method takes its receiver
from the call, so it can be fetched from one value and called on another.
-/

namespace ScriptMachine

namespace Builtin

/-- The name that scripts use. -/
def name : Builtin → String
  | .print => "print"
  | .makeError => "Error"
  | .makeRegex => "RegExp"
  | .typeOf => "typeOf"
  | .arrayPush => "push"
  | .arrayPop => "pop"
  | .arrayIndexOf => "indexOf"
  | .arrayJoin => "join"
  | .stringUpper => "toUpperCase"
  | .stringLower => "toLowerCase"
  | .stringIndexOf => "indexOf"
  | .stringSubstring => "substring"
  | .stringSplit => "split"
  | .regexTest => "test"
  | .regexMatch => "match"

/-- The accepted numbers of arguments. -/
def arity : Builtin → Arity
  | .print => .variadic 0
  | .makeError => .range 0 1
  | .makeRegex => .exact 1
  | .typeOf => .exact 1
  | .arrayPush => .variadic 0
  | .arrayPop => .exact 0
  | .arrayIndexOf => .exact 1
  | .arrayJoin => .range 0 1
  | .stringUpper => .exact 0
  | .stringLower => .exact 0
  | .stringIndexOf => .exact 1
  | .stringSubstring => .range 1 2
  | .stringSplit => .range 0 1
  | .regexTest => .exact 1
  | .regexMatch => .exact 1

/-- The functions that are names of their own. -/
def globals : List Builtin := [.print, .makeError, .makeRegex, .typeOf]

/-- The methods of arrays. -/
def arrayMethods : List Builtin := [.arrayPush, .arrayPop, .arrayIndexOf, .arrayJoin]

/-- The methods of strings. -/
def stringMethods : List Builtin :=
  [.stringUpper, .stringLower, .stringIndexOf, .stringSubstring, .stringSplit]

/-- The methods of patterns. -/
def regexMethods : List Builtin := [.regexTest, .regexMatch]

/-! ### Receivers and arguments -/

/-- The error of a method whose receiver has the wrong kind. -/
def receiverError (b : Builtin) (expected : Kind) (this : Option Value) : Cause :=
  let actual := (this.map fun v => v.kind.name).getD "nothing"
  .native (b.name ++ " expects a " ++ expected.name ++ " receiver, got " ++ actual)

/-- The receiver of an array method. -/
def thisArray (b : Builtin) : Option Value → Except Cause ArrayId
  | some (.array a) => .ok a
  | this => .error (b.receiverError .array this)

/-- The receiver of a string method. -/
def thisString (b : Builtin) : Option Value → Except Cause String
  | some (.string s) => .ok s
  | this => .error (b.receiverError .string this)

/-- The receiver of a pattern method. -/
def thisRegex (b : Builtin) : Option Value → Except Cause Pattern
  | some (.regex _ p) => .ok p
  | this => .error (b.receiverError .regex this)

/-- An argument that has to be a string. -/
def stringArg (b : Builtin) : Option Value → Except Cause String
  | some (.string s) => .ok s
  | some other => .error (.native (b.name ++ " expects a string argument, got " ++ other.kind.name))
  | none => .error (.native (b.name ++ " expects a string argument"))

/-- An argument that has to be a position; an absent one stands for `default`, and whatever is not
above zero for zero. -/
def positionArg (b : Builtin) (default : Nat) : Option Value → Except Cause Nat
  | none | some .undefined => .ok default
  | some (.number bits) => .ok (Number.floorPosition (Float.ofBits bits))
  | some other => .error (.native (b.name ++ " expects a numeric argument, got " ++ other.kind.name))

/-! ### Bodies -/

/-- The position of a value among others, or minus one. -/
def positionValue (position : Option Nat) : Value :=
  match position with
  | some i => .ofNat i
  | none => .ofFloat (-1.0)

/-- The substring between two positions given in either order. -/
def substring (b : Builtin) (text : String) (args : List Value) : Except Cause Value := do
  let length := text.length
  let start := min (← b.positionArg 0 args[0]?) length
  let stop := min (← b.positionArg length args[1]?) length
  return .string (Text.slice text (min start stop) (max start stop))

/-- The parts of a text: without a separator the text itself, else the parts between matches of a
pattern or occurrences of a string. -/
def parts (b : Builtin) (text : String) : Option Value → Except Cause (List String)
  | none | some .undefined => .ok [text]
  | some (.regex _ p) => .ok (p.split text)
  | some v => do return Text.split (← b.stringArg (some v)) text

/-- What a call of a builtin does, once its arguments have been counted. -/
def body (b : Builtin) (this : Option Value) (args : List Value) (h : Heap) : CallResult :=
  let first := args.headD .undefined
  match b with
  | .print =>
    { result := .ok .undefined, heap := h, log := [" ".intercalate (args.map (·.text h))] }
  | .makeError =>
    let (e, h) := h.newError ((args.head?.map (·.message h)).getD "")
    Native.pure (.ok e) h
  | .makeRegex =>
    match first with
    | .regex id p => Native.pure (.ok (.regex id p)) h
    | v =>
      let (r, h) := h.newRegex (v.text h)
      Native.pure r h
  | .typeOf =>
    let name := match first with
      | .native handle => handle.typeName
      | v => v.kind.name
    Native.pure (.ok (.string name)) h
  | .arrayPush =>
    match b.thisArray this with
    | .error e => Native.pure (.error e) h
    | .ok a =>
      let h := h.appendElements a args
      Native.pure (.ok (.ofNat (h.elements a).size)) h
  | .arrayPop =>
    match b.thisArray this with
    | .error e => Native.pure (.error e) h
    | .ok a =>
      let (v, h) := h.popElement a
      Native.pure (.ok (v.getD .undefined)) h
  | .arrayIndexOf =>
    Native.pure (do return positionValue ((h.elements (← b.thisArray this)).findIdx? (·.same first))) h
  | .arrayJoin =>
    Native.pure (do
      let a ← b.thisArray this
      let separator ← match args.head? with
        | none | some .undefined => .ok ","
        | some v => b.stringArg (some v)
      return .string (h.join separator a)) h
  | .stringUpper => Native.pure (do return .string (Text.upper (← b.thisString this))) h
  | .stringLower => Native.pure (do return .string (Text.lower (← b.thisString this))) h
  | .stringIndexOf =>
    Native.pure (do
      let text ← b.thisString this
      return positionValue (Text.indexOf? (← b.stringArg args.head?) text)) h
  | .stringSubstring => Native.pure (do b.substring (← b.thisString this) args) h
  | .stringSplit =>
    match (do b.parts (← b.thisString this) args.head? : Except Cause (List String)) with
    | .error e => Native.pure (.error e) h
    | .ok parts =>
      let (a, h) := h.newArray (parts.map Value.string).toArray
      Native.pure (.ok (.array a)) h
  | .regexTest =>
    Native.pure (do
      let p ← b.thisRegex this
      return .bool (p.test (← b.stringArg args.head?))) h
  | .regexMatch =>
    Native.pure (do
      let p ← b.thisRegex this
      return ((p.find? (← b.stringArg args.head?)).map .string).getD .null) h

/-- A builtin as a host value. -/
def native (b : Builtin) : Native := Native.function b.name b.arity b.body

/-- The handle of a builtin. Fetching a method twice gives the same handle. -/
def handle (b : Builtin) : NativeHandle :=
  { id := .builtin b, typeName := b.native.typeName, label := b.native.label, callable := true }

/-- The method with a name, or `undefined`. -/
def method (methods : List Builtin) (name : String) : Value :=
  match methods.find? fun b => b.name == name with
  | some b => .native b.handle
  | none => .undefined

end Builtin

end ScriptMachine
