import ScriptMachine.Value.Render

/-!
# Native — host values

The machine never looks into a host value: it reads and writes its properties and calls it through
the operations of a `Native`. Every operation refuses unless the host value says otherwise.
-/

namespace ScriptMachine

/-- What a call of a host value did: its result, the heap it left and the lines it logged. -/
structure CallResult where
  result : Except Cause Value
  heap : Heap
  log : List String := []

/-- A host value: how it is shown, and what can be done with it. A call sees the receiver of a method
call, the arguments and the heap. Of every host value it is assumed that reading a property makes and
changes nothing, so that `read` gives no heap; what a host value makes or changes, it makes or changes
when it is called or written to. -/
structure Native where
  typeName : String
  label : String
  callable : Bool := false
  read : String → Heap → Except Cause Value := fun name _ => .error (.invalidProperty name .native)
  write : String → Value → Heap → Except Cause Unit × Heap :=
    fun name _ h => (.error (.invalidProperty name .native), h)
  call : Option Value → List Value → Heap → CallResult :=
    fun _ _ h => { result := .error (.notCallable .native), heap := h }

namespace Native

/-- A host function under a name. The number of arguments is checked before the body runs. -/
def function (name : String) (arity : Arity)
    (body : Option Value → List Value → Heap → CallResult) : Native where
  typeName := "function"
  label := "fn " ++ name ++ "/" ++ arity.text
  callable := true
  read := fun property _ => .ok (if property = "name" then .string name else .undefined)
  call := fun this args h =>
    if arity.accepts args.length then body this args h
    else { result := .error (.arityMismatch name arity args.length), heap := h }

/-- A call that leaves the heap as it is. -/
def pure (result : Except Cause Value) (h : Heap) : CallResult := { result, heap := h }

/-- The receiver of a call as a diagnostic shows it. -/
def inspectContext (h : Heap) (this : Option Value) : String :=
  let shown := match this with
    | none => "None"
    | some v => "Some(" ++ v.inspect h ++ ")"
  "HostContext \x7b this: " ++ shown ++ ", .. \x7d"

end Native

end ScriptMachine
