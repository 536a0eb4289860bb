import ScriptMachine.Value.Render

/-!
# Message — causes in words

The wording of every cause is here. A thrown value is rendered, so the heap it lives in is needed.
-/

namespace ScriptMachine

/-- A cause in words. -/
def Cause.message (h : Heap) : Cause → String
  | .compile diagnostics =>
    "compilation failed: " ++ "; ".intercalate (diagnostics.map Diagnostic.text)
  | .typeMismatch operation left right =>
    "cannot apply `" ++ operation ++ "` to " ++ left.name ++ " and " ++ right.name
  | .undefinedVariable name => "undefined variable: " ++ name
  | .invalidProperty property target =>
    "cannot access property `" ++ property ++ "` of " ++ target.name
  | .notCallable target => target.name ++ " is not callable"
  | .undefinedClass name => "undefined class: " ++ name
  | .indexOutOfRange index => s!"array index {index} exceeds the maximum of {Heap.maxIndex}"
  | .arityMismatch name expected actual =>
    name ++ " expects " ++ expected.text ++ s!" argument(s), got {actual}"
  | .native message => message
  | .thrown value => "thrown: " ++ value.text h
  | .uncaught message => "uncaught exception: " ++ message
  | .limit bound => "limit exceeded: " ++ bound.message
  | .invariant breach => "internal invariant violated: " ++ breach.message
  | .halted => "vm halted after an error; reset before running again"

end ScriptMachine
