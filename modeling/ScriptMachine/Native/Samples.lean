import ScriptMachine.Native.Basic

/-!
# Samples — host values to try a machine with

Small host functions that cover every way a call can end, and three host objects: one with a
property of its own, one that refuses everything, and one that claims to be callable and is not.
-/

namespace ScriptMachine.Native

/-- Twice a number. -/
def double (name : String) : Native :=
  .function name (.exact 1) fun _ args h =>
    pure (match args.head? with
      | some (.number bits) => .ok (.ofFloat (Float.ofBits bits * 2.0))
      | _ => .error (.native "double wants a number")) h

/-- Logs every argument and returns their number. -/
def note (name : String) : Native :=
  .function name (.variadic 1) fun _ args h =>
    { result := .ok (.ofNat args.length), heap := h, log := args.map fun v => "note " ++ v.text h }

/-- The receiver of the call. -/
def whoami (name : String) : Native :=
  .function name (.range 0 1) fun this _ h => pure (.ok (this.getD (.string "nobody"))) h

/-- A host error with the text of the argument. -/
def fail (name : String) : Native :=
  .function name (.exact 1) fun _ args h =>
    pure (.error (.native ((args.headD .undefined).text h))) h

/-- Throws the argument. -/
def raise (name : String) : Native :=
  .function name (.exact 1) fun _ args h => pure (.error (.thrown (args.headD .undefined))) h

/-- A broken promise. -/
def fatal (name : String) : Native :=
  .function name (.variadic 0) fun _ _ h =>
    pure (.error (.invariant (.reported "host invariant"))) h

/-- An exceeded limit. -/
def exhaust (name : String) : Native :=
  .function name (.exact 0) fun _ _ h => pure (.error (.limit (.cycles 7))) h

/-- The arguments as an array. -/
def echo (name : String) (arity : Arity) : Native :=
  .function name arity fun _ args h =>
    let (a, h) := h.newArray args.toArray
    pure (.ok (.array a)) h

/-- A host object with one number, kept in a cell of the heap. -/
def thermostat (cell : Nat) : Native where
  typeName := "Thermostat"
  label := "thermostat"
  read := fun name h => .ok (if name = "target" then h.cell cell else .undefined)
  write := fun name v h =>
    match v with
    | .number bits =>
      if name = "target" then (.ok (), h.setCell cell (.number bits))
      else (.error (.invalidProperty name .native), h)
    | _ => (.error (.invalidProperty name .native), h)

/-- What a thermostat is set to at first. -/
def thermostatStart : Value := .ofFloat 18.0

/-- A host object that refuses everything. -/
def closed : Native where
  typeName := "Opaque"
  label := "Opaque"

/-- A host object that claims to be callable. -/
def liar : Native where
  typeName := "Liar"
  label := "Liar"
  callable := true

end ScriptMachine.Native
