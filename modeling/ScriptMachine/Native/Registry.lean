import ScriptMachine.Native.Builtins

/-!
# Registry — host values by name and by handle

`Hosts` keeps what host values do, under the index in their handles. A `Registry` gives names to
handles; scripts see these names as globals that they cannot assign to.
-/

namespace ScriptMachine

/-- The host values that were added. -/
structure Hosts where
  table : Array Native := #[]

namespace Hosts

/-- Adds a host value and gives its handle. -/
def add (hosts : Hosts) (native : Native) : NativeHandle × Hosts :=
  ({ id := .host hosts.table.size, typeName := native.typeName, label := native.label,
     callable := native.callable },
   ⟨hosts.table.push native⟩)

/-- What a host value does. A handle without a host value refuses everything. -/
def find (hosts : Hosts) (handle : NativeHandle) : Native :=
  match handle.id with
  | .builtin b => b.native
  | .host i =>
    hosts.table.getD i
      { typeName := handle.typeName, label := handle.label, callable := handle.callable }

end Hosts

/-- Names of host values. -/
structure Registry where
  entries : List (String × NativeHandle) := []

namespace Registry

/-- Gives a name to a handle, in place of an earlier one. -/
def insert (name : String) (handle : NativeHandle) :
    List (String × NativeHandle) → List (String × NativeHandle)
  | [] => [(name, handle)]
  | (n, other) :: rest =>
    if n = name then (name, handle) :: rest else (n, other) :: insert name handle rest

/-- Gives a name to a handle; a name may not be empty. -/
def register (r : Registry) (name : String) (handle : NativeHandle) : Except Cause Registry :=
  if name.isEmpty then .error (.native "native name must not be empty")
  else .ok ⟨insert name handle r.entries⟩

/-- The handle with a name. -/
def get? (r : Registry) (name : String) : Option NativeHandle := r.entries.lookup name

/-- The number of names. -/
def size (r : Registry) : Nat := r.entries.length

/-- The names as a diagnostic shows them. -/
def inspect (r : Registry) : String := Text.quotedSet (r.entries.map Prod.fst).mergeSort

/-- The registry of a new machine. -/
def builtins : Registry := ⟨Builtin.globals.map fun b => (b.name, b.handle)⟩

end Registry

end ScriptMachine
