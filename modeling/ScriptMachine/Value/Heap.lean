import ScriptMachine.Fault.Cause

/-!
# Heap — arrays, objects and scopes

Places are handed out in order and never given back, so a place is valid from when it was made on.
Reading a place that was never made gives an empty array, object or scope.
-/

namespace ScriptMachine

/-- An object: its class and the scope that holds its fields. -/
structure ObjectCell where
  className : String
  fields : ScopeId
  deriving DecidableEq, Repr

/-- A scope: the names it defines, the scope around it and, if it holds the fields of an object,
that object. The link to the object does not keep it (see `Scope.get?`). -/
structure Scope where
  vars : List (String × Value) := []
  parent : Option ScopeId := none
  owner : Option ObjectId := none

/-- Everything that values refer to. `cells` holds what host objects remember, and `stamps` counts
the identities given out. -/
structure Heap where
  arrays : Array (Array Value) := #[]
  objects : Array ObjectCell := #[]
  scopes : Array Scope := #[]
  cells : Array Value := #[]
  stamps : Nat := 0

namespace Heap

instance : Inhabited Heap := ⟨{}⟩

/-! ### Identities -/

/-- A new identity. -/
def freshIdentity (h : Heap) : Identity × Heap := (.made h.stamps, { h with stamps := h.stamps + 1 })

/-- A new error value. -/
def newError (h : Heap) (message : String) : Value × Heap :=
  let (id, h) := h.freshIdentity
  (.error id message, h)

/-- A new value for a function. -/
def newFunction (h : Heap) (f : ScriptFunction) : Value × Heap :=
  let (id, h) := h.freshIdentity
  (.function id f, h)

/-- A new value for a pattern given by its text. -/
def newRegex (h : Heap) (source : String) : Except Cause Value × Heap :=
  match Pattern.compile source with
  | .ok pattern =>
    let (id, h) := h.freshIdentity
    (.ok (.regex id pattern), h)
  | .error refusal => (.error (.badPattern source refusal), h)

/-! ### Arrays -/

/-- The largest index an array write may extend to. -/
def maxIndex : Nat := 0xfffff

/-- A new array. -/
def newArray (h : Heap) (items : Array Value) : ArrayId × Heap :=
  (⟨h.arrays.size⟩, { h with arrays := h.arrays.push items })

/-- The elements of an array. -/
def elements (h : Heap) (a : ArrayId) : Array Value := h.arrays.getD a.index #[]

/-- One element of an array. -/
def element? (h : Heap) (a : ArrayId) (index : Nat) : Option Value := (h.elements a)[index]?

/-- Changes the elements of an array. -/
def modifyArray (h : Heap) (a : ArrayId) (f : Array Value → Array Value) : Heap :=
  { h with arrays := h.arrays.modify a.index f }

theorem elements_modifyArray (h : Heap) (a b : ArrayId) (f : Array Value → Array Value)
    (ha : a.index < h.arrays.size) :
    (h.modifyArray a f).elements b = if b = a then f (h.elements a) else h.elements b := by
  by_cases hb : b = a
  · subst hb
    simp [modifyArray, elements, Array.getD_eq_getD_getElem?, Array.getElem_modify, ha]
  · have hi : a.index ≠ b.index := fun hi => hb (by cases a; cases b; simp_all)
    simp [modifyArray, elements, Array.getD_eq_getD_getElem?, Array.getElem?_modify, hi, hb]

/-- Elements with one of them replaced; a gap before it is filled with `undefined`. -/
def place (index : Nat) (v : Value) (items : Array Value) : Array Value :=
  if index < items.size then items.setIfInBounds index v
  else (items ++ Array.replicate (index - items.size) Value.undefined).push v

/-- Refuses an index that is too large to write to. -/
def checkIndex (index : Nat) : Except Cause Unit :=
  if maxIndex < index then .error (.indexOutOfRange index) else .ok ()

/-- Writes an element, unless the index is too large. -/
def setElement (h : Heap) (a : ArrayId) (index : Nat) (v : Value) : Except Cause Heap :=
  (checkIndex index).map fun _ => h.modifyArray a (place index v)

/-- Appends elements. -/
def appendElements (h : Heap) (a : ArrayId) (items : List Value) : Heap :=
  h.modifyArray a (· ++ items)

/-- Removes the last element. -/
def popElement (h : Heap) (a : ArrayId) : Option Value × Heap :=
  ((h.elements a).back?, h.modifyArray a Array.pop)

/-! ### Scopes and objects -/

/-- A scope. -/
def scope (h : Heap) (s : ScopeId) : Scope := h.scopes.getD s.index {}

/-- A new scope. -/
def newScope (h : Heap) (scope : Scope) : ScopeId × Heap :=
  (⟨h.scopes.size⟩, { h with scopes := h.scopes.push scope })

/-- A new scope with nothing around it. -/
def newRoot (h : Heap) : ScopeId × Heap := h.newScope {}

/-- A new scope inside another. -/
def newChild (h : Heap) (parent : ScopeId) : ScopeId × Heap := h.newScope { parent := some parent }

/-- A new object whose fields stand inside a scope. -/
def newObject (h : Heap) (className : String) (parent : ScopeId) : ObjectId × Heap :=
  let object : ObjectId := ⟨h.objects.size⟩
  let (fields, h) := h.newScope { parent := some parent, owner := some object }
  (object, { h with objects := h.objects.push ⟨className, fields⟩ })

/-- The class of an object. -/
def className (h : Heap) (o : ObjectId) : String := (h.objects[o.index]?.map (·.className)).getD ""

/-- The scope that holds the fields of an object. -/
def fields (h : Heap) (o : ObjectId) : ScopeId := (h.objects[o.index]?.map (·.fields)).getD ⟨0⟩

/-! ### Cells of host objects -/

/-- A new cell. -/
def newCell (h : Heap) (v : Value) : Nat × Heap := (h.cells.size, { h with cells := h.cells.push v })

/-- What a cell holds. -/
def cell (h : Heap) (index : Nat) : Value := h.cells.getD index .undefined

/-- Changes what a cell holds. -/
def setCell (h : Heap) (index : Nat) (v : Value) : Heap :=
  { h with cells := h.cells.setIfInBounds index v }

end Heap

end ScriptMachine
