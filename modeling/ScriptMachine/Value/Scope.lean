import ScriptMachine.Value.Heap

/-!
# Scope — names and the scopes around them

A name is looked up along the chain of scopes, innermost first. The fields of an object are a scope
too, in which `this` stands for the object unless it is defined there. A plain assignment changes
the nearest scope that defines the name; a field assignment looks no further than the fields of the
nearest object and defines what it does not find.
-/

namespace ScriptMachine

/-- The name of the receiver. -/
def thisName : String := "this"

/-- Defines a name in place, or after all the others. -/
def insertBinding (name : String) (v : Value) : List (String × Value) → List (String × Value)
  | [] => [(name, v)]
  | (n, w) :: rest => if n = name then (name, v) :: rest else (n, w) :: insertBinding name v rest

theorem lookup_insertBinding (name n : String) (v : Value) (vars : List (String × Value)) :
    (insertBinding name v vars).lookup n = if n = name then some v else vars.lookup n := by
  induction vars with
  | nil =>
    by_cases hn : n = name
    · simp [insertBinding, hn]
    · simp [insertBinding, List.lookup_cons, hn, beq_eq_false_iff_ne.2 hn]
  | cons b rest ih =>
    obtain ⟨m, w⟩ := b
    by_cases hm : m = name
    · subst hm
      by_cases hn : n = m
      · simp [insertBinding, hn]
      · simp [insertBinding, List.lookup_cons, hn, beq_eq_false_iff_ne.2 hn]
    · by_cases hn : n = m
      · subst hn
        simp [insertBinding, hm]
      · simp [insertBinding, List.lookup_cons, hm, beq_eq_false_iff_ne.2 hn, ih]

namespace Scope

/-- Whether a scope holds the fields of an object. -/
def isBound (s : Scope) : Bool := s.owner.isSome

/-- Whether a scope defines a name. -/
def defines (s : Scope) (name : String) : Bool := (s.vars.lookup name).isSome

/-- The value of a name in one scope. The fields of an object know it as `this`. They do so only while
something else keeps the object, which is taken for granted here. `Heap.seen?` has the condition, and
`Script.names_kept` says that names in the code of a script do not depend on it. -/
def get? (s : Scope) (name : String) : Option Value :=
  match s.vars.lookup name with
  | some v => some v
  | none => if name = thisName then s.owner.map .object else none

/-- The names that a scope defines, sorted. -/
def names (s : Scope) : List String := (s.vars.map Prod.fst).mergeSort

/-- Defines a name. -/
def define (s : Scope) (name : String) (v : Value) : Scope :=
  { s with vars := insertBinding name v s.vars }

end Scope

namespace Heap

/-- The scope at a place and those around it, innermost first. A scope stands inside one that was
made before it, so the places go down. -/
def chainFrom (h : Heap) (i : Nat) : List ScopeId :=
  match (h.scope ⟨i⟩).parent with
  | none => [⟨i⟩]
  | some p => if p.index < i then ⟨i⟩ :: h.chainFrom p.index else [⟨i⟩]
termination_by i

/-- A scope and those around it, innermost first. -/
def chain (h : Heap) (s : ScopeId) : List ScopeId := h.chainFrom s.index

/-- The scope around a scope. -/
def parent? (h : Heap) (s : ScopeId) : Option ScopeId := (h.scope s).parent

/-- The number of scopes around a scope. -/
def depth (h : Heap) (s : ScopeId) : Nat := (h.chain s).length - 1

/-- The value of a name in one scope. -/
def getLocal? (h : Heap) (s : ScopeId) (name : String) : Option Value := (h.scope s).get? name

/-- The value of a name along the chain. -/
def resolve? (h : Heap) (s : ScopeId) (name : String) : Option Value :=
  (h.chain s).findSome? (h.getLocal? · name)

/-- Defines a name in one scope. -/
def define (h : Heap) (s : ScopeId) (name : String) (v : Value) : Heap :=
  { h with scopes := h.scopes.modify s.index (·.define name v) }

theorem scope_define (h : Heap) (s t : ScopeId) (name : String) (v : Value)
    (hs : s.index < h.scopes.size) :
    (h.define s name v).scope t = if t = s then (h.scope s).define name v else h.scope t := by
  by_cases ht : t = s
  · subst ht
    simp [define, scope, Array.getD_eq_getD_getElem?, Array.getElem_modify, hs]
  · have hi : s.index ≠ t.index := fun hi => ht (by cases s; cases t; simp_all)
    simp [define, scope, Array.getD_eq_getD_getElem?, Array.getElem?_modify, hi, ht]

/-- Defines several names in one scope, in order. -/
def defineAll (h : Heap) (s : ScopeId) : List (String × Value) → Heap
  | [] => h
  | (name, v) :: rest => (h.define s name v).defineAll s rest

/-- The nearest of some scopes that defines a name. -/
def definer? (h : Heap) (scopes : List ScopeId) (name : String) : Option ScopeId :=
  scopes.find? fun s => (h.scope s).defines name

/-- The nearest scope that defines a name; an undefined name cannot be assigned to. -/
def slot (h : Heap) (s : ScopeId) (name : String) : Except Cause ScopeId :=
  match h.definer? (h.chain s) name with
  | some t => .ok t
  | none => .error (.undefinedVariable name)

/-- Assigns to the nearest scope that defines the name. -/
def assign (h : Heap) (s : ScopeId) (name : String) (v : Value) : Except Cause Heap :=
  (h.slot s name).map (h.define · name v)

/-- Scopes up to the first that holds the fields of an object, that one included. -/
def upToFields (h : Heap) : List ScopeId → List ScopeId
  | [] => []
  | s :: rest => if (h.scope s).isBound then [s] else s :: h.upToFields rest

/-- Where a field assignment goes: to a scope up to the nearest fields that defines the name, else
to the scope itself. -/
def fieldSlot (h : Heap) (s : ScopeId) (name : String) : ScopeId :=
  (h.definer? (h.upToFields (h.chain s)) name).getD s

/-- Assigns as to a field. -/
def assignField (h : Heap) (s : ScopeId) (name : String) (v : Value) : Heap :=
  h.define (h.fieldSlot s name) name v

end Heap

end ScriptMachine
