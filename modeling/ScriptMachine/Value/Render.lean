import ScriptMachine.Number.Text
import ScriptMachine.Text.Quoted
import ScriptMachine.Value.Scope

/-!
# Render — values as texts

`Value.text` is what a script sees when it joins a value to a text, `Value.inspect` what a
diagnostic shows. An array that is being rendered already, further up on the way from the outermost
one, is not entered again: it leaves nothing in a joined text and `[...]` in an inspected one. Any
other array is rendered in full wherever it stands.
-/

namespace ScriptMachine

namespace Heap

/-- The arrays that are not on a path. -/
def unopened (h : Heap) (path : List ArrayId) : List Nat :=
  (List.range h.arrays.size).filter fun i => !path.contains ⟨i⟩

theorem unopened_cons_lt (h : Heap) {path : List ArrayId} {a : ArrayId}
    (hpath : path.contains a = false) (hsize : a.index < h.arrays.size) :
    (h.unopened (a :: path)).length < (h.unopened path).length := by
  have hsub : (h.unopened (a :: path)).Sublist (h.unopened path) := by
    have : h.unopened (a :: path) =
        (h.unopened path).filter fun i => !(a :: path).contains ⟨i⟩ := by
      simp only [unopened, List.filter_filter]
      congr 1
      funext i
      cases h1 : path.contains (⟨i⟩ : ArrayId) <;> simp_all
    rw [this]
    exact List.filter_sublist
  have hmem : a.index ∈ h.unopened path := by
    simpa [unopened, hsize] using hpath
  have hnot : a.index ∉ h.unopened (a :: path) := by
    simp [unopened]
  rcases Nat.lt_or_ge (h.unopened (a :: path)).length (h.unopened path).length with hlt | hge
  · exact hlt
  · exact absurd (hsub.eq_of_length_le hge ▸ hmem) hnot

/-- The text of a value that is no array. -/
def plainText (h : Heap) : Value → String
  | .undefined => "undefined"
  | .null => "null"
  | .bool b => if b then "true" else "false"
  | .number bits => Number.text (Float.ofBits bits)
  | .string s => s
  | .array _ => ""
  | .object o => "[object " ++ h.className o ++ "]"
  | .function _ f => "function " ++ f.name
  | .error _ message => "Error: " ++ message
  | .regex _ pattern => "/" ++ pattern.source ++ "/"
  | .native handle => "[native " ++ handle.typeName ++ "]"

/-- The inspected form of a value that is no array. -/
def plainInspect (h : Heap) : Value → String
  | .string s => Text.quoted s
  | .object o => "<" ++ h.className o ++ " instance>"
  | .function _ f => "<fn " ++ f.name ++ s!" #{f.sectionIndex}>"
  | .error _ message => "Error(" ++ Text.quoted message ++ ")"
  | .native handle => "<native " ++ handle.label ++ ">"
  | v => h.plainText v

/-- The elements of an array, joined. Absent elements leave nothing between separators, and arrays
inside are joined by commas. -/
def joinFrom (h : Heap) (path : List ArrayId) (separator : String) (a : ArrayId) : String :=
  if hpath : path.contains a = true then ""
  else if hsize : a.index < h.arrays.size then
    separator.intercalate <| h.arrays[a.index].toList.map fun v =>
      match v with
      | .undefined | .null => ""
      | .array inner => h.joinFrom (a :: path) "," inner
      | v => h.plainText v
  else ""
termination_by (h.unopened path).length
decreasing_by exact h.unopened_cons_lt (by simpa using hpath) hsize

/-- The elements of an array between brackets. -/
def inspectFrom (h : Heap) (path : List ArrayId) (a : ArrayId) : String :=
  if hpath : path.contains a = true then "[...]"
  else if hsize : a.index < h.arrays.size then
    let items := h.arrays[a.index].toList.map fun v =>
      match v with
      | .array inner => h.inspectFrom (a :: path) inner
      | v => h.plainInspect v
    "[" ++ ", ".intercalate items ++ "]"
  else "[]"
termination_by (h.unopened path).length
decreasing_by exact h.unopened_cons_lt (by simpa using hpath) hsize

/-- The elements of an array, joined by a separator. -/
def join (h : Heap) (separator : String) (a : ArrayId) : String := h.joinFrom [] separator a

/-- An array as a diagnostic shows it. -/
def inspectArray (h : Heap) (a : ArrayId) : String := h.inspectFrom [] a

/-- An object as a diagnostic shows it. -/
def inspectObject (h : Heap) (o : ObjectId) : String := h.plainInspect (.object o)

/-- A scope as a diagnostic shows it. -/
def inspectScope (h : Heap) (s : ScopeId) : String :=
  let bound := if (h.scope s).isBound then "true" else "false"
  "Environment \x7b depth: " ++ Nat.repr (h.depth s) ++ ", names: "
    ++ Text.quotedList (h.scope s).names ++ ", bound: " ++ bound ++ " \x7d"

end Heap

namespace Value

/-- A value as scripts see it in a text. -/
def text (h : Heap) : Value → String
  | .array a => h.join "," a
  | v => h.plainText v

/-- A value as a diagnostic shows it. -/
def inspect (h : Heap) : Value → String
  | .array a => h.inspectArray a
  | v => h.plainInspect v

/-- What the host reads when a value was thrown: an error gives its bare message. -/
def message (h : Heap) : Value → String
  | .error _ message => message
  | v => v.text h

/-- The name of the property that a key stands for. -/
def keyName (h : Heap) (key : Value) : String := key.text h

end Value

end ScriptMachine
