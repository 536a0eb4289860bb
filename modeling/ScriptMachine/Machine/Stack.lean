import ScriptMachine.Value.Render

/-!
# Stack — values and markers

Values and markers share one stack. A marker records what is restored when control leaves a body, a
try region or a loop. The stack knows its depth, so the limit is checked without walking it.
-/

namespace ScriptMachine

/-- What a call returns to. -/
structure Frame where
  returnSection : Nat
  returnPc : Nat
  env : ScopeId
  callee : String
  /-- The call came from the host, and returning hands control back to it. -/
  fromHost : Bool
  deriving DecidableEq, Repr

/-- An active try region: where its handler and its final part begin, and the scope around it. -/
structure Region where
  sectionIndex : Nat
  handlerPc : Nat
  finalPc : Option Nat
  env : ScopeId
  deriving DecidableEq, Repr

/-- An entry of the stack. -/
inductive Entry where
  | value (v : Value)
  | frame (f : Frame)
  | region (r : Region)
  | loop (env : ScopeId)

namespace Entry

/-- What an entry is. -/
def kind : Entry → EntryKind
  | .value _ => .value
  | .frame _ => .frame
  | .region _ => .region
  | .loop _ => .loop

/-- Whether an entry is a marker. -/
def isMarker : Entry → Bool
  | .value _ => false
  | _ => true

/-- An entry as a diagnostic shows it. -/
def inspect (h : Heap) : Entry → String
  | .value v => v.inspect h
  | .frame f => s!"<frame {f.returnSection}:{f.returnPc}" ++ (if f.fromHost then " host>" else ">")
  | .region r =>
    s!"<try {r.sectionIndex}:{r.handlerPc}" ++ (match r.finalPc with
      | some pc => s!" finally {pc}>"
      | none => ">")
  | .loop _ => "<loop>"

end Entry

/-- Entries, the top first, and their number. -/
structure Stack where
  entries : List Entry
  depth : Nat
  depth_eq : depth = entries.length

namespace Stack

/-- The empty stack. -/
def empty : Stack := ⟨[], 0, rfl⟩

instance : Inhabited Stack := ⟨empty⟩

/-- A stack of given entries. -/
def ofList (entries : List Entry) : Stack := ⟨entries, entries.length, rfl⟩

/-- Puts an entry on top. -/
def push (s : Stack) (e : Entry) : Stack :=
  ⟨e :: s.entries, s.depth + 1, by simp [s.depth_eq]⟩

/-- The top entry. -/
def top? (s : Stack) : Option Entry := s.entries.head?

/-- The stack without its top entry. -/
def drop (s : Stack) : Stack :=
  ⟨s.entries.tail, s.depth - 1, by simp [s.depth_eq]⟩

@[ext]
theorem ext {s t : Stack} (h : s.entries = t.entries) : s = t := by
  cases s with
  | mk e d hd =>
    cases t with
    | mk e' d' hd' =>
      simp only at h
      subst h
      subst hd
      subst hd'
      rfl

@[simp]
theorem entries_push (s : Stack) (e : Entry) : (s.push e).entries = e :: s.entries := rfl

@[simp]
theorem entries_drop (s : Stack) : s.drop.entries = s.entries.tail := rfl

@[simp]
theorem drop_push (s : Stack) (e : Entry) : (s.push e).drop = s := by
  ext
  simp

end Stack

end ScriptMachine
