import ScriptMachine.Code.Section
import ScriptMachine.Fault.Message

/-!
# Program — checked code, ready to run

`Program.assemble` accepts sections when there is a script among them, no label is defined twice
and every label that an instruction names is defined in its own section.
-/

namespace ScriptMachine

/-- Where a label is defined. -/
structure LabelSite where
  sectionIndex : Nat
  pc : Nat
  deriving DecidableEq, Repr

/-- Code with its constants, functions and classes. A class lists the functions that are its
methods; of two classes with one name the first in the list counts. -/
structure Program where
  sections : Array CodeSection
  constants : Array Value := #[]
  functions : Array ScriptFunction := #[]
  classes : List (String × List Nat) := []
  /-- Where the labels are defined. -/
  labels : List (Nat × LabelSite) := []

namespace CodeSection

/-- The labels that a section defines. -/
def labelSites (sectionIndex : Nat) (s : CodeSection) : List (Nat × LabelSite) :=
  (s.code.toList.zipIdx).filterMap fun (instruction, pc) =>
    match instruction.op with
    | .label l => some (l, ⟨sectionIndex, pc⟩)
    | _ => none

/-- The first instruction that names a label which the section does not define. -/
def strayTarget? (sites : List (Nat × LabelSite)) (sectionIndex : Nat) (s : CodeSection) :
    Option Breach :=
  s.code.toList.findSome? fun instruction =>
    (instruction.op.targets.find? fun l =>
      (sites.lookup l).map (·.sectionIndex) != some sectionIndex).map fun l =>
        .unknownTarget instruction.op.text s.name l

end CodeSection

/-- The first label that is defined once more. -/
def repeatedLabel? (seen : List Nat) : List (Nat × LabelSite) → Option Nat
  | [] => none
  | (l, _) :: rest => if seen.contains l then some l else repeatedLabel? (l :: seen) rest

namespace Program

/-- Checks sections and finds their labels. -/
def assemble (sections : Array CodeSection) (constants : Array Value)
    (functions : Array ScriptFunction) (classes : List (String × List Nat)) :
    Except Cause Program :=
  if sections.isEmpty then .error (.invariant .noScript)
  else
    let indexed := sections.toList.zipIdx
    let sites := indexed.flatMap fun (s, i) => s.labelSites i
    match repeatedLabel? [] sites with
    | some l => .error (.invariant (.labelTwice l))
    | none =>
      match indexed.findSome? fun (s, i) => s.strayTarget? sites i with
      | some breach => .error (.invariant breach)
      | none => .ok { sections, constants, functions, classes, labels := sites }

/-- The instruction at a place. -/
def instruction? (p : Program) (sectionIndex pc : Nat) : Option Instruction :=
  p.sections[sectionIndex]?.bind fun s => s.code[pc]?

/-- The name of a section. -/
def sectionName? (p : Program) (sectionIndex : Nat) : Option String :=
  p.sections[sectionIndex]?.map (·.name)

/-- The place of a label in its section. -/
def jumpTarget? (p : Program) (label : Nat) : Option Nat := (p.labels.lookup label).map (·.pc)

/-- The last entry of the function table with a name. -/
def functionIndex? (p : Program) (name : String) : Option Nat :=
  ((p.functions.toList.zipIdx).reverse.find? fun (f, _) => f.name == name).map Prod.snd

/-- An entry of the function table as a value. -/
def functionValue? (p : Program) (index : Nat) : Option Value :=
  p.functions[index]?.map (.function (.declared index))

/-- The function with a name as a value. -/
def function? (p : Program) (name : String) : Option Value :=
  (p.functionIndex? name).bind p.functionValue?

/-- The methods of a class: the entries of the function table it lists. -/
def classMethods? (p : Program) (className : String) : Option (List (Nat × ScriptFunction)) :=
  (p.classes.lookup className).map fun indices =>
    indices.filterMap fun i => p.functions[i]?.map (i, ·)

/-- The lines of a listing. -/
def lines (h : Heap) (p : Program) : List String :=
  "constants:" :: (p.constants.toList.mapIdx fun i v => columnText i ++ " " ++ v.inspect h)
    ++ p.sections.toList.flatMap CodeSection.lines

/-- A listing. -/
def listing (h : Heap) (p : Program) : String := String.join ((p.lines h).map (· ++ "\n"))

end Program

end ScriptMachine
