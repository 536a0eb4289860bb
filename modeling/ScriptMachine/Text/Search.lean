/-!
# Search — finding and splitting texts

Texts are searched as lists of characters. `pieces` cuts at the leftmost occurrences of a separator
that do not overlap.
-/

namespace ScriptMachine.Text

/-- The rest of a list after a given beginning. -/
def dropBeginning? : List Char → List Char → Option (List Char)
  | [], text => some text
  | _ :: _, [] => none
  | p :: ps, c :: cs => if p = c then dropBeginning? ps cs else none

theorem length_of_dropBeginning? {beginning text rest : List Char}
    (h : dropBeginning? beginning text = some rest) :
    rest.length + beginning.length = text.length := by
  induction beginning generalizing text with
  | nil => simp_all [dropBeginning?]
  | cons p ps ih =>
    cases text with
    | nil => simp [dropBeginning?] at h
    | cons c cs =>
      by_cases hc : p = c
      · simp only [dropBeginning?, hc, if_true] at h
        simp only [List.length_cons, ← ih h, Nat.add_assoc]
      · simp [dropBeginning?, hc] at h

/-- The position of the first occurrence. -/
def find? (needle : List Char) : List Char → Option Nat
  | [] => if needle.isEmpty then some 0 else none
  | c :: cs =>
    if (dropBeginning? needle (c :: cs)).isSome then some 0 else (find? needle cs).map (· + 1)

/-- The pieces of a text between the occurrences of `p :: ps`; `current` holds the piece under way,
last character first. -/
def piecesFrom (p : Char) (ps : List Char) (current : List Char) : List Char → List (List Char)
  | [] => [current.reverse]
  | c :: cs =>
    match h : dropBeginning? (p :: ps) (c :: cs) with
    | some rest =>
      have := length_of_dropBeginning? h
      current.reverse :: piecesFrom p ps [] rest
    | none => piecesFrom p ps (c :: current) cs
termination_by text => text.length
decreasing_by
  · simp only [List.length_cons] at this ⊢
    omega
  · simp only [List.length_cons]
    omega

/-- The pieces of a text between the occurrences of a separator; without a separator, its single
characters. -/
def pieces (separator text : List Char) : List (List Char) :=
  match separator with
  | [] => text.map fun c => [c]
  | p :: ps => piecesFrom p ps [] text

/-- `pieces` of texts. -/
def split (separator text : String) : List String :=
  (pieces separator.toList text.toList).map String.ofList

/-- The position of the first occurrence of one text in another, in characters. -/
def indexOf? (needle text : String) : Option Nat := find? needle.toList text.toList

/-- The characters from position `start` up to `stop`. -/
def slice (text : String) (start stop : Nat) : String :=
  String.ofList ((text.toList.drop start).take (stop - start))

end ScriptMachine.Text
