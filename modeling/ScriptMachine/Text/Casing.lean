import ScriptMachine.Text.CaseTable
import ScriptMachine.Text.Latest

/-!
# Casing — upper and lower case of texts, and case folding of sets

Every character is mapped on its own, to one character or several, except that a capital sigma at
the end of a word becomes a final sigma.
-/

namespace ScriptMachine.Text

/-- What a table of runs maps a character to. -/
def mapRuns (runs : List CaseRun) (c : Char) : Char :=
  match runs.find? (·.maps c.toNat) with
  | some r => Char.ofNat (r.apply c.toNat)
  | none => c

/-- What a table maps a character to, the expansions first. -/
def mapCase (expansions : List (Nat × List Char)) (runs : List CaseRun) (c : Char) : List Char :=
  (expansions.lookup c.toNat).getD [mapRuns runs c]

/-- Uppercase of a text. -/
def upper (text : String) : String :=
  String.ofList (text.toList.flatMap
    (mapCase CaseTable.upperExpansions (CaseTable.upper ++ CaseTable.upperLater)))

/-- Capital sigma. -/
def capitalSigma : Char := 'Σ'

/-- Whether a cased character is the first one that is not skipped. -/
def meetsCased (cs : List Char) : Bool :=
  match cs.dropWhile Latest.caseIgnorable.contains with
  | c :: _ => Latest.cased.contains c
  | [] => false

/-- Lowercase of the rest of a text, given what stands before it, nearest character first. -/
def lowerAfter (before : List Char) : List Char → List Char
  | [] => []
  | c :: rest =>
    let mapped :=
      if c = capitalSigma then [if meetsCased before && !meetsCased rest then 'ς' else 'σ']
      else mapCase CaseTable.lowerExpansions (CaseTable.lower ++ CaseTable.lowerLater) c
    mapped ++ lowerAfter (c :: before) rest

/-- Lowercase of a text. -/
def lower (text : String) : String := String.ofList (lowerAfter [] text.toList)

/-- The pairs of simple case folding. -/
def foldPairs : List (Nat × Nat) := CaseTable.fold.flatMap CaseRun.pairs

/-- A set with every character that folds like one of its members. -/
def CharSet.foldCase (s : CharSet) : CharSet :=
  let targets := foldPairs.filterMap fun (c, f) => if s.containsCode c then some (f, f) else none
  let folded := CharSet.ofRanges (s.ranges ++ targets)
  let sources := foldPairs.filterMap fun (c, f) =>
    if folded.containsCode f then some (c, c) else none
  CharSet.ofRanges (folded.ranges ++ sources)

/-- A set with the other case of its ASCII letters. -/
def CharSet.foldAsciiCase (s : CharSet) : CharSet :=
  let shifted := (List.range 26).flatMap fun i =>
    let (u, l) := (0x41 + i, 0x61 + i)
    if s.containsCode u || s.containsCode l then [(u, u), (l, l)] else []
  CharSet.ofRanges (s.ranges ++ shifted)

end ScriptMachine.Text
