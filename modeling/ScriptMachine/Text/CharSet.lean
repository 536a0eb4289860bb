/-!
# CharSet — sets of characters as ranges of code points

The ranges of a set are sorted and apart from one another, which `ofRanges` sees to. Tables of
character properties are kept as texts of hexadecimal ranges and read by `CharSet.read`.
-/

namespace ScriptMachine.Text

/-- A set of code points: closed ranges, sorted, with a gap between any two. -/
structure CharSet where
  ranges : List (Nat × Nat)
  deriving DecidableEq, Repr

namespace CharSet

/-- The largest code point. -/
def maxCode : Nat := 0x10ffff

/-- Joins sorted ranges that touch or overlap. -/
def joinAdjacent : List (Nat × Nat) → List (Nat × Nat)
  | [] => []
  | [r] => [r]
  | (a, b) :: (c, d) :: rest =>
    if c ≤ b + 1 then joinAdjacent ((a, max b d) :: rest)
    else (a, b) :: joinAdjacent ((c, d) :: rest)
termination_by rs => rs.length

/-- The set covered by ranges in any order. -/
def ofRanges (rs : List (Nat × Nat)) : CharSet :=
  ⟨joinAdjacent (rs.mergeSort fun r s => r.1 ≤ s.1)⟩

/-- The set without members. -/
def empty : CharSet := ⟨[]⟩

/-- One range, empty when its ends are the wrong way round. -/
def range (first last : Nat) : CharSet := ⟨if first ≤ last then [(first, last)] else []⟩

/-- A single character. -/
def singleton (c : Char) : CharSet := ⟨[(c.toNat, c.toNat)]⟩

/-- The characters of a list. -/
def ofChars (cs : List Char) : CharSet := ofRanges (cs.map fun c => (c.toNat, c.toNat))

/-- Every character. -/
def full : CharSet := ⟨[(0, maxCode)]⟩

/-- Whether one of some sorted ranges covers a code point. -/
def covers (n : Nat) : List (Nat × Nat) → Bool
  | [] => false
  | (a, b) :: rest => if n < a then false else if n ≤ b then true else covers n rest

/-- Membership of a code point. -/
def containsCode (s : CharSet) (n : Nat) : Bool := covers n s.ranges

/-- Membership of a character. -/
def contains (s : CharSet) (c : Char) : Bool := s.containsCode c.toNat

/-- Members of either set. -/
def union (s t : CharSet) : CharSet := ofRanges (s.ranges ++ t.ranges)

/-- Members of any of the sets. -/
def unions (ss : List CharSet) : CharSet := ofRanges (ss.flatMap ranges)

/-- The gaps between sorted ranges, from `start` up. -/
def gaps (start : Nat) : List (Nat × Nat) → List (Nat × Nat)
  | [] => if start ≤ maxCode then [(start, maxCode)] else []
  | (a, b) :: rest => if start < a then (start, a - 1) :: gaps (b + 1) rest else gaps (b + 1) rest

/-- Everything outside a set. -/
def compl (s : CharSet) : CharSet := ⟨gaps 0 s.ranges⟩

/-- A set without the surrogates, which are code points of no character. -/
def scalars (s : CharSet) : CharSet :=
  if s.ranges.all fun r => r.2 < 0xd800 || 0xdfff < r.1 then s
  else
    ⟨s.ranges.flatMap fun r =>
      [(r.1, min r.2 0xd7ff), (max r.1 0xe000, r.2)].filter fun r => r.1 ≤ r.2⟩

/-- Members of both sets. -/
def inter (s t : CharSet) : CharSet := (s.compl.union t.compl).compl

/-- Members of the first set outside the second. -/
def diff (s t : CharSet) : CharSet := (s.compl.union t).compl

/-- Members of exactly one of the sets. -/
def symmDiff (s t : CharSet) : CharSet := (s.diff t).union (t.diff s)

/-- The value of a hexadecimal digit; other characters count as zero. -/
def hexDigit (c : Char) : Nat :=
  if c.isDigit then c.toNat - 48
  else if 'a' ≤ c && c ≤ 'f' then c.toNat - 87
  else if 'A' ≤ c && c ≤ 'F' then c.toNat - 55
  else 0

/-- The value of a run of hexadecimal digits. -/
def hexValue (digits : List Char) : Nat := digits.foldl (fun n c => n * 16 + hexDigit c) 0

/-- Reads `41-5a` or `b5`. -/
def readRange (text : String) : Nat × Nat :=
  match text.splitOn "-" with
  | [a, b] => (hexValue a.toList, hexValue b.toList)
  | _ => (hexValue text.toList, hexValue text.toList)

/-- Every `step`-th code point of a range. -/
def everyNth (first last step : Nat) : List (Nat × Nat) :=
  (List.range ((last - first) / step + 1)).map fun i => (first + i * step, first + i * step)

/-- Reads a range, or `100-12e/2` for every second code point of one. -/
def readRanges (text : String) : List (Nat × Nat) :=
  match text.splitOn "/" with
  | [range, step] =>
    let (first, last) := readRange range
    everyNth first last (hexValue step.toList)
  | _ => [readRange text]

/-- The entries of a table: what stands between blanks and line ends. -/
def entries (table : String) : List String :=
  ((table.splitOn "\n").flatMap (·.splitOn " ")).filter fun entry => !entry.isEmpty

/-- Reads a table of ranges. -/
def read (table : String) : CharSet := ofRanges ((entries table).flatMap readRanges)

end CharSet

end ScriptMachine.Text
