import ScriptMachine.Text.CharSet

/-!
# Node — the trees of patterns

A pattern is a tree over texts, character sets and positions. Trees are kept in a normal form by
`Node.ofSet`, `Node.sequence`, `Node.choice` and `Node.repeated`: texts next to one another are one
text, alternatives of single characters are one set, what alternatives have in common stands before
them, and a part that takes no characters is not repeated. None of this changes what matches.
-/

namespace ScriptMachine.Pattern

open ScriptMachine.Text

/-- A condition on a position between two characters. Word conditions carry the set of word
characters they go by. -/
inductive Look where
  | textStart
  | textEnd
  | lineStart
  | lineEnd
  /-- Line start where a line ends in a return, a newline or both. -/
  | breakStart
  /-- Line end where a line ends in a return, a newline or both. -/
  | breakEnd
  | wordBoundary (word : CharSet)
  | noWordBoundary (word : CharSet)
  | wordStart (word : CharSet)
  | wordEnd (word : CharSet)
  /-- No word character before. -/
  | wordStartHalf (word : CharSet)
  /-- No word character after. -/
  | wordEndHalf (word : CharSet)
  deriving DecidableEq, Repr

/-- Whether a condition holds between the character before and the character after. -/
def Look.holds (look : Look) (before after : Option Char) : Bool :=
  match look with
  | .textStart => before.isNone
  | .textEnd => after.isNone
  | .lineStart => before.isNone || before == some '\n'
  | .lineEnd => after.isNone || after == some '\n'
  | .breakStart =>
    before.isNone || before == some '\n' || (before == some '\r' && after != some '\n')
  | .breakEnd =>
    after.isNone || after == some '\r' || (after == some '\n' && before != some '\r')
  | .wordBoundary word => before.any word.contains != after.any word.contains
  | .noWordBoundary word => before.any word.contains == after.any word.contains
  | .wordStart word => !before.any word.contains && after.any word.contains
  | .wordEnd word => before.any word.contains && !after.any word.contains
  | .wordStartHalf word => !before.any word.contains
  | .wordEndHalf word => !after.any word.contains

/-- A pattern. Of two alternatives the first is preferred; a greedy repetition prefers one more
round, a lazy one prefers to stop. -/
inductive Node where
  | empty
  | text (cs : List Char)
  | set (s : CharSet)
  | look (l : Look)
  /-- A group that is counted, by its number. -/
  | group (index : Nat) (a : Node)
  | cat (a b : Node)
  | alt (a b : Node)
  | rep (a : Node) (min : Nat) (max : Option Nat) (greedy : Bool)
  deriving DecidableEq, Repr

namespace Node

/-! ### Lengths -/

/-- Whether a node takes no characters, however it matches. -/
def isWidthless : Node → Bool
  | .empty => true
  | .text cs => cs.isEmpty
  | .set _ => false
  | .look _ => true
  | .group _ a => a.isWidthless
  | .cat a b => a.isWidthless && b.isWidthless
  | .alt a b => a.isWidthless && b.isWidthless
  | .rep a _ max _ => max.isSome && a.isWidthless

/-- The least number of characters that a node takes, unless an empty set keeps it from matching. -/
def minLength? : Node → Option Nat
  | .empty => some 0
  | .text cs => some cs.length
  | .set s => if s.ranges.isEmpty then none else some 1
  | .look _ => some 0
  | .group _ a => a.minLength?
  | .cat a b => do return (← a.minLength?) + (← b.minLength?)
  | .alt a b => do return min (← a.minLength?) (← b.minLength?)
  | .rep a min _ _ => a.minLength?.map (· * min)

/-- Whether a node takes a character whenever it matches. -/
def takesSome (a : Node) : Bool := a.minLength?.any (0 < ·)

/-- Whether a match begins at the start of the text only. -/
def isAnchoredStart : Node → Bool
  | .look l => l = .textStart
  | .group _ a => a.isAnchoredStart
  | .cat a b => a.isAnchoredStart || (a.isWidthless && b.isAnchoredStart)
  | .alt a b => a.isAnchoredStart && b.isAnchoredStart
  | .rep a min _ _ => 0 < min && a.isAnchoredStart
  | _ => false

/-- Whether a match ends at the end of the text only. -/
def isAnchoredEnd : Node → Bool
  | .look l => l = .textEnd
  | .group _ a => a.isAnchoredEnd
  | .cat a b => b.isAnchoredEnd || (b.isWidthless && a.isAnchoredEnd)
  | .alt a b => a.isAnchoredEnd && b.isAnchoredEnd
  | .rep a min _ _ => 0 < min && a.isAnchoredEnd
  | _ => false

/-! ### Sets and sequences -/

/-- A set, or the text of its only member. -/
def ofSet (s : CharSet) : Node :=
  match s.scalars with
  | ⟨[(a, b)]⟩ => if a = b then .text [Char.ofNat a] else .set ⟨[(a, b)]⟩
  | s => .set s

/-- The parts of a sequence. -/
def parts : Node → List Node
  | .empty => []
  | .cat a b => a :: b.parts
  | a => [a]

/-- Joins texts that stand next to one another. -/
def joinTexts : List Node → List Node
  | .text cs :: rest =>
    match joinTexts rest with
    | .text ds :: rest => .text (cs ++ ds) :: rest
    | rest => .text cs :: rest
  | a :: rest => a :: joinTexts rest
  | [] => []

/-- Parts one after another. -/
def ofParts : List Node → Node
  | [] => .empty
  | [a] => a
  | a :: as => .cat a (ofParts as)

/-- Nodes one after another. -/
def sequence (ns : List Node) : Node := ofParts (joinTexts (ns.flatMap parts))

/-! ### Alternatives -/

/-- The alternatives of a choice. -/
def alternatives : Node → List Node
  | .alt a b => a :: b.alternatives
  | a => [a]

/-- Alternatives in order of preference. -/
def ofAlternatives : List Node → Node
  | [] => .set .empty
  | [a] => a
  | a :: as => .alt a (ofAlternatives as)

/-- The characters of alternatives that are single characters. -/
def singleChars? : List Node → Option (List Char)
  | [] => some []
  | .text [c] :: rest => (singleChars? rest).map (c :: ·)
  | _ => none

/-- The sets of alternatives that are sets. -/
def sets? : List Node → Option (List CharSet)
  | [] => some []
  | .set s :: rest => (sets? rest).map (s :: ·)
  | _ => none

/-- Alternatives as one set, where all are single characters or all are sets. -/
def merged (as : List Node) : Node :=
  match as with
  | [] | [_] => ofAlternatives as
  | as =>
    match singleChars? as, sets? as with
    | some cs, _ => ofSet (CharSet.ofChars cs)
    | _, some ss => ofSet (CharSet.unions ss)
    | _, _ => ofAlternatives as

/-- The parts that two lists begin with in common. -/
def commonStart : List Node → List Node → List Node
  | a :: as, b :: bs => if a = b then a :: commonStart as bs else []
  | _, _ => []

/-- The parts of a node that is a sequence of several. -/
def severalParts : Node → List Node
  | .cat a b => (Node.cat a b).parts
  | _ => []

/-- The parts that all alternatives begin with. -/
def sharedStart : List Node → List Node
  | [] | [_] => []
  | a :: as => as.foldl (fun start b => commonStart start b.severalParts) a.severalParts

/-- Alternatives in order of preference. What all begin with stands before them. -/
def choice (ns : List Node) : Node :=
  let as := ns.flatMap alternatives
  match merged as with
  | .alt a b =>
    let start := sharedStart as
    if start.isEmpty then .alt a b
    else
      let rests := as.map fun a => sequence (a.parts.drop start.length)
      sequence (start ++ [merged (rests.flatMap alternatives)])
  | a => a

/-! ### Repetitions -/

/-- A node repeated. What takes no characters is repeated once at most. -/
def repeated (a : Node) (min : Nat) (max : Option Nat) (greedy : Bool) : Node :=
  let (min, max) :=
    if a.isWidthless then (Nat.min min 1, some (Nat.min (max.getD 1) 1)) else (min, max)
  if max = some 0 then .empty
  else if min = 1 && max = some 1 then a
  else .rep a min max greedy

end Node

end ScriptMachine.Pattern
