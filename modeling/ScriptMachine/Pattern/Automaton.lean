import ScriptMachine.Pattern.Node

/-!
# Automaton — matching by states and positions

A tree is laid out as states with known successors. A search walks states and positions depth first,
the preferred alternative first, and visits no pair twice: what a pair could lead to does not depend
on how it was reached, so a second visit finds nothing new. The first accepting state reached gives
the preferred match.
-/

namespace ScriptMachine.Pattern

open ScriptMachine.Text

/-- What a state does. -/
inductive Op where
  | take (s : CharSet) (next : Nat)
  | check (l : Look) (next : Nat)
  | fork (first second : Nat)
  | accept

/-- States laid out so far. -/
abbrev Ops := Array Op

/-- Lays out something in front of a state and says where it starts. -/
abbrev Layer := Nat → Ops → Nat × Ops

/-- A fork between one more round and going on. -/
def Op.round (greedy : Bool) (body exit : Nat) : Op :=
  if greedy then .fork body exit else .fork exit body

namespace Layer

/-- A number of copies, one after another, the last one first. -/
def copies (body : Layer) : Nat → Layer
  | 0, next, ops => (next, ops)
  | n + 1, next, ops =>
    let (start, ops) := body next ops
    copies body n start ops

/-- Up to a number of copies in front of `next`, the last one first. Every copy may be left for
`exit`. -/
def upTo (body : Layer) (greedy : Bool) (exit : Nat) : Nat → Layer
  | 0, next, ops => (next, ops)
  | n + 1, next, ops =>
    let (start, ops) := body next ops
    upTo body greedy exit n ops.size (ops.push (Op.round greedy start exit))

/-- The characters of a text. -/
def chars : List Char → Layer
  | [], next, ops => (next, ops)
  | c :: cs, next, ops =>
    let (rest, ops) := chars cs next ops
    (ops.size, ops.push (.take (CharSet.singleton c) rest))

/-- One round or more: after each round a fork goes back or on. Gives the start of the round and the
fork. -/
def loop (body : Layer) (greedy : Bool) (exit : Nat) (ops : Ops) : (Nat × Nat) × Ops :=
  let fork := ops.size
  let (start, ops) := body fork (ops.push .accept)
  ((start, fork), ops.setIfInBounds fork (Op.round greedy start exit))

end Layer

/-- Lays out a node. Rounds that may be empty are entered by a fork of their own, so that the order
of preference stays right. -/
def Node.lay : Node → Layer
  | .empty, next, ops => (next, ops)
  | .text cs, next, ops => Layer.chars cs next ops
  | .set s, next, ops => (ops.size, ops.push (.take s next))
  | .look l, next, ops => (ops.size, ops.push (.check l next))
  | .group _ a, next, ops => a.lay next ops
  | .cat a b, next, ops =>
    let (mid, ops) := b.lay next ops
    a.lay mid ops
  | .alt a b, next, ops =>
    let (first, ops) := a.lay next ops
    let (second, ops) := b.lay next ops
    (ops.size, ops.push (.fork first second))
  | .rep a min (some max) greedy, next, ops =>
    let (rest, ops) := Layer.upTo a.lay greedy next (max - min) next ops
    Layer.copies a.lay min rest ops
  | .rep a 0 none greedy, next, ops =>
    let ((start, fork), ops) := Layer.loop a.lay greedy next ops
    if a.takesSome then (fork, ops) else (ops.size, ops.push (Op.round greedy start next))
  | .rep a (min + 1) none greedy, next, ops =>
    let ((start, _), ops) := Layer.loop a.lay greedy next ops
    Layer.copies a.lay min start ops

/-- The states of a pattern and the first of them. -/
structure Automaton where
  ops : Ops
  start : Nat

/-- The automaton of a node. -/
def Node.automaton (n : Node) : Automaton :=
  let (start, ops) := n.lay 0 #[.accept]
  ⟨ops, start⟩

namespace Automaton

/-- Number of pairs of a state and a position. -/
def slots (a : Automaton) (text : Array Char) : Nat := a.ops.size * (text.size + 1)

/-- Walks the pending pairs of a state and a position in the search of a given number, and gives the
position of the first accepting state. Pairs are marked with the last search that saw them, and each
one that this search has not seen adds at most two more. -/
def explore (a : Automaton) (text : Array Char) (search : Nat) :
    Nat → List (Nat × Nat) → Array Nat → Option Nat × Array Nat
  | 0, _, seen => (none, seen)
  | _ + 1, [], seen => (none, seen)
  | fuel + 1, (state, pos) :: pending, seen =>
    let slot := pos * a.ops.size + state
    if seen.getD slot search = search then explore a text search fuel pending seen
    else
      let seen := seen.setIfInBounds slot search
      match a.ops[state]? with
      | some .accept => (some pos, seen)
      | some (.take s next) =>
        if text[pos]?.any s.contains then
          explore a text search fuel ((next, pos + 1) :: pending) seen
        else explore a text search fuel pending seen
      | some (.check l next) =>
        let before := if pos = 0 then none else text[pos - 1]?
        if l.holds before text[pos]? then explore a text search fuel ((next, pos) :: pending) seen
        else explore a text search fuel pending seen
      | some (.fork first second) =>
        explore a text search fuel ((first, pos) :: (second, pos) :: pending) seen
      | none => explore a text search fuel pending seen

/-- Tries `count` starting positions from `start` on. Pairs that led nowhere from one start lead
nowhere from a later one. -/
def findFrom (a : Automaton) (text : Array Char) (search : Nat) :
    (count start : Nat) → Array Nat → Option (Nat × Nat) × Array Nat
  | 0, _, seen => (none, seen)
  | count + 1, start, seen =>
    match a.explore text search (2 * a.slots text + 2) [(a.start, start)] seen with
    | (some stop, seen) => (some (start, stop), seen)
    | (none, seen) => findFrom a text search count (start + 1) seen

/-- No pair seen. -/
def unseen (a : Automaton) (text : Array Char) : Array Nat := Array.replicate (a.slots text) 0

/-- The leftmost match at or after a position, and among those the preferred one. -/
def find (a : Automaton) (text : Array Char) (start : Nat) : Option (Nat × Nat) :=
  (a.findFrom text 1 (text.size + 1 - start) start (a.unseen text)).1

/-- The matches from a position on, none overlapping another and no empty one right after the one
before. Searches are numbered, so that one array serves them all. -/
def matchesFrom (a : Automaton) (text : Array Char) :
    Nat → (search start : Nat) → (last : Option Nat) → Array Nat → List (Nat × Nat)
  | 0, _, _, _, _ => []
  | fuel + 1, search, start, last, seen =>
    match a.findFrom text search (text.size + 1 - start) start seen with
    | (none, _) => []
    | (some (i, j), seen) =>
      if i = j ∧ last = some j then
        match a.findFrom text (search + 1) (text.size - start) (start + 1) seen with
        | (none, _) => []
        | (some (i, j), seen) => (i, j) :: matchesFrom a text fuel (search + 2) j (some j) seen
      else (i, j) :: matchesFrom a text fuel (search + 1) j (some j) seen

/-- All matches of a text. -/
def allMatches (a : Automaton) (text : Array Char) : List (Nat × Nat) :=
  a.matchesFrom text (text.size + 2) 1 0 none (a.unseen text)

end Automaton

end ScriptMachine.Pattern
