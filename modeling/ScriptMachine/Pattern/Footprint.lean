import Std.Data.HashMap
import ScriptMachine.Pattern.Node
import ScriptMachine.Text.Utf8

/-!
# Footprint — how much room the automata of a pattern take

A pattern stands for two automata over UTF-8 bytes, one that reads forward and one that reads
backward. Only their size matters here, so their states are counted and not built. A state takes
`stateBytes`; one that chooses among ranges of bytes takes `moveBytes` more for each, and a fork
takes `linkBytes` more for each state that it leads to.

A set that is not ASCII takes a tree of states. Reading forward, states of the tree that lead to the
same states by the same bytes are shared; reading backward, those that are reached from the same
state by the same bytes are. Shared states are looked up in a table with a fixed number of slots,
where a newer state takes the slot of an older one.
-/

namespace ScriptMachine.Pattern

open ScriptMachine.Text ScriptMachine.Text.Utf8

namespace Footprint

/-- Bytes of a state. -/
def stateBytes : Nat := 32

/-- Bytes of a move from one state to another. -/
def moveBytes : Nat := 8

/-- Bytes of one way out of a fork. -/
def linkBytes : Nat := 4

/-- What has been counted: the states, and the bytes of their moves and links. -/
structure Tally where
  states : Nat := 0
  more : Nat := 0
  deriving DecidableEq, Repr

/-- Bytes altogether. -/
def Tally.bytes (t : Tally) : Nat := t.states * stateBytes + t.more

/-- Counts something, unless the limit would be passed. -/
abbrev Gauge := Nat → Tally → Option Tally

namespace Gauge

/-- Counts some states and some more bytes. -/
def count (states more : Nat) : Gauge := fun limit t =>
  let t : Tally := ⟨t.states + states, t.more + more⟩
  if limit < t.bytes then none else some t

/-- Counts some links out of forks. -/
def links (n : Nat) : Gauge := count 0 (n * linkBytes)

/-- Counts one thing after another. -/
def andThen (first second : Gauge) : Gauge := fun limit t =>
  match first limit t with
  | some t => second limit t
  | none => none

/-- Counts several things. -/
def all : List Gauge → Gauge
  | [] => fun _ t => some t
  | m :: ms => m.andThen (all ms)

/-- Counts a thing some number of times. -/
def times (body : Gauge) : Nat → Gauge
  | 0, _, t => some t
  | n + 1, limit, t =>
    match body limit t with
    | some t => times body n limit t
    | none => none

end Gauge

open Gauge

/-! ### Sets of characters -/

/-- A step of a hash that takes in one number. -/
def mix (h : UInt64) (n : Nat) : UInt64 := (h ^^^ UInt64.ofNat n) * 1099511628211

/-- The hash of some numbers. -/
def hashOf (ns : List Nat) : UInt64 := ns.foldl mix 14695981039346656037

/-- States that may be shared, by slot, each with the numbers that tell it apart. -/
abbrev Slots := Std.HashMap UInt64 (List Nat × Nat)

/-- What a step towards a set gives: a state, the slots and the count. -/
abbrev Shared := Option (Nat × Slots × Tally)

/-- The state for some numbers, from a table of a given size: the one in their slot, or a new one of
so many more bytes, which takes the slot. -/
def share (size : UInt64) (more : Nat) (key : List Nat) (limit : Nat) (slots : Slots) (t : Tally) :
    Shared :=
  let slot := hashOf key % size
  let fresh : Unit → Shared := fun _ =>
    (count 1 more limit t).map fun counted =>
      (t.states, slots.insert slot (key, t.states), counted)
  match slots[slot]? with
  | some (found, id) => if found = key then some (id, slots, t) else fresh ()
  | none => fresh ()

/-- Slots for states of the automaton that reads forward. -/
def forwardSlots : UInt64 := 10000

/-- Slots for states of the automaton that reads backward. -/
def backwardSlots : UInt64 := 1000

/-- Counts the moves of a state, given its sequences by their first range and the way to count what
follows. The numbers of the moves, in reverse, are the key of the state. -/
def forwardMoves (follow : List (List ByteRange) → Slots → Tally → Shared) (limit : Nat) :
    List (List (List ByteRange)) → List Nat → Slots → Tally → Shared
  | [], key, slots, t => share forwardSlots (key.length / 3 * moveBytes) key.reverse limit slots t
  | group :: groups, key, slots, t =>
    match follow (group.map List.tail) slots t with
    | some (next, slots, t) =>
      let (a, b) := (group.headD []).headD (0, 0)
      forwardMoves follow limit groups (next :: b :: a :: key) slots t
    | none => none

/-- Counts the states that read some sequences of at most `depth` ranges forward to a target, and
gives the first of them. -/
def forwardTree (target limit : Nat) :
    (depth : Nat) → List (List ByteRange) → Slots → Tally → Shared
  | 0, _, slots, t => some (target, slots, t)
  | _ + 1, [] :: _, slots, t => some (target, slots, t)
  | depth + 1, seqs, slots, t =>
    forwardMoves (forwardTree target limit depth) limit
      (seqs.splitBy fun a b => a.head? == b.head?) [] slots t

/-- Counts the states that read a sequence backward, up to the state behind it. -/
def backwardChain (limit : Nat) : List ByteRange → (behind : Nat) → Slots → Tally → Shared
  | [], behind, slots, t => some (behind, slots, t)
  | (a, b) :: rest, behind, slots, t =>
    match share backwardSlots 0 [behind, a, b] limit slots t with
    | some (state, slots, t) => backwardChain limit rest state slots t
    | none => none

/-- Counts the states that read some sequences backward, each with a link from a fork. -/
def backwardChains (behind limit : Nat) : List (List ByteRange) → Slots → Tally → Option Tally
  | [], _, t => some t
  | seq :: seqs, slots, t =>
    match backwardChain limit seq behind slots t with
    | some (_, slots, t) =>
      match links 1 limit t with
      | some t => backwardChains behind limit seqs slots t
      | none => none
    | none => none

/-- Which way an automaton reads. -/
inductive Direction where
  | forward
  | backward
  deriving DecidableEq, Repr

/-- Counts what reads one of some sequences. -/
def sequencesRoom (d : Direction) (seqs : List (List ByteRange)) : Gauge := fun limit t =>
  match d with
  | .forward => (count 1 0 limit t).bind fun counted =>
    (forwardTree t.states limit 4 seqs {} counted).map fun (_, _, t) => t
  | .backward => (count 2 0 limit t).bind fun counted =>
    backwardChains (t.states + 1) limit seqs {} counted

/-- Counts what reads a character of a set. -/
def setRoom (d : Direction) (s : CharSet) : Gauge :=
  if s.ranges.all fun (_, b) => b < 0x80 then count 2 (s.ranges.length * moveBytes)
  else sequencesRoom d (s.ranges.flatMap fun (a, b) => sequences a b)

/-! ### Texts -/

/-- The bytes of a text in the order in which they are read. -/
def bytesOf (d : Direction) (cs : List Char) : List Nat :=
  let bytes := cs.flatMap fun c => encode c.toNat
  match d with
  | .forward => bytes
  | .backward => bytes.reverse

/-- Texts between those that end here. -/
def chunks : List (List Nat) → List (List (List Nat))
  | [] => [[]]
  | [] :: rest => [] :: chunks rest
  | word :: rest =>
    match chunks rest with
    | chunk :: others => (word :: chunk) :: others
    | [] => [[word]]

/-- Several texts that end here are one before a longer text has been met. -/
def dropRepeatedEnds : List (List Nat) → List (List Nat)
  | [] :: [] :: rest => dropRepeatedEnds ([] :: rest)
  | words => words

/-- The rests of the texts that begin with a byte. -/
def restsAfter (b : Nat) (words : List (List Nat)) : List (List Nat) :=
  words.filterMap fun word =>
    match word with
    | [] => none
    | c :: rest => if c = b then some rest else none

/-- Counts the tree that reads one of some texts of at most `depth` bytes. Texts share the states of
what they begin with; where one ends, those after it in the order of preference start anew. -/
def trieRoom : (depth : Nat) → List (List Nat) → Gauge
  | 0, _ => all []
  | depth + 1, words =>
    if words.all List.isEmpty then all []
    else
      let chunks := chunks (dropRepeatedEnds words)
      let firsts := chunks.map fun chunk => (chunk.filterMap List.head?).eraseDups
      let below := (chunks.zip firsts).map fun (chunk, bytes) =>
        all (bytes.map fun b => trieRoom depth (restsAfter b chunk))
      let here := firsts.map fun bytes =>
        match bytes with
        | [] => all []
        | [_] => count 1 linkBytes
        | bytes => count 1 (bytes.length * moveBytes + linkBytes)
      all [all below, all here, count 1 ((chunks.length - 1) * linkBytes)]

/-- Counts what reads one of some texts. -/
def textsRoom (d : Direction) (texts : List (List Char)) : Gauge :=
  let words := texts.map (bytesOf d)
  (count 1 0).andThen (trieRoom (words.foldl (fun n w => Nat.max n w.length) 0) words)

/-! ### Nodes -/

/-- A part of an automaton. -/
structure Part where
  room : Gauge
  /-- Whether it ends in a fork, which takes one more link to lead on. -/
  endsInFork : Bool := false

namespace Part

/-- Counts a part and what leads on from it. -/
def linked (p : Part) : Gauge := if p.endsInFork then p.room.andThen (links 1) else p.room

/-- Counts a part as a way out of a fork. -/
def chosen (p : Part) : Gauge := (links 1).andThen p.linked

/-- A state by itself. -/
def single : Part := { room := count 1 0 }

/-- One part and then another. -/
def andThen (a b : Part) : Part := ⟨a.linked.andThen b.room, b.endsInFork⟩

/-- Copies of a part, one after another. -/
def copies (p : Part) : Nat → Part
  | 0 => single
  | n + 1 => ⟨(times p.linked n).andThen p.room, p.endsInFork⟩

/-- A fork between parts. -/
def oneOf : List Part → Part
  | [] => { room := count 2 0 }
  | [p] => p
  | a :: b :: rest => { room := all [a.chosen, b.chosen, count 2 0, all (rest.map chosen)] }

/-- A part or nothing. -/
def optional (p : Part) : Part :=
  { room := all [count 1 0, p.chosen, count 1 0, links 1] }

/-- A part any number of times. One that always takes a character needs a single fork. -/
def anyNumber (p : Part) (takesSome : Bool) : Part :=
  if takesSome then ⟨(count 1 0).andThen p.chosen, true⟩
  else { room := all [p.chosen, count 3 0, links 3] }

/-- A part some number of times or more. -/
def atLeast (p : Part) (takesSome : Bool) : Nat → Part
  | 0 => p.anyNumber takesSome
  | n + 1 => ⟨all [times p.linked n, p.chosen, count 1 0], true⟩

/-- A part between two numbers of times. -/
def between (p : Part) (min max : Nat) : Part :=
  if min = max then p.copies min
  else if min = 0 && max = 1 then p.optional
  else
    let round := all [count 1 0, p.linked, links 2]
    { room := all [(p.copies min).linked, count 1 0, times round (max - min)] }

end Part

/-- The texts of a choice among several texts. -/
def texts? (n : Node) : Option (List (List Char)) :=
  match n.alternatives with
  | [] | [_] => none
  | as => as.mapM fun a =>
    match a with
    | .text cs => some cs
    | _ => none

/-- The part of a node, given the parts of its alternatives. -/
def choose (d : Direction) (n : Node) (ways : List Part) : Part :=
  match texts? n with
  | some texts => { room := textsRoom d texts }
  | none => .oneOf ways

/-- The parts of the alternatives of a node. -/
def ways (d : Direction) : Node → List Part
  | .empty => [.single]
  | .text cs => [{ room := count (bytesOf d cs).length 0 }]
  | .set s => [{ room := setRoom d s }]
  | .look _ => [.single]
  | .group _ a =>
    let inner := choose d a (ways d a)
    match d with
    | .forward => [(Part.single.andThen inner).andThen .single]
    | .backward => [inner]
  | .cat a b =>
    let first := choose d a (ways d a)
    let second := choose d b (ways d b)
    match d with
    | .forward => [first.andThen second]
    | .backward => [second.andThen first]
  | .alt a b => ways d a ++ ways d b
  | .rep a min (some max) _ => [(choose d a (ways d a)).between min max]
  | .rep a min none _ => [(choose d a (ways d a)).atLeast a.takesSome min]

/-- What skips to the start of a match, unless a match can only start at one place. -/
def lead (anchored : Bool) : Gauge :=
  if anchored then count 1 0 else all [count 3 moveBytes, links 2]

/-- Counts the automaton of a pattern that reads in a direction. -/
def room (d : Direction) (n : Node) : Gauge :=
  let whole := choose d n (ways d n)
  match d with
  | .forward =>
    all [lead n.isAnchoredStart, count 1 0, whole.linked, count 2 0]
  | .backward => all [lead n.isAnchoredEnd, whole.linked, count 1 0]

/-- Whether both automata of a pattern take no more bytes than a limit. -/
def fits (limit : Nat) (n : Node) : Bool :=
  (room .forward n limit {}).isSome && (room .backward n limit {}).isSome

end Footprint

end ScriptMachine.Pattern
