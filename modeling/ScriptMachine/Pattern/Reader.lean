import ScriptMachine.Pattern.Node
import ScriptMachine.Pattern.Class
import ScriptMachine.Pattern.Flaw
import ScriptMachine.Text.Search

/-!
# Reader — from the text of a pattern to its tree

One pass over the characters with a stack of open groups. Flags take effect where they are read and
hold to the end of their group, so the tree already carries them: a set of a case-insensitive part
holds both cases, and `.` and the line anchors are resolved. How deep a pattern nests is counted as
it is written, since the tree no longer shows it.

Every step of `readItems` and of `readClassItems` takes at least one character, so the length of the
text bounds their number.
-/

namespace ScriptMachine.Pattern

open ScriptMachine.Text

/-- What the flags of a part say. -/
structure Flags where
  ignoreCase : Bool := false
  multiLine : Bool := false
  dotAll : Bool := false
  swapGreed : Bool := false
  unicode : Bool := true
  lineBreaks : Bool := false
  verbose : Bool := false
  deriving DecidableEq, Repr

namespace Flags

/-- Sets the flag of a letter. -/
def set (f : Flags) : Char × Bool → Flags
  | ('i', on) => { f with ignoreCase := on }
  | ('m', on) => { f with multiLine := on }
  | ('s', on) => { f with dotAll := on }
  | ('U', on) => { f with swapGreed := on }
  | ('u', on) => { f with unicode := on }
  | ('R', on) => { f with lineBreaks := on }
  | ('x', on) => { f with verbose := on }
  | _ => f

/-- Word characters under the flags. -/
def word (f : Flags) : CharSet := Shorthand.word.set f.unicode

/-- A set with both cases where case is ignored. -/
def fold (f : Flags) (s : CharSet) : CharSet :=
  if !f.ignoreCase then s else if f.unicode then s.foldCase else s.foldAsciiCase

end Flags

/-- A result and the characters that are left. -/
abbrev Taken (α : Type) := α × List Char

/-- Drops blanks, and comments up to the end of their line. -/
def dropBlanks (comment : Bool) : List Char → List Char
  | [] => []
  | c :: cs =>
    if comment then dropBlanks (c != '\n') cs
    else if Property.whiteSpace.contains c then dropBlanks false cs
    else if c = '#' then dropBlanks true cs
    else c :: cs

theorem length_dropBlanks_le (comment : Bool) (cs : List Char) :
    (dropBlanks comment cs).length ≤ cs.length := by
  induction cs generalizing comment with
  | nil => simp [dropBlanks]
  | cons c cs ih =>
    rw [dropBlanks]
    split
    · exact Nat.le_succ_of_le (ih _)
    · split
      · exact Nat.le_succ_of_le (ih _)
      · split
        · exact Nat.le_succ_of_le (ih _)
        · exact Nat.le_refl _

/-- Drops blanks and comments in a verbose part. -/
def skip (f : Flags) (cs : List Char) : List Char := if f.verbose then dropBlanks false cs else cs

theorem length_skip_le (f : Flags) (cs : List Char) : (skip f cs).length ≤ cs.length := by
  rw [skip]
  split
  · exact length_dropBlanks_le false cs
  · exact Nat.le_refl _

/-- Characters with a meaning of their own. -/
def isMeta (c : Char) : Bool := c ∈ "\\.+*?()|[]\x7b\x7d^$#&-~".toList

/-- Whether a backslash before the character makes it stand for itself. -/
def isEscapable (c : Char) : Bool :=
  isMeta c || (c.toNat < 0x80 && !c.isAlphanum && c != '<' && c != '>')

/-- What a backslash introduces. -/
inductive Escape where
  | literal (c : Char)
  | set (s : CharSet)
  | look (l : Look)

/-- A hexadecimal digit. -/
def isHex (c : Char) : Bool := c.isDigit || ('a' ≤ c && c ≤ 'f') || ('A' ≤ c && c ≤ 'F')

/-- The character of a code point. -/
def scalar? (n : Nat) : Except Flaw Char :=
  if n < 0xd800 || (0xdfff < n && n ≤ CharSet.maxCode) then .ok (Char.ofNat n)
  else .error .escapeDigits

/-- Takes hexadecimal digits, `count` of them. -/
def takeHex (f : Flags) : Nat → List Char → List Char → Except Flaw (Taken (List Char))
  | 0, digits, cs => .ok (digits.reverse, cs)
  | n + 1, digits, c :: cs =>
    if isHex c then takeHex f n (c :: digits) (skip f cs) else .error .escapeDigits
  | _ + 1, _, [] => .error .escape

/-- Takes characters up to a closing brace. -/
def takeBraced (f : Flags) (verbatim : List Char) : List Char → Except Flaw (Taken (List Char))
  | [] => .error .escape
  | c :: cs =>
    if c = '\x7d' then .ok (verbatim.reverse, cs)
    else takeBraced f (c :: verbatim) (skip f cs)
termination_by cs => cs.length
decreasing_by exact Nat.lt_succ_of_le (length_skip_le f cs)

/-- Reads the digits of `\x`, `\u` or `\U`. Outside of Unicode a byte has to be ASCII. -/
def readHex (f : Flags) (letter : Char) (cs : List Char) : Except Flaw (Taken Char) :=
  match skip f cs with
  | '\x7b' :: rest => do
    let (digits, rest) ← takeBraced f [] (skip f rest)
    if digits.isEmpty || !digits.all isHex then .error .escapeDigits
    else return (← scalar? (CharSet.hexValue digits), skip f rest)
  | cs => do
    let count := if letter = 'x' then 2 else if letter = 'u' then 4 else 8
    let (digits, rest) ← takeHex f count [] cs
    let n := CharSet.hexValue digits
    if letter = 'x' && !f.unicode && 0x80 ≤ n then .error .notText
    else return (← scalar? n, rest)

/-- Cuts a list at the first occurrence of a mark. -/
def cutAt (mark : List Char) (cs : List Char) : Option (String × String) :=
  (Text.find? mark cs).map fun i =>
    (String.ofList (cs.take i), String.ofList (cs.drop (i + mark.length)))

/-- The set that a braced property text names, and whether everything else is meant. -/
def bracedProperty? (text : List Char) : Option (CharSet × Bool) :=
  match cutAt ['!', '='] text with
  | some (name, value) => (propertyValue? name value).map (·, true)
  | none =>
    let found := match cutAt [':'] text <|> cutAt ['='] text with
      | some (name, value) => propertyValue? name value
      | none => property? (String.ofList text)
    found.map (·, false)

/-- Reads the property after `\p` or `\P`. -/
def readProperty (f : Flags) (negated : Bool) (cs : List Char) : Except Flaw (Taken CharSet) := do
  let (found, rest) ← match skip f cs with
    | [] => .error .escape
    | '\x7b' :: rest => do
      let (text, rest) ← takeBraced f [] (skip f rest)
      pure (bracedProperty? text, rest)
    | '\\' :: _ => .error .property
    | c :: rest => pure ((property? c.toString).map (·, false), rest)
  match found with
  | some (s, inverse) =>
    if !f.unicode then .error .property
    else
      let s := f.fold s
      .ok (if negated != inverse then s.compl else s, rest)
  | none => .error .property

/-- A class of bytes stands for characters only within ASCII. -/
def checkText (f : Flags) (s : CharSet) : Except Flaw CharSet :=
  if f.unicode || s.ranges.all (·.2 < 0x80) then .ok s else .error .notText

/-- A letter class, or its complement. -/
def shorthand (f : Flags) (kind : Shorthand) (negated : Bool) : Except Flaw CharSet :=
  let s := kind.set f.unicode
  checkText f (if negated then s.compl else s)

/-- Whether a character may stand in the name of a word boundary. -/
def isBoundaryChar (c : Char) : Bool := c.isAlpha || c == '-'

/-- Takes the name of a word boundary. -/
def takeBoundaryName (f : Flags) : List Char → Taken (List Char)
  | [] => ([], [])
  | c :: cs =>
    if isBoundaryChar c then
      let (name, rest) := takeBoundaryName f (skip f cs)
      (c :: name, rest)
    else ([], c :: cs)
termination_by cs => cs.length
decreasing_by exact Nat.lt_succ_of_le (length_skip_le f cs)

/-- The word boundary of a name. -/
def namedBoundary (f : Flags) (name : List Char) : Except Flaw Look :=
  match String.ofList name with
  | "start" => .ok (.wordStart f.word)
  | "end" => .ok (.wordEnd f.word)
  | "start-half" => .ok (.wordStartHalf f.word)
  | "end-half" => .ok (.wordEndHalf f.word)
  | _ => .error .wordBoundary

/-- Reads the braces after `\b`, if they name a word boundary. -/
def readWordBoundary (f : Flags) (cs : List Char) : Except Flaw (Taken Look) :=
  match cs with
  | '\x7b' :: rest =>
    match skip f rest with
    | [] => .error .wordBoundary
    | c :: more =>
      if !isBoundaryChar c then .ok (.wordBoundary f.word, cs)
      else
        match takeBoundaryName f (c :: more) with
        | (name, '\x7d' :: rest) => (namedBoundary f name).map (·, rest)
        | _ => .error .wordBoundary
  | _ => .ok (.wordBoundary f.word, cs)

/-- Reads what follows a backslash. -/
def readEscape (f : Flags) : List Char → Except Flaw (Taken Escape)
  | [] => .error .escape
  | c :: cs =>
    let asSet (r : Except Flaw CharSet) : Except Flaw (Taken Escape) := r.map fun s => (.set s, cs)
    if c.isDigit then .error .backReference
    else if c = 'x' || c = 'u' || c = 'U' then
      (readHex f c cs).map fun (h, rest) => (.literal h, rest)
    else if c = 'p' || c = 'P' then
      (readProperty f (c = 'P') cs).map fun (s, rest) => (.set s, rest)
    else if isEscapable c then .ok (.literal c, cs)
    else match c with
      | 'd' => asSet (shorthand f .digit false)
      | 'D' => asSet (shorthand f .digit true)
      | 's' => asSet (shorthand f .space false)
      | 'S' => asSet (shorthand f .space true)
      | 'w' => asSet (shorthand f .word false)
      | 'W' => asSet (shorthand f .word true)
      | 'a' => .ok (.literal '\x07', cs)
      | 'f' => .ok (.literal '\x0c', cs)
      | 't' => .ok (.literal '\t', cs)
      | 'n' => .ok (.literal '\n', cs)
      | 'r' => .ok (.literal '\r', cs)
      | 'v' => .ok (.literal '\x0b', cs)
      | 'A' => .ok (.look .textStart, cs)
      | 'z' => .ok (.look .textEnd, cs)
      | 'b' => (readWordBoundary f cs).map fun (l, rest) => (.look l, rest)
      | 'B' => .ok (.look (.noWordBoundary f.word), cs)
      | '<' => .ok (.look (.wordStart f.word), cs)
      | '>' => .ok (.look (.wordEnd f.word), cs)
      | _ => .error .escape

/-! ### Bracketed classes -/

/-- The operators between classes. -/
inductive SetOp where
  | inter
  | diff
  | symmDiff
  deriving DecidableEq, Repr

/-- Applies an operator; where case is ignored, to both cases of either side. -/
def SetOp.apply (f : Flags) (op : SetOp) (s t : CharSet) : CharSet :=
  match op with
  | .inter => (f.fold s).inter (f.fold t)
  | .diff => (f.fold s).diff (f.fold t)
  | .symmDiff => (f.fold s).symmDiff (f.fold t)

/-- Part of a class: what its items hold together, how many there are and how deep they nest. -/
structure ClassPart where
  set : CharSet := .empty
  items : Nat := 0
  depth : Nat := 0

namespace ClassPart

/-- A part with one more item. -/
def add (part : ClassPart) (s : CharSet) (depth : Nat) : ClassPart :=
  ⟨part.set.union s, part.items + 1, max part.depth depth⟩

/-- How deep a part nests. A single item adds no level. -/
def level (part : ClassPart) : Nat := if part.items < 2 then part.depth else part.depth + 1

end ClassPart

/-- What is left open around the class being read. -/
inductive ClassFrame where
  /-- A bracket, with what the class around it held so far. -/
  | bracket (outer : ClassPart) (negated : Bool)
  /-- An operator that waits for its right side. -/
  | operand (op : SetOp) (left : CharSet) (level : Nat)

/-- Closes an operator that waits for its right side. -/
def closeOperand (f : Flags) (right : ClassPart) :
    List ClassFrame → (CharSet × Nat) × List ClassFrame
  | .operand op left level :: frames =>
    ((op.apply f left right.set, max level right.level + 1), frames)
  | frames => ((right.set, right.level), frames)

/-- Reads the characters of a class that stand for themselves at its very beginning: hyphens, or a
closing bracket. -/
def readClassStart (f : Flags) (part : ClassPart) :
    List Char → Except Flaw (Taken ClassPart)
  | [] => .error .classUnclosed
  | c :: cs =>
    if c = '-' then readClassStart f (part.add (CharSet.singleton '-') 0) (skip f cs)
    else if c = ']' && part.items = 0 then
      match skip f cs with
      | [] => .error .classUnclosed
      | cs => .ok (part.add (CharSet.singleton ']') 0, cs)
    else .ok (part, c :: cs)
termination_by cs => cs.length
decreasing_by exact Nat.lt_succ_of_le (length_skip_le f cs)

/-- Reads the beginning of a class after its bracket: the negation and what `readClassStart`
reads. -/
def openClass (f : Flags) (cs : List Char) : Except Flaw (Taken (ClassPart × Bool)) :=
  match skip f cs with
  | [] => .error .classUnclosed
  | '^' :: rest => (readClassStart f {} (skip f rest)).map fun (s, cs) => ((s, true), cs)
  | cs => (readClassStart f {} cs).map fun (s, cs) => ((s, false), cs)

/-- The characters of a class as it is written: both cases where case is ignored, and all others
where it is negated. -/
def finishClass (f : Flags) (negated : Bool) (s : CharSet) : Except Flaw CharSet :=
  let s := f.fold s
  checkText f (if negated then s.compl else s)

/-- A POSIX class `[:name:]` after its bracket, if there is one: its set and whether it is
negated. -/
def posixClass? (cs : List Char) : Option (Taken (CharSet × Bool)) :=
  match cs with
  | ':' :: rest =>
    let (negated, rest) := match rest with
      | '^' :: rest => (true, rest)
      | rest => (false, rest)
    let name := String.ofList (rest.takeWhile (· != ':'))
    match rest.dropWhile (· != ':'), posix.lookup name with
    | ':' :: ']' :: rest, some s => some ((s, negated), rest)
    | _, _ => none
  | _ => none

/-- Reads one item of a class: a character or an escape. -/
def readClassItem (f : Flags) (cs : List Char) : Except Flaw (Taken Escape) := do
  let (item, rest) ← match cs with
    | [] => .error .classUnclosed
    | '\\' :: cs => readEscape f cs
    | c :: cs => .ok (.literal c, cs)
  match item with
  | .literal c => if f.unicode || c.toNat < 0x80 then .ok (item, rest) else .error .notText
  | item => .ok (item, rest)

/-- The character of an item that may end a range. -/
def Escape.literal? : Escape → Except Flaw Char
  | .literal c => .ok c
  | _ => .error .classRange

/-- The set of an item that stands alone. -/
def Escape.classSet : Escape → Except Flaw CharSet
  | .literal c => .ok (CharSet.singleton c)
  | .set s => .ok s
  | .look _ => .error .classEscape

/-- The character that decides whether a hyphen before it makes a range: blanks are passed over, and
so is the sign that begins a comment, but not the comment itself. -/
def afterHyphen? (f : Flags) (cs : List Char) : Option Char :=
  if !f.verbose then cs.head?
  else
    let isBlank := Property.whiteSpace.contains
    match cs.dropWhile isBlank with
    | '#' :: cs => (cs.dropWhile isBlank).head?
    | cs => cs.head?

/-- Reads an item or a range. -/
def readClassRange (f : Flags) (cs : List Char) : Except Flaw (Taken CharSet) := do
  let (first, cs) ← readClassItem f cs
  match skip f cs with
  | [] => .error .classUnclosed
  | '-' :: rest =>
    if afterHyphen? f rest = some ']' || afterHyphen? f rest = some '-' then
      .ok (← first.classSet, '-' :: rest)
    else
      let (last, rest) ← readClassItem f (skip f rest)
      let a ← first.literal?
      let b ← last.literal?
      if a ≤ b then .ok (CharSet.range a.toNat b.toNat, rest) else .error .classRange
  | cs => .ok (← first.classSet, cs)

/-- Reads the items of a class up to the bracket that closes the outermost one, and says how deep
the class nests. -/
def readClassItems (f : Flags) :
    Nat → ClassPart → List ClassFrame → List Char → Except Flaw (Taken (CharSet × Nat))
  | 0, _, _, _ => .error .classUnclosed
  | fuel + 1, part, frames, cs =>
    let operate (op : SetOp) (rest : List Char) : Except Flaw (Taken (CharSet × Nat)) :=
      let ((s, level), frames) := closeOperand f part frames
      readClassItems f fuel {} (.operand op s level :: frames) rest
    match skip f cs with
    | [] => .error .classUnclosed
    | '[' :: rest =>
      match posixClass? rest with
      | some ((s, negated), rest) => do
        readClassItems f fuel (part.add (← finishClass f negated s) 0) frames rest
      | none => do
        let ((inner, negated), rest) ← openClass f rest
        readClassItems f fuel inner (.bracket part negated :: frames) rest
    | ']' :: rest =>
      match closeOperand f part frames with
      | ((s, level), .bracket outer negated :: frames) => do
        let s ← finishClass f negated s
        if frames.isEmpty then .ok ((s, level + 1), rest)
        else readClassItems f fuel (outer.add s (level + 1)) frames rest
      | _ => .error .classUnclosed
    | '&' :: '&' :: rest => operate .inter rest
    | '-' :: '-' :: rest => operate .diff rest
    | '~' :: '~' :: rest => operate .symmDiff rest
    | cs => do
      let (s, rest) ← readClassRange f cs
      readClassItems f fuel (part.add s 0) frames rest

/-- Reads a class after its bracket in a number of steps, and says how deep it nests. -/
def readClass (f : Flags) (fuel : Nat) (cs : List Char) : Except Flaw (Taken (CharSet × Nat)) := do
  let ((part, negated), rest) ← openClass f cs
  readClassItems f fuel part [.bracket {} negated] rest

/-! ### Groups and repetitions -/

/-- Reads flag letters up to a colon or a closing parenthesis. -/
def readFlagItems (seen : List Char) (negated dangling : Bool) :
    List Char → Except Flaw (Taken (List (Char × Bool) × Char))
  | [] => .error .flags
  | c :: cs =>
    if c = ':' || c = ')' then if dangling then .error .flags else .ok (([], c), cs)
    else if c = '-' then
      if negated then .error .flags else readFlagItems seen true true cs
    else if c ∈ seen || c ∉ ['i', 'm', 's', 'U', 'u', 'R', 'x'] then .error .flags
    else (readFlagItems (c :: seen) negated false cs).map fun ((items, stop), rest) =>
      (((c, !negated) :: items, stop), rest)

/-- Whether a character may stand in a group name. -/
def isNameChar (first : Bool) (c : Char) : Bool :=
  c == '_' || Latest.alphabetic.contains c ||
    (!first && (c == '.' || c == '[' || c == ']' || Latest.numeric.contains c))

/-- Reads a group name up to its angle. -/
def readGroupName (cs : List Char) : Except Flaw (Taken String) :=
  let name := cs.takeWhile (· != '>')
  match cs.dropWhile (· != '>') with
  | [] => .error .groupName
  | _ :: rest =>
    match name with
    | [] => .error .groupName
    | c :: more =>
      if isNameChar true c && more.all (isNameChar false) then .ok (String.ofList name, rest)
      else .error .groupName

/-- Takes decimal digits. -/
def takeDigits (f : Flags) : List Char → Taken (List Char)
  | [] => ([], [])
  | c :: cs =>
    if c.isDigit then
      let (digits, rest) := takeDigits f (skip f cs)
      (c :: digits, rest)
    else ([], c :: cs)
termination_by cs => cs.length
decreasing_by exact Nat.lt_succ_of_le (length_skip_le f cs)

/-- Reads a decimal number, with blanks around it. -/
def readDecimal (f : Flags) (cs : List Char) : Except Flaw (Taken Nat) :=
  let isBlank := Property.whiteSpace.contains
  let cs := cs.dropWhile isBlank
  let (digits, rest) := takeDigits f cs
  let n := digits.foldl (fun n c => n * 10 + (c.toNat - 48)) 0
  if digits.isEmpty || 0x100000000 ≤ n then .error .repetitionCount
  else .ok (n, skip f (rest.dropWhile isBlank))

/-- Reads the bounds of a counted repetition after its brace. -/
def readBounds (f : Flags) (cs : List Char) : Except Flaw (Taken (Nat × Option Nat)) := do
  let (min, cs) ← readDecimal f (skip f cs)
  match cs with
  | '\x7d' :: rest => .ok ((min, some min), rest)
  | ',' :: rest =>
    match skip f rest with
    | '\x7d' :: rest => .ok ((min, none), rest)
    | rest =>
      let (max, rest) ← readDecimal f rest
      match rest with
      | '\x7d' :: rest =>
        if min ≤ max then .ok ((min, some max), rest) else .error .repetitionCount
      | _ => .error .repetitionUnclosed
  | _ => .error .repetitionUnclosed

/-- Something that was read: its node, unless it only sets flags, and how deep its parts nest. -/
structure Item where
  node : Option Node
  depth : Nat := 0

/-- Several items as one. A single one stays as deep as it is. -/
def Item.gather (join : List Node → Node) (parts : List Item) : Item :=
  let deepest := parts.foldl (fun d part => max d part.depth) 0
  { node := some (join (parts.filterMap (·.node)))
    depth := if parts.length < 2 then deepest else deepest + 1 }

/-- How deep the parts of a pattern may nest. -/
def maxDepth : Nat := 250

/-- A group that is still open: its number, if it is counted, the alternatives and items read before
it, last first, and the flags that hold after it. -/
structure GroupFrame where
  index : Option Nat
  branches : List Item
  items : List Item
  flags : Flags

/-- The reader between two items. -/
structure ReaderState where
  flags : Flags := {}
  branches : List Item := []
  items : List Item := []
  groups : List GroupFrame := []
  names : List String := []
  /-- Number of counted groups opened so far. -/
  counted : Nat := 0

namespace ReaderState

/-- Adds an item. -/
def push (st : ReaderState) (item : Item) : ReaderState := { st with items := item :: st.items }

/-- The alternative under way. -/
def branch (st : ReaderState) : Item := Item.gather Node.sequence st.items.reverse

/-- Everything read since the group was opened. -/
def whole (st : ReaderState) : Item := Item.gather Node.choice (st.branch :: st.branches).reverse

/-- Opens a group under the given flags. -/
def openGroup (st : ReaderState) (index : Option Nat) (inner : Flags) : ReaderState :=
  { st with
    flags := inner, branches := [], items := []
    groups := ⟨index, st.branches, st.items, st.flags⟩ :: st.groups }

/-- Opens a counted group. -/
def openCounted (st : ReaderState) : ReaderState :=
  { st with counted := st.counted + 1 }.openGroup (some (st.counted + 1)) st.flags

/-- Closes the innermost group. -/
def closeGroup (st : ReaderState) : Except Flaw ReaderState :=
  match st.groups with
  | [] => .error .groupUnopened
  | g :: groups =>
    let inner := st.whole
    let node := match g.index with
      | some index => inner.node.map (Node.group index)
      | none => inner.node
    .ok { st with
      flags := g.flags, branches := g.branches, groups
      items := { node, depth := inner.depth + 1 } :: g.items }

/-- Repeats the last item; there has to be one that is not a directive. -/
def repeatLast (st : ReaderState) (min : Nat) (max : Option Nat) (greedy : Bool) :
    Except Flaw ReaderState :=
  match st.items with
  | { node := some n, depth } :: items =>
    let node := n.repeated min max (greedy != st.flags.swapGreed)
    .ok { st with items := { node := some node, depth := depth + 1 } :: items }
  | _ => .error .operandMissing

/-- The tree at the end of the text. -/
def finish (st : ReaderState) : Except Flaw Node :=
  let whole := st.whole
  if !st.groups.isEmpty then .error .groupUnclosed
  else if maxDepth < whole.depth then .error .nesting
  else .ok (whole.node.getD .empty)

end ReaderState

/-- Drops the mark of a lazy repetition. -/
def readGreed : List Char → Bool × List Char
  | '?' :: cs => (false, cs)
  | cs => (true, cs)

/-- Reads the opening of a group after its parenthesis. -/
def readGroupStart (st : ReaderState) (cs : List Char) : Except Flaw (Taken ReaderState) :=
  let name (cs : List Char) : Except Flaw (Taken ReaderState) := do
    let (name, rest) ← readGroupName cs
    if name ∈ st.names then .error .groupNameDuplicate
    else .ok ({ st with names := name :: st.names }.openCounted, rest)
  match skip st.flags cs with
  | '?' :: '=' :: _ => .error .lookAround
  | '?' :: '!' :: _ => .error .lookAround
  | '?' :: '<' :: '=' :: _ => .error .lookAround
  | '?' :: '<' :: '!' :: _ => .error .lookAround
  | '?' :: 'P' :: '<' :: rest => name rest
  | '?' :: '<' :: rest => name rest
  | '?' :: rest => do
    let ((items, stop), rest) ← readFlagItems [] false false rest
    let flags := items.foldl Flags.set st.flags
    if stop = ':' then .ok (st.openGroup none flags, rest)
    else if items.isEmpty then .error .operandMissing
    else .ok ({ st with flags }.push { node := none }, rest)
  | rest => .ok (st.openCounted, rest)

/-- The set of `.`. -/
def dot (f : Flags) : Except Flaw CharSet :=
  if !f.unicode then .error .notText
  else if f.dotAll then .ok .full
  else if f.lineBreaks then .ok (CharSet.ofChars ['\n', '\r']).compl
  else .ok (CharSet.singleton '\n').compl

/-- The node of an escape outside of classes. -/
def Escape.node (f : Flags) : Escape → Node
  | .literal c => .ofSet (f.fold (CharSet.singleton c))
  | .set s => .ofSet s
  | .look l => .look l

/-- Reads one item that is neither a group nor a repetition. -/
def readPrimitive (f : Flags) : List Char → Except Flaw (Taken Node)
  | [] => .error .escape
  | '\\' :: cs => (readEscape f cs).map fun (e, rest) => (e.node f, rest)
  | '.' :: cs => (dot f).map fun s => (.ofSet s, cs)
  | '^' :: cs =>
    .ok (.look (if !f.multiLine then .textStart else if f.lineBreaks then .breakStart else .lineStart),
      cs)
  | '$' :: cs =>
    .ok (.look (if !f.multiLine then .textEnd else if f.lineBreaks then .breakEnd else .lineEnd), cs)
  | c :: cs => .ok (.ofSet (f.fold (CharSet.singleton c)), cs)

/-- Reads items to the end of the text. -/
def readItems : Nat → ReaderState → List Char → Except Flaw Node
  | 0, _, _ => .error .groupUnclosed
  | fuel + 1, st, cs =>
    match skip st.flags cs with
    | [] => st.finish
    | '(' :: rest => do
      let (st, rest) ← readGroupStart st rest
      readItems fuel st rest
    | ')' :: rest => do readItems fuel (← st.closeGroup) rest
    | '|' :: rest =>
      readItems fuel { st with branches := st.branch :: st.branches, items := [] } rest
    | '[' :: rest => do
      let ((s, depth), rest) ← readClass st.flags fuel rest
      readItems fuel (st.push { node := some (.ofSet s), depth }) rest
    | '?' :: rest => do
      let (greedy, rest) := readGreed rest
      readItems fuel (← st.repeatLast 0 (some 1) greedy) rest
    | '*' :: rest => do
      let (greedy, rest) := readGreed rest
      readItems fuel (← st.repeatLast 0 none greedy) rest
    | '+' :: rest => do
      let (greedy, rest) := readGreed rest
      readItems fuel (← st.repeatLast 1 none greedy) rest
    | '\x7b' :: rest => do
      let _ ← st.repeatLast 0 none true
      let ((min, max), rest) ← readBounds st.flags rest
      let (greedy, rest) := readGreed (skip st.flags rest)
      readItems fuel (← st.repeatLast min max greedy) rest
    | cs => do
      let (n, rest) ← readPrimitive st.flags cs
      readItems fuel (st.push { node := some n }) rest

/-- The tree of a pattern. -/
def Node.read (text : String) : Except Flaw Node :=
  readItems (text.toList.length + 1) {} text.toList

end ScriptMachine.Pattern
