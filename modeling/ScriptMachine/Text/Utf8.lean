/-!
# Utf8 — ranges of characters as ranges of bytes

A range of code points without surrogates is cut into stretches whose UTF-8 forms are exactly the
choices of one byte from each of a few ranges of bytes.
-/

namespace ScriptMachine.Text.Utf8

/-- A range of bytes, both ends included. -/
abbrev ByteRange := Nat × Nat

/-- The bytes of a code point. -/
def encode (n : Nat) : List Nat :=
  if n < 0x80 then [n]
  else if n < 0x800 then [0xc0 + n / 0x40, 0x80 + n % 0x40]
  else if n < 0x10000 then [0xe0 + n / 0x1000, 0x80 + n / 0x40 % 0x40, 0x80 + n % 0x40]
  else
    [0xf0 + n / 0x40000, 0x80 + n / 0x1000 % 0x40, 0x80 + n / 0x40 % 0x40, 0x80 + n % 0x40]

/-- The last code points of one, two and three bytes. -/
def lengthEnds : List Nat := [0x7f, 0x7ff, 0xffff]

/-- The numbers of code points that share all bytes but the last one, two or three. -/
def blockSizes : List Nat := [0x40, 0x1000, 0x40000]

/-- Where a stretch has to be cut so that its ends fill blocks of a size: behind the block of its
first code point if that block is not whole, else before the block of its last one. -/
def blockCut (a b size : Nat) : List Nat :=
  if a / size = b / size then []
  else if a % size ≠ 0 then [a / size * size + (size - 1)]
  else if b % size ≠ size - 1 then [b / size * size - 1]
  else []

/-- The last code point before the first cut of a stretch, if it has to be cut. -/
def cut? (a b : Nat) : Option Nat :=
  let cuts := if b < 0x80 then [] else lengthEnds ++ blockSizes.flatMap (blockCut a b)
  cuts.find? fun m => a ≤ m && m < b

theorem bounds_of_cut? {a b m : Nat} (h : cut? a b = some m) : a ≤ m ∧ m < b := by
  have := List.find?_some h
  simpa using this

/-- The choices of bytes of a range of code points, in order. -/
def sequences (a b : Nat) : List (List ByteRange) :=
  match h : cut? a b with
  | some m =>
    have := bounds_of_cut? h
    sequences a m ++ sequences (m + 1) b
  | none => [(encode a).zip (encode b)]
termination_by b - a
decreasing_by
  · omega
  · omega

end ScriptMachine.Text.Utf8
