import ScriptMachine.Text.Latest

/-!
# Quoted — texts between double quotes

A quoted text escapes the double quote, the backslash, the common controls and every character that
would not show by itself: those of `Latest.hidden` and the marks that extend the character before
them.
-/

namespace ScriptMachine.Text

namespace Quoted

/-- Whether a character stands for itself between quotes. -/
def isPlain (c : Char) : Bool :=
  if c.toNat < 0x7f then 0x20 ≤ c.toNat
  else !Latest.hidden.contains c && !Latest.extendingMark.contains c

/-- A character by its code point. -/
def codePoint (c : Char) : String :=
  "\\u\x7b" ++ String.ofList (Nat.toDigits 16 c.toNat) ++ "\x7d"

/-- One character between quotes. -/
def escape (c : Char) : String :=
  match c with
  | '"' => "\\\""
  | '\\' => "\\\\"
  | '\n' => "\\n"
  | '\r' => "\\r"
  | '\t' => "\\t"
  | '\x00' => "\\0"
  | c => if isPlain c then c.toString else codePoint c

end Quoted

/-- A text between double quotes. -/
def quoted (text : String) : String :=
  "\"" ++ String.join (text.toList.map Quoted.escape) ++ "\""

/-- Quoted texts between brackets. -/
def quotedList (texts : List String) : String :=
  "[" ++ ", ".intercalate (texts.map quoted) ++ "]"

/-- Quoted texts between braces. -/
def quotedSet (texts : List String) : String :=
  "\x7b" ++ ", ".intercalate (texts.map quoted) ++ "\x7d"

end ScriptMachine.Text
