import ScriptMachine.Text.Age
import ScriptMachine.Text.Break
import ScriptMachine.Text.Casing

/-!
# Class — character classes by name

Classes are named by a letter after a backslash, by the bracketed names of POSIX, or by a property
of the character database. Property names are compared as `plainName` makes them.
-/

namespace ScriptMachine.Pattern

open ScriptMachine.Text

/-- The classes with a one-letter escape. -/
inductive Shorthand where
  | digit
  | space
  | word
  deriving DecidableEq, Repr

/-- ASCII digits. -/
def asciiDigit : CharSet := CharSet.read "30-39"

/-- ASCII blanks and line ends. -/
def asciiSpace : CharSet := CharSet.read "9-d 20"

/-- ASCII letters, digits and the underscore. -/
def asciiWord : CharSet := CharSet.read "30-39 41-5a 5f 61-7a"

/-- ASCII as a whole. -/
def ascii : CharSet := CharSet.range 0 0x7f

/-- The characters of a one-letter class, in the whole database or in ASCII. -/
def Shorthand.set (unicode : Bool) : Shorthand → CharSet
  | .digit => if unicode then Property.decimal else asciiDigit
  | .space => if unicode then Property.whiteSpace else asciiSpace
  | .word => if unicode then Property.word else asciiWord

/-- The bracketed class names of POSIX. -/
def posix : List (String × CharSet) :=
  [("alnum", CharSet.read "30-39 41-5a 61-7a"), ("alpha", CharSet.read "41-5a 61-7a"),
   ("ascii", ascii), ("blank", CharSet.read "9 20"), ("cntrl", CharSet.read "0-1f 7f"),
   ("digit", asciiDigit), ("graph", CharSet.read "21-7e"), ("lower", CharSet.read "61-7a"),
   ("print", CharSet.read "20-7e"), ("punct", CharSet.read "21-2f 3a-40 5b-60 7b-7e"),
   ("space", asciiSpace), ("upper", CharSet.read "41-5a"), ("word", asciiWord),
   ("xdigit", CharSet.read "30-39 41-46 61-66")]

/-- A property name without case, blanks, hyphens, underscores and all that is not ASCII. A leading
`is` does not count either, but `isc` is a name of its own. -/
def plainName (name : String) : String :=
  let plain (cs : List Char) : List Char :=
    (cs.filter fun c => c.toNat < 0x80 && c != ' ' && c != '_' && c != '-').map Char.toLower
  match name.toList with
  | a :: b :: rest =>
    if a.toLower = 'i' && b.toLower = 's' then
      if plain rest = ['c'] then "isc" else String.ofList (plain rest)
    else String.ofList (plain (a :: b :: rest))
  | cs => String.ofList (plain cs)

/-- Whether one of the names is meant. -/
def named (plain : String) (names : List String) : Bool := names.any fun n => plainName n == plain

/-- The set under one of its names. -/
def lookup? (plain : String) (sets : List (List String × CharSet)) : Option CharSet :=
  (sets.find? fun entry => named plain entry.1).map (·.2)

/-- Groups of categories, and the sets that count as categories. -/
def categoryGroups : List (List String × CharSet) :=
  [(["Any"], CharSet.full), (["Assigned"], Category.assigned), (["ASCII"], ascii),
   (["L", "Letter"], Property.letter),
   (["LC", "Cased_Letter"], Category.union [.uppercaseLetter, .lowercaseLetter, .titlecaseLetter]),
   (["M", "Mark", "Combining_Mark"], Category.union [.nonspacingMark, .spacingMark, .enclosingMark]),
   (["N", "Number"], Property.numeric),
   (["P", "Punctuation", "punct"], Category.union
     [.connectorPunctuation, .dashPunctuation, .openPunctuation, .closePunctuation,
      .initialPunctuation, .finalPunctuation, .otherPunctuation]),
   (["S", "Symbol"], Category.union [.mathSymbol, .currencySymbol, .modifierSymbol, .otherSymbol]),
   (["Z", "Separator"], Category.union [.spaceSeparator, .lineSeparator, .paragraphSeparator]),
   (["C", "Other"], (Category.union [.control, .format, .privateUse]).union Category.assigned.compl),
   (["Cn", "Unassigned"], Category.assigned.compl), (["digit"], Property.decimal),
   (["cntrl"], Category.set .control)]

/-- The set of a general category. -/
def category? (plain : String) : Option CharSet :=
  lookup? plain categoryGroups <|>
    (Category.all.find? fun c => named plain [c.abbreviation, c.name]).map Category.set

/-- The writing system of a name. -/
def writingSystem? (plain : String) : Option WritingSystem :=
  WritingSystem.all.find? fun w => named plain w.names

/-- The set of a property that a character has or has not. -/
def binary? (plain : String) : Option CharSet :=
  lookup? plain Property.derived <|>
    (Property.others.find? fun p => named plain p.1).map fun p => CharSet.read p.2

/-- The set of a property given by one name: a binary property, else a category, else a writing
system. Three abbreviations of properties that are not binary name a category instead. -/
def property? (name : String) : Option CharSet :=
  let plain := plainName name
  let binary := if plain ∈ ["cf", "sc", "lc"] then none else binary? plain
  binary <|> category? plain <|> (writingSystem? plain).map WritingSystem.set

/-- The set of a property given by a name and a value. -/
def propertyValue? (name value : String) : Option CharSet :=
  let name := plainName name
  let value := plainName value
  if named name ["gc", "General_Category"] then category? value
  else if named name ["sc", "Script"] then (writingSystem? value).map WritingSystem.set
  else if named name ["scx", "Script_Extensions"] then
    (writingSystem? value).map WritingSystem.usedIn
  else if named name ["Age"] then Age.upTo? (named value)
  else if named name ["GCB", "Grapheme_Cluster_Break"] then lookup? value Break.grapheme
  else if named name ["SB", "Sentence_Break"] then lookup? value Break.sentence
  else if named name ["WB", "Word_Break"] then lookup? value Break.word
  else none

end ScriptMachine.Pattern
