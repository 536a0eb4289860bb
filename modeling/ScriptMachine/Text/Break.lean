import ScriptMachine.Text.Property
import ScriptMachine.Text.WritingSystem

/-!
# Break — the classes that divide texts

Three rules divide a text into characters as a reader sees them, into words and into sentences. Each
rule sorts the characters into classes of its own, derived as the standard derives them from edition
16 of the character database. What no class holds has no name here.
-/

namespace ScriptMachine.Text.Break

/-- The characters of a property of `Property.others`. -/
def other (name : String) : CharSet :=
  match Property.others.find? fun p => p.1.contains name with
  | some p => CharSet.read p.2
  | none => .empty

/-- The characters of a writing system, by its code. -/
def writtenIn (code : String) : CharSet :=
  match WritingSystem.all.find? fun w => w.code == code with
  | some w => w.set
  | none => .empty

/-- Return. -/
def carriageReturn : CharSet := CharSet.read "d"

/-- Newline. -/
def lineFeed : CharSet := CharSet.read "a"

/-- The joiner that makes one picture of two. -/
def joiner : CharSet := CharSet.read "200d"

/-- The syllables of Hangul without a final consonant. -/
def openSyllable : CharSet := CharSet.read "ac00-d788/1c"

/-- The syllables of Hangul. -/
def syllable : CharSet := CharSet.read "ac00-d7a3"

/-- Marks that take a place of their own and extend nothing. -/
def spacingMark : CharSet :=
  ((Category.set .spacingMark).diff (Property.graphemeExtend.union (CharSet.read
    "102b-102c 1038 1062-1064 1067-106d 1083 1087-108c 108f 109a-109c 1a61 1a63-1a64 aa7b aa7d
    11720-11721"))).union (CharSet.read "e33 eb3")

/-- Formats that neither join, nor extend a character, nor stand before a number. -/
def format : CharSet :=
  (Category.set .format).diff
    (CharSet.unions
      [Property.graphemeExtend, joiner, other "Prepended_Concatenation_Mark"])

/-- Characters that end every cluster. -/
def control : CharSet :=
  (CharSet.unions
    [Category.union [.lineSeparator, .paragraphSeparator, .control], format,
     Property.defaultIgnorable.diff Category.assigned]).diff (carriageReturn.union lineFeed)

/-- Classes of characters as a reader sees them. -/
def grapheme : List (List String × CharSet) :=
  [(["CR"], carriageReturn), (["LF"], lineFeed), (["CN", "Control"], control),
   (["EX", "Extend"], Property.graphemeExtend.union (other "Emoji_Modifier")), (["ZWJ"], joiner),
   (["RI", "Regional_Indicator"], other "Regional_Indicator"),
   (["PP", "Prepend"], CharSet.read
     "600-605 6dd 70f 890-891 8e2 d4e 110bd 110cd 111c2-111c3 113d1 1193f 11941 11a3a 11a84-11a89
     11d46 11f02"),
   (["SM", "SpacingMark"], spacingMark), (["L"], CharSet.read "1100-115f a960-a97c"),
   (["V"], CharSet.read "1160-11a7 d7b0-d7c6 16d63 16d67-16d6a"),
   (["T"], CharSet.read "11a8-11ff d7cb-d7fb"), (["LV"], openSyllable),
   (["LVT"], syllable.diff openSyllable)]

/-- Marks and joiners that stay with the character before them. -/
def attached : CharSet :=
  CharSet.unions [Property.graphemeExtend, Category.set .spacingMark, joiner]

/-- Digits and the marks before them. -/
def number : CharSet :=
  CharSet.unions
    [Property.decimal, (other "Prepended_Concatenation_Mark").diff (CharSet.read "70f"),
     CharSet.read "66b 19da"]

/-- Lowercase characters of sentences. Georgian has none. -/
def sentenceLower : CharSet :=
  Property.lowercase.diff (attached.union (CharSet.read "10d0-10fa 10fd-10ff"))

/-- Uppercase characters of sentences. Georgian has none. -/
def sentenceUpper : CharSet :=
  (Property.uppercase.union (Category.set .titlecaseLetter)).diff
    (CharSet.read "1c90-1cba 1cbd-1cbf")

/-- Full stops, which may also stand inside of a sentence. -/
def fullStop : CharSet := CharSet.read "2e 2024 fe52 ff0e"

/-- Ends of paragraphs other than the return and the newline. -/
def separator : CharSet := CharSet.read "85 2028-2029"

/-- Classes of sentences. -/
def sentence : List (List String × CharSet) :=
  [(["CR"], carriageReturn), (["LF"], lineFeed), (["EX", "Extend"], attached),
   (["SE", "Sep"], separator), (["FO", "Format"], format.union (CharSet.read "70f")),
   (["SP", "Sp"], Property.whiteSpace.diff
     (CharSet.unions [separator, carriageReturn, lineFeed])),
   (["LO", "Lower"], sentenceLower), (["UP", "Upper"], sentenceUpper),
   (["LE", "OLetter"], (Property.alphabetic.union (CharSet.read "5f3")).diff
     (CharSet.unions [sentenceLower, sentenceUpper, attached])),
   (["NU", "Numeric"], number.union (CharSet.read "66c")), (["AT", "ATerm"], fullStop),
   (["SC", "SContinue"], CharSet.read
     "2c-2d 3a-3b 37e 55d 60c-60d 7f8 1802 1808 2013-2014 3001 fe10-fe11 fe13-fe14 fe31-fe32
     fe50-fe51 fe54-fe55 fe58 fe63 ff0c-ff0d ff1a-ff1b ff64"),
   (["ST", "STerm"], (other "Sentence_Terminal").diff fullStop),
   (["CL", "Close"], (CharSet.unions
     [Category.union [.openPunctuation, .closePunctuation, .initialPunctuation, .finalPunctuation],
      (other "Quotation_Mark").diff (CharSet.read "ff02 ff07"),
      CharSet.read "275b-2760 2e00-2e01 2e06-2e08 2e0b 1f676-1f678"]))]

/-- Marks that extend a word. -/
def wordExtend : CharSet :=
  (CharSet.unions
    [Property.graphemeExtend, Category.set .spacingMark, other "Emoji_Modifier"]).diff joiner

/-- Katakana and the marks written with it. -/
def katakana : CharSet :=
  (writtenIn "Kana").union (CharSet.read "3031-3035 309b-309c 30a0 30fc ff70")

/-- Hebrew letters. -/
def hebrewLetter : CharSet := (writtenIn "Hebr").inter (Category.set .otherLetter)

/-- Letters of the systems that write words without blanks. -/
def unspacedLetter : CharSet := CharSet.read
  "e01-e30 e32-e33 e40-e46 e81-e82 e84 e86-e8a e8c-ea3 ea5 ea7-eb0 eb2-eb3 ebd ec0-ec4 ec6 edc-edf
  1000-102a 103f 1050-1055 105a-105d 1061 1065-1066 106e-1070 1075-1081 108e 1780-17b3 17d7 17dc
  1950-196d 1970-1974 1980-19ab 19b0-19c9 1a20-1a54 1aa7 a9e0-a9e4 a9e6-a9ef a9fa-a9fe aa60-aa76
  aa7a aa7e-aaaf aab1 aab5-aab6 aab9-aabd aac0 aac2 aadb-aadd 11700-1171a 11740-11746"

/-- Letters of words: neither ideographs nor Japanese nor Hebrew, nor of systems that write words
without blanks. -/
def wordLetter : CharSet :=
  (Property.alphabetic.union (CharSet.read
    "b8 2c2-2c5 2d2-2d7 2de-2df 2e5-2eb 2ed 2ef-2ff 55a-55c 55e 58a 5f3 70f a708-a716 a720-a721
    a789-a78a ab5b")).diff
    (CharSet.unions
      [other "Ideographic", katakana, writtenIn "Hira", wordExtend, hebrewLetter, unspacedLetter])

/-- Classes of words. -/
def word : List (List String × CharSet) :=
  [(["CR"], carriageReturn), (["LF"], lineFeed), (["NL", "Newline"], CharSet.read "b-c 85 2028-2029"),
   (["Extend"], wordExtend), (["ZWJ"], joiner),
   (["RI", "Regional_Indicator"], other "Regional_Indicator"),
   (["FO", "Format"], format.diff (CharSet.read "200b")), (["KA", "Katakana"], katakana),
   (["HL", "Hebrew_Letter"], hebrewLetter), (["LE", "ALetter"], wordLetter),
   (["SQ", "Single_Quote"], CharSet.read "27"), (["DQ", "Double_Quote"], CharSet.read "22"),
   (["MB", "MidNumLet"], CharSet.read "2e 2018-2019 2024 fe52 ff07 ff0e"),
   (["ML", "MidLetter"], CharSet.read "3a b7 387 55f 5f4 2027 fe13 fe55 ff1a"),
   (["MN", "MidNum"], CharSet.read "2c 3b 37e 589 60c-60d 66c 7f8 2044 fe50 fe54 ff0c ff1b"),
   (["NU", "Numeric"], number),
   (["EX", "ExtendNumLet"], (Category.set .connectorPunctuation).union (CharSet.read "202f")),
   (["WSegSpace"], (Category.set .spaceSeparator).diff (CharSet.read "a0 2007 202f"))]

end ScriptMachine.Text.Break
