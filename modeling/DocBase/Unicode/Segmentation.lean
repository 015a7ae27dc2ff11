import DocBase.Unicode.Emoji
import DocBase.Unicode.Property.Derived
import DocBase.Unicode.Script

/-! Where text is cut into characters as users see them, into words and into sentences: the
classes of code points that the rules of Unicode 16 go by. -/
namespace DocBase.Unicode

open Category Property

def carriageReturn : CodePoints := [(0xd, 0xd)]

def lineFeed : CodePoints := [(0xa, 0xa)]

def zeroWidthJoiner : CodePoints := [(0x200d, 0x200d)]

namespace GraphemeBreak

def extend : CodePoints := .union graphemeExtend Emoji.modifier

def spacing : CodePoints := .union (.diff spacingMark (extend ++ .ofText
  ["102b-102c 1038 1062-1064 1067-106d 1083 1087-108c 108f 109a-109c 1a61 1a63-1a64 aa7b aa7d",
   "11720-11721"])) [(0xe33, 0xe33), (0xeb3, 0xeb3)]

def prepend : CodePoints := .union prependedConcatenationMark (.ofText
  ["d4e 111c2-111c3 113d1 1193f 11941 11a3a 11a84-11a89 11d46 11f02"])

def control : CodePoints :=
  .diff (lineSeparator ++ paragraphSeparator ++ Category.control ++ format
    ++ .inter unassigned defaultIgnorable)
    (carriageReturn ++ lineFeed ++ zeroWidthJoiner ++ extend ++ prepend)

/-- A leading consonant with a vowel: every 28th of the composed syllables. -/
def leadingVowel : CodePoints := (List.range 399).map fun i => (0xac00 + 28 * i, 0xac00 + 28 * i)

/-- Composed syllables that close with a consonant. -/
def leadingVowelTrailing : CodePoints := .diff [(0xac00, 0xd7a3)] leadingVowel

def classes : List (List String × CodePoints) :=
  [(["cr"], carriageReturn), (["lf"], lineFeed), (["control", "cn"], control),
   (["extend", "ex"], extend), (["prepend", "pp"], prepend), (["spacingmark", "sm"], spacing),
   (["regionalindicator", "ri"], Emoji.regionalIndicator), (["zwj"], zeroWidthJoiner),
   (["l"], [(0x1100, 0x115f), (0xa960, 0xa97c)]),
   (["v"], .ofText ["1160-11a7 d7b0-d7c6 16d63 16d67-16d6a"]),
   (["t"], [(0x11a8, 0x11ff), (0xd7cb, 0xd7fb)]),
   (["lv"], leadingVowel), (["lvt"], leadingVowelTrailing)]

end GraphemeBreak

/-- Numbers written with digits, and the signs that stand among these. -/
def numeric : CodePoints :=
  .normalize (decimalNumber ++ .ofText ["600-605 66b 6dd 890-891 8e2 19da 110bd 110cd"])

def extending : CodePoints := .union graphemeExtend spacingMark

namespace WordBreak

def extend : CodePoints := .union extending Emoji.modifier

def format : CodePoints :=
  .diff Category.format (numeric ++ extend ++ .ofText ["70f 200b-200d"])

def katakana : CodePoints :=
  .union ((script? "kana").getD []) (.ofText ["3031-3035 309b-309c 30a0 30fc ff70"])

def hebrewLetter : CodePoints := .inter ((script? "hebr").getD []) otherLetter

/-- Letters of scripts that put blanks between words. -/
def letter : CodePoints :=
  .union (.diff alphabetic (ideographic ++ katakana ++ hebrewLetter ++ extend ++ unspaced)) (.ofText
    ["b8 2c2-2c5 2d2-2d7 2de-2df 2e5-2eb 2ed 2ef-2ff 55a-55c 55e 58a 5f3 70f a708-a716 a720-a721",
     "a789-a78a ab5b"])
where
  unspaced : CodePoints :=
    ["hira", "thai", "laoo", "mymr", "khmr", "tale", "talu", "lana", "tavt", "ahom"].flatMap
      fun name => (script? name).getD []

def classes : List (List String × CodePoints) :=
  [(["cr"], carriageReturn), (["lf"], lineFeed), (["newline", "nl"], .ofText ["b-c 85 2028-2029"]),
   (["aletter", "le"], letter), (["hebrewletter", "hl"], hebrewLetter),
   (["katakana", "ka"], katakana), (["numeric", "nu"], numeric),
   (["extend"], extend), (["format", "fo"], format), (["zwj"], zeroWidthJoiner),
   (["extendnumlet", "ex"], .union connectorPunctuation [(0x202f, 0x202f)]),
   (["midletter", "ml"], .ofText ["3a b7 387 55f 5f4 2027 fe13 fe55 ff1a"]),
   (["midnum", "mn"], .ofText ["2c 3b 37e 589 60c-60d 66c 7f8 2044 fe50 fe54 ff0c ff1b"]),
   (["midnumlet", "mb"], .ofText ["2e 2018-2019 2024 fe52 ff07 ff0e"]),
   (["singlequote", "sq"], [(0x27, 0x27)]), (["doublequote", "dq"], [(0x22, 0x22)]),
   (["regionalindicator", "ri"], Emoji.regionalIndicator),
   (["wsegspace"], .ofText ["20 1680 2000-2006 2008-200a 205f 3000"])]

end WordBreak

namespace SentenceBreak

def extend : CodePoints := .union extending zeroWidthJoiner

def digits : CodePoints := .union numeric [(0x66c, 0x66c)]

def format : CodePoints := .diff Category.format (digits ++ extend)

def separator : CodePoints := .ofText ["85 2028-2029"]

def ending : CodePoints := .ofText ["2e 2024 fe52 ff0e"]

/-- Capitals of scripts that mix both cases in a word. -/
def upper : CodePoints := .diff (uppercase ++ titlecaseLetter) [(0x1c90, 0x1cba), (0x1cbd, 0x1cbf)]

def lower : CodePoints :=
  .diff lowercase (graphemeExtend ++ [(0x10d0, 0x10fa), (0x10fd, 0x10ff)])

def otherLetter : CodePoints := .diff (alphabetic ++ [(0x5f3, 0x5f3)]) (lower ++ upper ++ extend)

def close : CodePoints :=
  .union (.diff (openPunctuation ++ closePunctuation ++ initialPunctuation ++ finalPunctuation
    ++ quotationMark) [(0xff02, 0xff02), (0xff07, 0xff07)])
    (.ofText ["275b-2760 2e00-2e01 2e06-2e08 2e0b 1f676-1f678"])

def classes : List (List String × CodePoints) :=
  [(["cr"], carriageReturn), (["lf"], lineFeed), (["sep", "se"], separator),
   (["sp"], .diff whiteSpace (separator ++ carriageReturn ++ lineFeed)),
   (["extend", "ex"], extend), (["format", "fo"], format), (["lower", "lo"], lower),
   (["upper", "up"], upper), (["oletter", "le"], otherLetter), (["numeric", "nu"], digits),
   (["aterm", "at"], ending), (["sterm", "st"], .diff sentenceTerminal ending),
   (["close", "cl"], close),
   (["scontinue", "sc"], .ofText
     ["2c-2d 3a-3b 37e 55d 60c-60d 7f8 1802 1808 2013-2014 3001 fe10-fe11 fe13-fe14 fe31-fe32",
      "fe50-fe51 fe54-fe55 fe58 fe63 ff0c-ff0d ff1a-ff1b ff64"])]

end SentenceBreak

end DocBase.Unicode
