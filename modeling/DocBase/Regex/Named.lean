import DocBase.Unicode.Name

/-! The character sets that patterns refer to by name. -/
namespace DocBase.Regex

open Unicode

def digits (ascii : Bool) : CodePoints := if ascii then [(0x30, 0x39)] else Category.decimalNumber

def spaces (ascii : Bool) : CodePoints :=
  if ascii then [(0x9, 0xd), (0x20, 0x20)] else Property.whiteSpace

/-- Letters, marks, digits, connectors and joiners. -/
def unicodeWords : CodePoints :=
  .normalize (Property.alphabetic ++ Category.mark ++ Category.decimalNumber
    ++ Category.connectorPunctuation ++ Property.joinControl)

def asciiWords : CodePoints := [(0x30, 0x39), (0x41, 0x5a), (0x5f, 0x5f), (0x61, 0x7a)]

def words (ascii : Bool) : CodePoints := if ascii then asciiWords else unicodeWords

def posixClass? : String → Option CodePoints
  | "alnum" => some [(0x30, 0x39), (0x41, 0x5a), (0x61, 0x7a)]
  | "alpha" => some [(0x41, 0x5a), (0x61, 0x7a)]
  | "ascii" => some [(0, 0x7f)]
  | "blank" => some [(0x9, 0x9), (0x20, 0x20)]
  | "cntrl" => some [(0, 0x1f), (0x7f, 0x7f)]
  | "digit" => some [(0x30, 0x39)]
  | "graph" => some [(0x21, 0x7e)]
  | "lower" => some [(0x61, 0x7a)]
  | "print" => some [(0x20, 0x7e)]
  | "punct" => some [(0x21, 0x2f), (0x3a, 0x40), (0x5b, 0x60), (0x7b, 0x7e)]
  | "space" => some [(0x9, 0xd), (0x20, 0x20)]
  | "upper" => some [(0x41, 0x5a)]
  | "word" => some asciiWords
  | "xdigit" => some [(0x30, 0x39), (0x41, 0x46), (0x61, 0x66)]
  | _ => none

/-- Splits at the first place where `mark` stands. -/
def splitAtMark? (mark : List Char) : List Char → Option (List Char × List Char)
  | [] => none
  | c :: cs =>
    if mark.isPrefixOf (c :: cs) then some ([], (c :: cs).drop mark.length)
    else (splitAtMark? mark cs).map fun (before, after) => (c :: before, after)

/-- The set behind a name, or behind a property and its value around `!=`, `:` or `=`.
The three marks mean the same. -/
def unicodeClass? (cs : List Char) : Option CodePoints :=
  match (["!=", ":", "="].findSome? fun mark => splitAtMark? mark.toList cs) with
  | some (property, value) => ofValue? property value
  | none => ofName? cs

end DocBase.Regex
