import DocBase.Number.Decimal
import DocBase.Text.Hex

/-! JSON as a tree, and its compact text. Members keep the order and the
repetitions of the text they came from. -/
namespace DocBase

inductive Json
  | null
  | bool (b : Bool)
  | int (n : Int)
  | float (x : Binary64)
  | str (s : String)
  | arr (items : List Json)
  | obj (members : List (String × Json))
  deriving Inhabited

namespace Json

/-- Plain from 0.00001 up to sixteen whole digits, always with a point or an exponent. -/
def floatLayout : Decimal.Layout := ⟨some (-5, 15), ".0"⟩

def floatText (x : Binary64) : String := if x.isFinite then x.text floatLayout else "null"

/-- Quotes, backslashes and control characters are escaped and nothing else. -/
def escape (c : Char) : List Char :=
  if c = '"' then ['\\', '"']
  else if c = '\\' then ['\\', '\\']
  else if c = '\n' then ['\\', 'n']
  else if c = '\r' then ['\\', 'r']
  else if c = '\t' then ['\\', 't']
  else if c.toNat = 8 then ['\\', 'b']
  else if c.toNat = 12 then ['\\', 'f']
  else if c.toNat < 32 then '\\' :: 'u' :: (Text.hexPadded 4 c.toNat).toList
  else [c]

/-- The text of a string in front of `rest`. -/
def putString (s : String) (rest : List Char) : List Char :=
  '"' :: s.toList.foldr (fun c r => escape c ++ r) ('"' :: rest)

mutual

/-- The text of a value in front of `rest`. -/
def put : Json → List Char → List Char
  | null, rest => "null".toList ++ rest
  | bool b, rest => (if b then "true" else "false").toList ++ rest
  | int n, rest => (toString n).toList ++ rest
  | float x, rest => (floatText x).toList ++ rest
  | str s, rest => putString s rest
  | arr items, rest => '[' :: putItems items (']' :: rest)
  | obj members, rest => '\x7b' :: putMembers members ('\x7d' :: rest)

def putItems : List Json → List Char → List Char
  | [], rest => rest
  | [v], rest => put v rest
  | v :: more, rest => put v (',' :: putItems more rest)

def putMembers : List (String × Json) → List Char → List Char
  | [], rest => rest
  | [(k, v)], rest => putString k (':' :: put v rest)
  | (k, v) :: more, rest => putString k (':' :: put v (',' :: putMembers more rest))

end

def render (j : Json) : String := String.ofList (j.put [])

end Json
end DocBase
