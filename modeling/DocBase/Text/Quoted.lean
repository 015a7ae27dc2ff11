import DocBase.Text.Hex
import DocBase.Unicode.Current

/-! Quoted text for messages: characters that do not show are written as escapes. -/
namespace DocBase.Text

/-- Assigned and visible: neither a control, format or private-use character nor a
separator other than the plain blank. -/
def isPrintable (c : Char) : Bool :=
  let n := c.toNat
  n == 32 || (n < 127 && 32 < n) || (127 < n && Unicode.Current.visible.contains n)

/-- Without a place or a shape of its own. The halfwidth sound marks, which extend what
stands before them, have both. -/
def isInvisible (c : Char) : Bool :=
  let n := c.toNat
  Unicode.Property.defaultIgnorable.contains n
    || (Unicode.Current.graphemeExtend.contains n && n != 0xff9e && n != 0xff9f)

def escape (c : Char) : String :=
  if c = '\x00' then "\\0"
  else if c = '\t' then "\\t"
  else if c = '\r' then "\\r"
  else if c = '\n' then "\\n"
  else if c = '"' then "\\\""
  else if c = '\\' then "\\\\"
  else if isInvisible c || !isPrintable c then
    "\\u\x7b" ++ String.ofList (hexChars c.toNat) ++ "\x7d"
  else c.toString

def quoted (s : String) : String := "\"" ++ String.join (s.toList.map escape) ++ "\""

/-- A bracketed list. -/
def list (items : List String) : String := "[" ++ ", ".intercalate items ++ "]"

end DocBase.Text
