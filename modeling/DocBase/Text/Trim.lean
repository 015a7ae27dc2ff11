import DocBase.Unicode.Property.Listed

/-! Text without the white space around it. -/
namespace DocBase.Text

def isSpace (c : Char) : Bool := Unicode.Property.whiteSpace.contains c.toNat

def trim (cs : List Char) : List Char :=
  ((cs.dropWhile isSpace).reverse.dropWhile isSpace).reverse

end DocBase.Text
