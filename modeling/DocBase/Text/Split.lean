/-! Cutting text at a separator. -/
namespace DocBase.Text

/-- The stretches between the separators, of which there is one more than separators. -/
def split (sep : Char) : List Char → List (List Char)
  | [] => [[]]
  | c :: cs =>
    if c = sep then [] :: split sep cs
    else match split sep cs with
      | s :: rest => (c :: s) :: rest
      | [] => [[c]]

end DocBase.Text
