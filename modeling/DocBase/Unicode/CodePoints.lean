import DocBase.Text.Hex

/-! Sets of code points as ascending ranges that neither meet nor touch. -/
namespace DocBase

abbrev CodePoints := List (Nat × Nat)

namespace CodePoints

def contains (s : CodePoints) (n : Nat) : Bool := s.any fun (lo, hi) => lo ≤ n && n ≤ hi

/-- One range of a table: a code point in hexadecimal, or two around a hyphen. -/
def rangeOfChars (cs : List Char) : Nat × Nat :=
  let lo := cs.takeWhile (· ≠ '-')
  let hi := (cs.dropWhile (· ≠ '-')).drop 1
  let number (ds : List Char) : Nat := (Text.natOfHex? ds).getD 0
  (number lo, number (if hi.isEmpty then lo else hi))

/-- The characters between blanks. -/
def words (cs : List Char) : List (List Char) :=
  let (last, done) := cs.foldr
    (fun c (w, ws) => if c = ' ' then ([], w :: ws) else (c :: w, ws)) ([], [])
  (last :: done).filter (!·.isEmpty)

def ofText (lines : List String) : CodePoints :=
  lines.flatMap fun l => (words l.toList).map rangeOfChars

/-- Ranges in ascending order of their starts, joined where they meet or touch. -/
def join : CodePoints → CodePoints
  | (a, b) :: (c, d) :: rest =>
    if c ≤ b + 1 then join ((a, max b d) :: rest) else (a, b) :: join ((c, d) :: rest)
  | rest => rest
termination_by s => s.length

/-- The same set with its ranges in canonical form. Empty ranges vanish. -/
def normalize (s : CodePoints) : CodePoints :=
  join ((s.filter fun (a, b) => a ≤ b).mergeSort fun x y => x.1 < y.1 || (x.1 == y.1 && x.2 ≤ y.2))

def union (s t : CodePoints) : CodePoints := normalize (s ++ t)

/-- The gaps that canonical ranges leave from `lo` on, up to and with `hi`. -/
def gaps (lo hi : Nat) : CodePoints → CodePoints
  | [] => if lo ≤ hi then [(lo, hi)] else []
  | (a, b) :: rest => (if lo < a then [(lo, a - 1)] else []) ++ gaps (b + 1) hi rest

/-- Every code point that a character can have: all but the surrogates. -/
def scalars : CodePoints := [(0, 0xD7FF), (0xE000, 0x10FFFF)]

def compl (s : CodePoints) : CodePoints := gaps 0 0x10FFFF (union s [(0xD800, 0xDFFF)])

def inter (s t : CodePoints) : CodePoints := compl (union (compl s) (compl t))

def diff (s t : CodePoints) : CodePoints := inter s (compl t)

/-- The number of code points in canonical ranges. -/
def size (s : CodePoints) : Nat := s.foldl (fun n (a, b) => n + (b + 1 - a)) 0

end CodePoints
end DocBase
