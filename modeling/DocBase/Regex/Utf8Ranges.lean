import DocBase.Unicode.CodePoints

/-! Ranges of code points as sequences of byte ranges: a character lies in the range
when its UTF-8 bytes lie in one of the sequences. -/
namespace DocBase.Utf8

abbrev ByteRange := Nat × Nat

def bytes (n : Nat) : List Nat := ((Char.ofNat n).toString.toUTF8.toList).map UInt8.toNat

/-- The number of bytes of a code point. -/
def width (n : Nat) : Nat :=
  if n < 0x80 then 1 else if n < 0x800 then 2 else if n < 0x10000 then 3 else 4

def bytesOf (cs : List Char) : List Nat := cs.flatMap fun c => bytes c.toNat

def length (cs : List Char) : Nat := cs.foldl (fun n c => n + width c.toNat) 0

/-- The first point at which `lo` to `hi` has to be cut: at the surrogates, where the
number of bytes changes, or where trailing bytes do not run through all their values. -/
def cut? (lo hi : Nat) : Option (Nat × Nat) :=
  if lo < 0xE000 ∧ 0xD7FF < hi then some (0xD7FF, 0xE000)
  else
    match [0x7F, 0x7FF, 0xFFFF].find? fun m => lo ≤ m ∧ m < hi with
    | some m => some (m, m + 1)
    | none =>
      if hi ≤ 0x7F then none
      else [64, 4096, 262144].findSome? fun block =>
        if lo / block = hi / block then none
        else if lo % block ≠ 0 then
          some (lo / block * block + (block - 1), (lo / block + 1) * block)
        else if hi % block ≠ block - 1 then some (hi / block * block - 1, hi / block * block)
        else none

/-- The sequences for `lo` to `hi` in ascending order. Few cuts are ever needed. -/
def sequences : Nat → Nat → Nat → List (List ByteRange)
  | 0, _, _ => []
  | fuel + 1, lo, hi =>
    if hi < lo ∨ (0xD800 ≤ lo ∧ hi ≤ 0xDFFF) then []
    else match cut? lo hi with
      | some (a, b) => sequences fuel lo a ++ sequences fuel b hi
      | none => [(bytes lo).zip (bytes hi)]

def ofCodePoints (s : CodePoints) : List (List ByteRange) :=
  s.flatMap fun (lo, hi) => sequences 32 lo hi

/-- Neighbours with the same first range are gathered. -/
def groupHeads : List (List ByteRange) → List (ByteRange × List (List ByteRange))
  | [] => []
  | [] :: rest => groupHeads rest
  | (r :: tail) :: rest =>
    match groupHeads rest with
    | (r', tails) :: groups =>
      if r = r' then (r, tail :: tails) :: groups else (r, [tail]) :: (r', tails) :: groups
    | [] => [(r, [tail])]

end DocBase.Utf8
