/-! Hexadecimal text. -/
namespace DocBase.Text

/-- What a digit counts, in either case. -/
def hexValue (c : Char) : Option Nat :=
  if '0' ≤ c ∧ c ≤ '9' then some (c.toNat - '0'.toNat)
  else if 'a' ≤ c ∧ c ≤ 'f' then some (c.toNat - 'a'.toNat + 10)
  else if 'A' ≤ c ∧ c ≤ 'F' then some (c.toNat - 'A'.toNat + 10)
  else none

/-- The number that digits spell. -/
def natOfHex? (cs : List Char) : Option Nat :=
  cs.foldlM (fun n c => (hexValue c).map (n * 16 + ·)) 0

def hexChars (n : Nat) : List Char := Nat.toDigits 16 n

/-- With zeros in front, up to `width` digits. -/
def hexPadded (width n : Nat) : String :=
  String.ofList (List.replicate (width - (hexChars n).length) '0' ++ hexChars n)

/-- Two digits a byte. -/
def hexOfBytes (bytes : ByteArray) : String :=
  String.join (bytes.data.toList.map fun b => hexPadded 2 b.toNat)

def bytesOfHex? (s : String) : Option ByteArray := do
  return ⟨(← pairs s.toList).toArray⟩
where
  pairs : List Char → Option (List UInt8)
    | [] => some []
    | [_] => none
    | a :: b :: rest => do
      return UInt8.ofNat ((← hexValue a) * 16 + (← hexValue b)) :: (← pairs rest)

end DocBase.Text
