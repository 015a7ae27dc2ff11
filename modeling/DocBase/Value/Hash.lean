import DocBase.Value.Order

/-! What a value feeds into a hash, write by write: numbers that compare as equal feed the
same. -/
namespace DocBase

inductive HashItem
  | byte (n : Nat)
  | integer (n : Int64)
  | word (n : UInt64)
  | count (n : Nat)
  | text (s : String)
  deriving DecidableEq

namespace Value

/-- Whole floating-point numbers in the closed range of 64-bit integers hash as the
integer they truncate to. -/
def hashNumber (x : Binary64) : HashItem :=
  if x.isIntegral ∧ (Binary64.ofInt Int64.minValue.toInt).rank ≤ x.rank
      ∧ x.rank ≤ (Binary64.ofInt Int64.maxValue.toInt).rank then .integer x.truncate
  else .word x.bits

mutual

def hashItems : Value → List HashItem
  | null => [.byte 0]
  | bool b => [.byte 1, .byte b.toNat]
  | int n => [.byte 2, .integer n]
  | float x => [.byte 2, hashNumber x]
  | string s => [.byte 3, .text s]
  | array items => .byte 4 :: .count items.length :: hashElements items
  | object fields => .byte 5 :: .count fields.length :: hashFields fields

def hashElements : List Value → List HashItem
  | [] => []
  | v :: rest => hashItems v ++ hashElements rest

def hashFields : List (String × Value) → List HashItem
  | [] => []
  | (k, v) :: rest => .text k :: hashItems v ++ hashFields rest

end

end Value
end DocBase
