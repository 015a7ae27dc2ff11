import DocBase.Value.Basic

/-! The order of values: by type rank first, then by content, numbers by their size. -/
namespace DocBase

/-- Compares after rounding the whole number and lets truncation settle a tie. -/
def compareIntFloat (n : Int64) (x : Binary64) : Ordering :=
  ((Binary64.ofInt n.toInt).compare x).then (compare n.toInt x.truncate.toInt)

namespace Value

mutual

protected def compare : Value → Value → Ordering
  | null, null => .eq
  | bool a, bool b => compare a.toNat b.toNat
  | int a, int b => compare a.toInt b.toInt
  | float a, float b => a.compare b
  | int a, float b => compareIntFloat a b
  | float a, int b => (compareIntFloat b a).swap
  | string a, string b => compare a b
  | array a, array b => compareItems a b
  | object a, object b => compareFields a b
  | a, b => compare a.typeRank b.typeRank

def compareItems : List Value → List Value → Ordering
  | [], [] => .eq
  | [], _ :: _ => .lt
  | _ :: _, [] => .gt
  | a :: as, b :: bs => (Value.compare a b).then (compareItems as bs)

def compareFields : List (String × Value) → List (String × Value) → Ordering
  | [], [] => .eq
  | [], _ :: _ => .lt
  | _ :: _, [] => .gt
  | (k, a) :: as, (l, b) :: bs =>
    ((compare k l).then (Value.compare a b)).then (compareFields as bs)

end

instance : Ord Value := ⟨Value.compare⟩

/-- Equality under the order: 1 and 1.0 are the same, and so are both zeros. -/
def same (a b : Value) : Bool := Value.compare a b == .eq

/-- Values of different type ranks do not compare. -/
def compare? (a b : Value) : Option Ordering :=
  if a.typeRank = b.typeRank then some (Value.compare a b) else none

end Value
end DocBase
