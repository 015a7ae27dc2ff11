import DocBase.Number.Binary64

/-! The nearest floating-point number to an exact quotient, ties to even. -/
namespace DocBase

/-- The whole number nearest to `n / d`, a tie going to the even neighbour. -/
def roundDiv (n d : Nat) : Nat :=
  let q := n / d
  let r := n % d
  if d < 2 * r then q + 1 else if 2 * r = d then q + q % 2 else q

namespace Binary64

/-- The power of two just below `n / d`, for positive `n` and `d`. -/
def floorLog2 (n d : Nat) : Int :=
  let l : Int := (n.log2 : Int) - d.log2
  let below := if 0 ≤ l then n < d * 2 ^ l.toNat else n * 2 ^ (-l).toNat < d
  if below then l - 1 else l

/-- Significands step by `2^e`; `e` never falls under the least unit. -/
def magnitudeOfRatio (n d : Nat) : Nat :=
  if n = 0 ∨ d = 0 then 0 else
  let e := max (-1074) (floorLog2 n d - 52)
  let q := if 0 ≤ e then roundDiv n (d * 2 ^ e.toNat) else roundDiv (n * 2 ^ (-e).toNat) d
  min topMagnitude ((e + 1074).toNat * 2 ^ (52 : Nat) + q)

def ofRatio (negative : Bool) (n d : Nat) : Binary64 := ofMagnitude negative (magnitudeOfRatio n d)

def ofInt (i : Int) : Binary64 := ofRatio (i < 0) i.natAbs 1

/-- The number nearest to `digits * 10 ^ e`. Exponents far outside the range are
settled by the count of digits alone. -/
def ofDecimal (negative : Bool) (digits : Nat) (e : Int) : Binary64 :=
  if digits = 0 then ofMagnitude negative 0 else
  if 400 < e + (digits.log2 * 3 / 10 : Nat) then ofMagnitude negative topMagnitude
  else if e + (digits.log2 + 1 : Nat) < -400 then ofMagnitude negative 0
  else if 0 ≤ e then ofRatio negative (digits * 10 ^ e.toNat) 1
  else ofRatio negative digits (10 ^ (-e).toNat)

end Binary64
end DocBase
