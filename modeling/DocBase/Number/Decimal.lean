import DocBase.Number.Rounding

/-! Decimal text of floating-point numbers: the fewest digits that read back,
and two ways of laying them out. -/
namespace DocBase
open scoped Binary64

/-- The number `digits * 10 ^ exponent`. -/
structure Decimal where
  digits : Nat
  exponent : Int
  deriving DecidableEq, Repr

namespace Decimal

/-- The same number without zeros at the end of its digits. -/
def trim (d : Decimal) : Decimal :=
  if h : d.digits ≠ 0 ∧ d.digits % 10 = 0 then
    have : d.digits / 10 < d.digits := Nat.div_lt_self (Nat.pos_of_ne_zero h.1) (by decide)
    trim ⟨d.digits / 10, d.exponent + 1⟩
  else d
termination_by d.digits

/-- The largest `k` with `10^k ≤ n / d`, for positive `n` and `d`. -/
def floorLog10 (n d : Nat) : Int :=
  let reaches (k : Int) : Bool := if 0 ≤ k then d * 10 ^ k.toNat ≤ n else d ≤ n * 10 ^ (-k).toNat
  let k := Binary64.floorLog2 n d * 30103 / 100000
  if reaches (k + 1) then k + 1 else if reaches k then k else k - 1

/-- Whether the decimal rounds to the floating-point magnitude `m`. -/
def readsAs (m : Nat) (d : Decimal) : Bool :=
  (Binary64.ofDecimal false d.digits d.exponent).magnitude == m

/-- The best decimal for the magnitude `m` that is a multiple of `10 ^ p`: of the
two multiples around `n / d` that read back, the nearer, a tie going to even. -/
def nearestOnGrid (m n d : Nat) (p : Int) : Option Decimal :=
  let num := if 0 ≤ p then n else n * 10 ^ (-p).toNat
  let den := if 0 ≤ p then d * 10 ^ p.toNat else d
  let low : Decimal := ⟨num / den, p⟩
  let high : Decimal := ⟨num / den + 1, p⟩
  match low.readsAs m, high.readsAs m with
  | true, true => some ⟨roundDiv num den, p⟩
  | true, false => some low
  | false, true => some high
  | false, false => none

/-- The shortest decimal that reads back as the finite magnitude `m`. -/
def shortest (m : Nat) : Decimal :=
  if m = 0 then ⟨0, 0⟩ else
  let n := Binary64.unitsOf m
  let top := floorLog10 n Binary64.one
  let found := (List.range 17).findSome? fun (c : Nat) => nearestOnGrid m n Binary64.one (top - c)
  (found.getD ⟨n * 5 ^ (1074 : Nat), -1074⟩).trim

/-- How digits become text: which exponents of the leading digit are written
without an exponent (`none`: all of them), and what follows a whole number. -/
structure Layout where
  plain : Option (Int × Int)
  whole : String

def Layout.isPlain (l : Layout) (e : Int) : Bool :=
  match l.plain with
  | none => true
  | some (lo, hi) => lo ≤ e && e ≤ hi

def zeros (n : Int) : String := String.ofList (List.replicate n.toNat '0')

/-- The digits of `d` laid out by `l`. -/
def text (l : Layout) (d : Decimal) : String :=
  if d.digits = 0 then "0" ++ l.whole else
  let ds := d.digits.repr.toList
  let point : Int := ds.length + d.exponent
  if l.isPlain (point - 1) then
    if 0 ≤ d.exponent then String.ofList ds ++ zeros d.exponent ++ l.whole
    else if 0 < point then
      String.ofList (ds.take point.toNat) ++ "." ++ String.ofList (ds.drop point.toNat)
    else "0." ++ zeros (-point) ++ String.ofList ds
  else
    let fraction := if ds.length ≤ 1 then "" else "." ++ String.ofList (ds.drop 1)
    let sign := if point - 1 < 0 then "-" else "+"
    String.ofList (ds.take 1) ++ fraction ++ "e" ++ sign ++ (point - 1).natAbs.repr

end Decimal

namespace Binary64

def text (l : Decimal.Layout) (x : Binary64) : String :=
  (if x.negative then "-" else "") ++ (Decimal.shortest x.magnitude).text l

end Binary64
end DocBase
