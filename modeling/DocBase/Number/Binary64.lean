/-! Binary floating point as its bit pattern. A finite number is an integer
count of `2^-1074`, so order and truncation are integer arithmetic. -/
namespace DocBase

structure Binary64 where
  bits : UInt64
  deriving DecidableEq, Inhabited, Repr

namespace Binary64

/-- Powers are those of the core library, whatever other powers there are. -/
scoped instance (priority := high) natPow : Pow Nat Nat := instPowNat

/-- The pattern without its sign bit. -/
def magnitude (x : Binary64) : Nat := x.bits.toNat % 2 ^ (63 : Nat)

def negative (x : Binary64) : Bool := 2 ^ (63 : Nat) ≤ x.bits.toNat

/-- The magnitude of an infinity; greater ones are NaNs. -/
def topMagnitude : Nat := 2047 * 2 ^ (52 : Nat)

def isNaN (x : Binary64) : Bool := topMagnitude < x.magnitude

def isFinite (x : Binary64) : Bool := x.magnitude < topMagnitude

def ofMagnitude (negative : Bool) (m : Nat) : Binary64 :=
  ⟨UInt64.ofNat (if negative then 2 ^ (63 : Nat) + m else m)⟩

def zero : Binary64 := ⟨0⟩
def infinity : Binary64 := ofMagnitude false topMagnitude
def nan : Binary64 := ofMagnitude false (topMagnitude + 2 ^ (51 : Nat))

def neg (x : Binary64) : Binary64 := ofMagnitude (!x.negative) x.magnitude

/-- How many `2^-1074` a finite magnitude stands for. -/
def unitsOf (m : Nat) : Nat :=
  if m < 2 ^ (52 : Nat) then m
  else (m % 2 ^ (52 : Nat) + 2 ^ (52 : Nat)) * 2 ^ (m / 2 ^ (52 : Nat) - 1)

def units (x : Binary64) : Int :=
  if x.negative then -(unitsOf x.magnitude : Int) else unitsOf x.magnitude

/-- One, counted in units. -/
def one : Nat := 2 ^ (1074 : Nat)

/-- The place in the number line, NaNs beyond the infinities of their sign. Both
zeros stand at 0. -/
def rank (x : Binary64) : Int :=
  if x.negative then -(x.magnitude : Int) else x.magnitude

protected def compare (x y : Binary64) : Ordering := compare x.rank y.rank

/-- The IEEE relation `<`: NaN is below nothing and above nothing. -/
def below (x y : Binary64) : Bool := !x.isNaN && !y.isNaN && x.rank < y.rank

/-- No fractional part. Infinities and NaNs are not integral. -/
def isIntegral (x : Binary64) : Bool := x.isFinite && unitsOf x.magnitude % one == 0

def clamp (lo hi n : Int) : Int := if n < lo then lo else if hi < n then hi else n

/-- The integer towards zero, held at the ends of the 64-bit range; NaN gives 0. -/
def truncate (x : Binary64) : Int64 :=
  if x.isNaN then 0 else
  let whole : Int := unitsOf x.magnitude / one
  Int64.ofInt (clamp Int64.minValue.toInt Int64.maxValue.toInt (if x.negative then -whole else whole))

end Binary64
end DocBase
