/-! The ends of ranges. -/
namespace DocBase

inductive Bound (α : Type)
  | unbounded
  | included (a : α)
  | excluded (a : α)
  deriving DecidableEq

namespace Bound
variable {α : Type} [Ord α]

/-- As a lower end. -/
def admitsAbove (b : Bound α) (x : α) : Bool :=
  match b with
  | unbounded => true
  | included a => compare x a != .lt
  | excluded a => compare x a == .gt

/-- As an upper end. -/
def admitsBelow (b : Bound α) (x : α) : Bool :=
  match b with
  | unbounded => true
  | included a => compare x a != .gt
  | excluded a => compare x a == .lt

/-- Ends that nothing lies between, whatever there is: the lower one is above the upper one, or at
the same place, which one of them leaves out. -/
def crossed (lower upper : Bound α) : Bool :=
  match lower, upper with
  | unbounded, _ | _, unbounded => false
  | included a, included b => compare a b == .gt
  | included a, excluded b | excluded a, included b | excluded a, excluded b => compare a b != .lt

/-- Ends that an ordered map is not searched between: the lower one is above the upper one, or
both leave out the same place. -/
def reversed (lower upper : Bound α) : Bool :=
  match lower, upper with
  | unbounded, _ | _, unbounded => false
  | excluded a, excluded b => compare a b != .lt
  | included a, included b | included a, excluded b | excluded a, included b => compare a b == .gt

end Bound
end DocBase
