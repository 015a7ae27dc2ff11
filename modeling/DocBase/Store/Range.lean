import DocBase.Bound
import DocBase.Keyed

/-! Which identifiers a scan visits. -/
namespace DocBase

inductive ScanRange
  | all
  | prefixed (p : String)
  | between (start stop : Bound String)

namespace ScanRange

def lowerBound : ScanRange → Bound String
  | all => .unbounded
  | prefixed p => .included p
  | between start _ => start

/-- Holds of the members, and fails once an ascending walk has left the range. -/
def notPast (r : ScanRange) (id : String) : Bool :=
  match r with
  | all => true
  | prefixed p => p.toList.isPrefixOf id.toList
  | between _ stop => stop.admitsBelow id

def contains (r : ScanRange) (id : String) : Bool := r.lowerBound.admitsAbove id && r.notPast id

/-- The walk over ascending identifiers from the lower bound until it leaves the range. -/
def walk (r : ScanRange) (ids : List String) : List String :=
  (ids.dropWhile fun id => !r.lowerBound.admitsAbove id).takeWhile r.notPast

end ScanRange
end DocBase
