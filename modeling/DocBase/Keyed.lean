import DocBase.Bound

/-! Entries in ascending order of their keys. Texts are ordered by code points, which is
the order of their UTF-8 bytes. -/
namespace DocBase

abbrev Keyed (κ α : Type) := List (κ × α)

namespace Keyed
variable {κ α β : Type} [Ord κ]

def get? (k : κ) : Keyed κ α → Option α
  | [] => none
  | (k', v) :: rest =>
    match compare k k' with
    | .lt => none
    | .eq => some v
    | .gt => get? k rest

/-- An entry whose key is already there keeps that key and takes the new value. -/
def insert (k : κ) (v : α) : Keyed κ α → Keyed κ α
  | [] => [(k, v)]
  | (k', v') :: rest =>
    match compare k k' with
    | .lt => (k, v) :: (k', v') :: rest
    | .eq => (k', v) :: rest
    | .gt => (k', v') :: insert k v rest

def erase (k : κ) : Keyed κ α → Keyed κ α
  | [] => []
  | (k', v') :: rest =>
    match compare k k' with
    | .lt => (k', v') :: rest
    | .eq => rest
    | .gt => (k', v') :: erase k rest

def contains (k : κ) (m : Keyed κ α) : Bool := (m.get? k).isSome

/-- Of entries with equal keys the last one gives the value. -/
def ofList (entries : List (κ × α)) : Keyed κ α :=
  entries.foldl (fun m (k, v) => m.insert k v) []

/-- The entries between two ends, unless these are the wrong way round. -/
def range? (lower upper : Bound κ) (m : Keyed κ α) : Option (Keyed κ α) :=
  if lower.reversed upper then none
  else some (m.filter fun (k, _) => lower.admitsAbove k && upper.admitsBelow k)

def keys (m : Keyed κ α) : List κ := m.map Prod.fst

def values (m : Keyed κ α) : List α := m.map Prod.snd

end Keyed

end DocBase
