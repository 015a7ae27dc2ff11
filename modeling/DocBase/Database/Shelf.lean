import DocBase.Collection.Query
import DocBase.Store.Driver

/-! Everything that databases share: the disk, and the collections that were opened on it. -/
namespace DocBase

/-- The number of a collection on the shelf, in the order of opening. -/
abbrev Handle := Nat

/-- Collections that were closed or dropped stay on the shelf, closed. -/
structure Shelf where
  disk : Disk := {}
  opened : Array (Collection Backend) := #[]

namespace Shelf

def get? (s : Shelf) (h : Handle) : Option (Collection Backend) := s.opened[h]?

/-- Puts a newly opened collection on the shelf. -/
def add (s : Shelf) (c : Collection Backend) : Handle × Shelf :=
  (s.opened.size, { s with opened := s.opened.push c })

/-- What is left of a handle that was never given out. -/
def nowhere : Collection Backend :=
  { name := "", store := .memory { closed := true } }

/-- An operation on the collection behind a handle. It reads its files from the disk and
writes them there. -/
def on {α : Type} (h : Handle) (f : Collection Backend → α × Collection Backend) (s : Shelf) :
    α × Shelf :=
  match s.get? h with
  | none => ((f nowhere).1, s)
  | some c =>
    let (r, c) := f { c with store := c.store.load s.disk }
    let (store, disk) := c.store.flush s.disk
    (r, { disk, opened := s.opened.setIfInBounds h { c with store } })

end Shelf
end DocBase
