import DocBase.Store.Basic

/-! A cache of records that lets go of those it took in first. -/
namespace DocBase.Log

structure Cache where
  capacity : Nat
  records : Keyed String Bytes := []
  /-- The identifiers in the order in which they came, also of records gone since. -/
  queue : List String := []

namespace Cache

def get? (c : Cache) (id : String) : Option Bytes := c.records.get? id

/-- Lets records go from the front of the queue until no more than the capacity are left. -/
def evict (capacity : Nat) : List String → Keyed String Bytes → List String × Keyed String Bytes
  | [], records => ([], records)
  | id :: rest, records =>
    if capacity < records.length then evict capacity rest (records.erase id)
    else (id :: rest, records)

def insert (c : Cache) (id : String) (record : Bytes) : Cache :=
  if c.capacity = 0 then c
  else
    let queue := if c.records.contains id then c.queue else c.queue ++ [id]
    let (queue, records) := evict c.capacity queue (c.records.insert id record)
    let queue :=
      if c.capacity * 2 < queue.length then queue.filter fun id => records.contains id else queue
    { c with records, queue }

def remove (c : Cache) (id : String) : Cache := { c with records := c.records.erase id }

def clear (c : Cache) : Cache := { c with records := [], queue := [] }

end Cache
end DocBase.Log
