import DocBase.Store.Basic
import DocBase.Store.Config

/-! Stores that keep their records in memory. -/
namespace DocBase

structure MemoryStore where
  records : Keyed String Bytes := []
  totalBytes : Nat := 0
  closed : Bool := false
  counts : OpCounts := {}
  maxRecords : Option Nat := none
  maxBytes : Option Nat := none

namespace MemoryStore

def open_ (c : StoreConfig) : MemoryStore := { maxRecords := c.maxRecords, maxBytes := c.maxBytes }

/-- The operation on an open store; a closed one refuses it. -/
def whenOpen {α : Type} (s : MemoryStore) (f : Except StoreError α × MemoryStore) :
    Except StoreError α × MemoryStore :=
  if s.closed then (.error .closed, s) else f

def get (id : String) (s : MemoryStore) : Except StoreError (Option Bytes) × MemoryStore :=
  s.whenOpen (.ok (s.records.get? id), { s with counts := s.counts.read })

def put (id : String) (record : Bytes) (s : MemoryStore) : Except StoreError Unit × MemoryStore :=
  s.whenOpen <|
    let previous := s.records.get? id
    let bytes := s.totalBytes - (previous.map (·.size)).getD 0 + record.size
    let count := s.records.length + if previous.isNone then 1 else 0
    match checkLimits s.maxRecords s.maxBytes count bytes with
    | .error e => (.error e, s)
    | .ok () =>
      (.ok (), { s with
        records := s.records.insert id record
        totalBytes := bytes
        counts := s.counts.write })

def delete (id : String) (s : MemoryStore) : Except StoreError Bool × MemoryStore :=
  s.whenOpen <|
    let s := { s with counts := s.counts.delete }
    match s.records.get? id with
    | none => (.ok false, s)
    | some record =>
      (.ok true, { s with
        records := s.records.erase id
        totalBytes := s.totalBytes - record.size })

def scan (r : ScanRange) (s : MemoryStore) : Except StoreError (List String) × MemoryStore :=
  s.whenOpen (.ok (r.walk s.records.keys), { s with counts := s.counts.scan })

def close (s : MemoryStore) : Except StoreError Unit × MemoryStore :=
  (.ok (), { s with closed := true, records := [], totalBytes := 0 })

def size (s : MemoryStore) : Except StoreError Nat :=
  if s.closed then .error .closed else .ok s.records.length

instance : RecordStore MemoryStore where
  get := get
  put := put
  delete := delete
  scan := scan
  close := close
  isClosed := closed
  size := size
  stats s := s.counts.stats s.records.length s.totalBytes

end MemoryStore
end DocBase
