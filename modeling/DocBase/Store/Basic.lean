import DocBase.Store.Error
import DocBase.Store.Range

/-! What every store of records can do. A record is a string of bytes under an
identifier; each operation gives its result and the store after it. -/
namespace DocBase

abbrev Bytes := ByteArray

structure StoreStats where
  records : Nat := 0
  bytes : Nat := 0
  reads : Nat := 0
  writes : Nat := 0
  deletes : Nat := 0
  scans : Nat := 0
  deriving DecidableEq

/-- How often a store was called. -/
structure OpCounts where
  reads : Nat := 0
  writes : Nat := 0
  deletes : Nat := 0
  scans : Nat := 0
  deriving DecidableEq

namespace OpCounts

def read (c : OpCounts) : OpCounts := { c with reads := c.reads + 1 }
def write (c : OpCounts) : OpCounts := { c with writes := c.writes + 1 }
def delete (c : OpCounts) : OpCounts := { c with deletes := c.deletes + 1 }
def scan (c : OpCounts) : OpCounts := { c with scans := c.scans + 1 }

def stats (c : OpCounts) (records bytes : Nat) : StoreStats :=
  { records, bytes, reads := c.reads, writes := c.writes, deletes := c.deletes, scans := c.scans }

end OpCounts

class RecordStore (σ : Type) where
  get : String → σ → Except StoreError (Option Bytes) × σ
  put : String → Bytes → σ → Except StoreError Unit × σ
  /-- Tells whether there was a record. -/
  delete : String → σ → Except StoreError Bool × σ
  /-- The identifiers of the range that are there right now, ascending. -/
  scan : ScanRange → σ → Except StoreError (List String) × σ
  /-- Closing twice does nothing more. -/
  close : σ → Except StoreError Unit × σ
  isClosed : σ → Bool
  size : σ → Except StoreError Nat
  stats : σ → StoreStats

/-- The limits that a store checks before it takes a record: the counts that it would
hold then must not exceed them. -/
def checkLimits (maxRecords maxBytes : Option Nat) (records bytes : Nat) : Except StoreError Unit :=
  match maxRecords, maxBytes with
  | some m, _ =>
    if m < records then .error (.capacity (.records m)) else checkBytes maxBytes
  | none, b => checkBytes b
where
  checkBytes : Option Nat → Except StoreError Unit
    | some m => if m < bytes then .error (.capacity (.bytes m)) else .ok ()
    | none => .ok ()

/-- A scan under way: the identifiers still to come. The record of each is read when
it is reached, and those without one by then are passed over. -/
structure ScanCursor where
  pending : List String

namespace ScanCursor
variable {σ : Type} [RecordStore σ]

/-- The next record, or a failure, after which the scan is over. -/
def nextOf : List String → σ → Option (Except StoreError (String × Bytes)) × ScanCursor × σ
  | [], s => (none, ⟨[]⟩, s)
  | id :: rest, s =>
    match RecordStore.get id s with
    | (.ok (some record), s) => (some (.ok (id, record)), ⟨rest⟩, s)
    | (.ok none, s) => nextOf rest s
    | (.error e, s) => (some (.error e), ⟨[]⟩, s)

def next (c : ScanCursor) (s : σ) : Option (Except StoreError (String × Bytes)) × ScanCursor × σ :=
  nextOf c.pending s

/-- All that is left: the records before the first failure, that failure, and the store. -/
def drain : List String → σ → List (String × Bytes) × Option StoreError × σ
  | [], s => ([], none, s)
  | id :: rest, s =>
    match RecordStore.get id s with
    | (.ok (some record), s) =>
      let (records, e, s) := drain rest s
      ((id, record) :: records, e, s)
    | (.ok none, s) => drain rest s
    | (.error e, s) => ([], some e, s)

end ScanCursor
end DocBase
