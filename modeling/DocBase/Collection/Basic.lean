import DocBase.Collection.Update
import DocBase.Collection.Error
import DocBase.Index

/-! Collections: documents in a store, under a schema and with indexes over their fields. -/
namespace DocBase

/-- How often documents were changed and queries run. -/
structure CollectionCounts where
  inserts : Nat := 0
  updates : Nat := 0
  removes : Nat := 0
  queries : Nat := 0
  deriving DecidableEq

structure Collection (σ : Type) where
  name : String
  store : σ
  schema : Option Schema := none
  /-- The indexes by their fields. -/
  indexes : Keyed String Index := []
  /-- The most bytes that an encoded document may have. -/
  maxDocumentSize : Nat := 16 * 1024 * 1024
  counts : CollectionCounts := {}

structure CollectionStats where
  name : String
  documents : Nat
  indexes : Nat
  counts : CollectionCounts
  store : StoreStats

/-- What an insertion takes from outside: the time in milliseconds, and an identifier
that was never given before. -/
structure Stamp where
  now : Int64
  freshId : String

/-- An operation on a collection. Also one that fails leaves a collection behind. -/
abbrev CollectionAction (σ α : Type) := ExceptT CollectionError (StateM (Collection σ)) α

namespace Collection
variable {σ : Type} [RecordStore σ]

def maxIdLength : Nat := 1024

def onStore {α : Type} (f : σ → Except StoreError α × σ) : CollectionAction σ α := fun c =>
  let (r, s) := f c.store
  (r.mapError .store, { c with store := s })

def readRecord (id : String) : CollectionAction σ (Option Bytes) := onStore (RecordStore.get id)

def writeRecord (id : String) (record : Bytes) : CollectionAction σ Unit :=
  onStore (RecordStore.put id record)

def decode (id : String) (record : Bytes) : Except CollectionError Document :=
  (Document.decode record).mapError (.corrupt id)

def checkId (id : String) : Except CollectionError Unit :=
  if id.isEmpty then .error (.validation (.constraint Document.idField .emptyId))
  else if maxIdLength < id.utf8ByteSize then
    .error (.validation (.constraint Document.idField .longId))
  else .ok ()

/-- The record of a document that can be written in full. -/
def encode (limit : Nat) (d : Document) : Except CollectionError Bytes :=
  match d.nonFinitePath with
  | some path => .error (.validation (.constraint path .nonFinite))
  | none =>
    let record := d.encode
    if limit < record.size then .error (.tooLarge record.size limit) else .ok record

/-- The document as the schema wants it, with defaults filled in. -/
def fitSchema (c : Collection σ) (d : Document) : Except CollectionError Document :=
  match c.schema with
  | some s => (s.prepare d).mapError .validation
  | none => .ok d

def reindex (id : String) (d : Document) (c : Collection σ) : Collection σ :=
  { c with indexes := c.indexes.map fun (field, ix) => (field, ix.add id d) }

def unindex (id : String) (c : Collection σ) : Collection σ :=
  { c with indexes := c.indexes.map fun (field, ix) => (field, ix.remove id) }

def count (f : CollectionCounts → CollectionCounts) (c : Collection σ) : Collection σ :=
  { c with counts := f c.counts }

/-- The new document under its identifier, and its record. -/
def prepareInsert (c : Collection σ) (stamp : Stamp) (d : Document) :
    Except CollectionError (String × Document × Bytes) := do
  let d := d.stripReserved
  d.id.forM checkId
  let id := d.id.getD stamp.freshId
  let d ← c.fitSchema { d with id := none }
  let d := { d with id := some id, createdAt := some stamp.now, updatedAt := some stamp.now }
  return (id, d, ← encode c.maxDocumentSize d)

/-- The stored document is left alone when there is one already. -/
def insert (stamp : Stamp) (d : Document) : CollectionAction σ Document := do
  let (id, d, record) ← prepareInsert (← get) stamp d
  if (← readRecord id).isSome then throw (.duplicateKey id)
  writeRecord id record
  modify fun c => (c.reindex id d).count fun n => { n with inserts := n.inserts + 1 }
  return d

/-- One after another; those before a failure stay. -/
def insertMany (stamps : Nat → Stamp) : Nat → List Document → CollectionAction σ (List Document)
  | _, [] => return []
  | i, d :: rest => do
    let d ← insert (stamps i) d
    return d :: (← insertMany stamps (i + 1) rest)

def get? (id : String) : CollectionAction σ (Option Document) := do
  match ← readRecord id with
  | some record => return some (← decode id record)
  | none => return none

def contains (id : String) : CollectionAction σ Bool := do
  return (← get? id).isSome

/-- The changed document under the same identifier and with the same time of creation. -/
def prepareUpdate (c : Collection σ) (now : Int64) (id : String) (u : Update) (current : Document) :
    Except CollectionError (Document × Bytes) := do
  let d ← (u.apply current).mapError .validation
  let d ← c.fitSchema d
  let before := current.updatedAt.getD 0
  let d := { d with
    id := some id
    createdAt := current.createdAt
    updatedAt := some (if now < before then before else now) }
  return (d, ← encode c.maxDocumentSize d)

/-- The time of the last change never goes back. -/
def update (now : Int64) (id : String) (u : Update) : CollectionAction σ Document := do
  u.check.mapError CollectionError.validation
  let some record ← readRecord id | throw (.notFound id)
  let current ← decode id record
  let (d, record) ← prepareUpdate (← get) now id u current
  writeRecord id record
  modify fun c => (c.reindex id d).count fun n => { n with updates := n.updates + 1 }
  return d

/-- Tells whether there was such a document. -/
def remove (id : String) : CollectionAction σ Bool := do
  let found ← onStore (RecordStore.delete id)
  if found then
    modify fun c => (c.unindex id).count fun n => { n with removes := n.removes + 1 }
  return found

def size (c : Collection σ) : Except CollectionError Nat :=
  (RecordStore.size c.store).mapError .store

def isEmpty (c : Collection σ) : Except CollectionError Bool := c.size.map (· == 0)

def stats (c : Collection σ) : CollectionStats :=
  let store := RecordStore.stats c.store
  { name := c.name, documents := store.records, indexes := c.indexes.length,
    counts := c.counts, store }

def close : CollectionAction σ Unit := do
  onStore RecordStore.close
  modify fun c => { c with indexes := [] }

def isClosed (c : Collection σ) : Bool := RecordStore.isClosed c.store

def text (c : Collection σ) : String :=
  "Collection \x7b name: " ++ Text.quoted c.name ++ ", indexes: "
    ++ Text.list (c.indexes.keys.map Text.quoted) ++ ", closed: " ++ toString c.isClosed ++ " \x7d"

end Collection
end DocBase
