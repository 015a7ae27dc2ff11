import DocBase.Store.Log.Replay
import DocBase.Store.Log.Cache
import DocBase.Store.Config
import DocBase.Digest.Crc32

/-! Stores that append every change to a log. The log is read back when the store is
opened, and gives way to one of the live records alone when too much of it is dead. -/
namespace DocBase

structure LogStore where
  /-- The file as it is now, which also others may have edited. -/
  file : Bytes
  /-- Why no other file can take its place, if so. -/
  obstacle : Option StoreError := none
  /-- The file that another has taken the place of, as it was left. -/
  left : Option Bytes := none
  isOpen : Bool := true
  index : Keyed String Log.Slot
  /-- Where the store takes the end of its log to be. -/
  stop : Nat
  liveBytes : Nat
  deadBytes : Nat
  cache : Log.Cache
  counts : OpCounts := {}
  maxRecords : Option Nat
  maxBytes : Option Nat

namespace LogStore
open Log

/-- So many dead bytes are let be. -/
def compactionThreshold : Nat := 4 * 1024 * 1024

/-- A tail in which no frame can be read is cut off. -/
def open_ (c : StoreConfig) (file : Bytes) : LogStore :=
  let r := replay Crc32.ofBytes file
  { file := if r.stop < file.size then file.extract 0 r.stop else file
    index := r.index
    stop := r.stop
    liveBytes := r.liveBytes
    deadBytes := r.deadBytes
    cache := { capacity := c.cacheSize }
    maxRecords := c.maxRecords
    maxBytes := c.maxBytes }

def shortRead : StoreError := .io "the file ends before the record does"

def readSlot (file : Bytes) (slot : Slot) : Except StoreError Bytes :=
  if slot.length ≠ 0 ∧ file.size < slot.offset + slot.length then .error shortRead
  else .ok (file.extract slot.offset (slot.offset + slot.length))

def whenOpen {α : Type} (s : LogStore) (f : Except StoreError α × LogStore) :
    Except StoreError α × LogStore :=
  if s.isOpen then f else (.error .closed, s)

def get (id : String) (s : LogStore) : Except StoreError (Option Bytes) × LogStore :=
  s.whenOpen <|
    let s := { s with counts := s.counts.read }
    match s.index.get? id with
    | none => (.ok none, s)
    | some slot =>
      match s.cache.get? id with
      | some record => (.ok (some record), s)
      | none =>
        match readSlot s.file slot with
        | .ok record => (.ok (some record), { s with cache := s.cache.insert id record })
        | .error e => (.error e, s)

/-- The live records one after another as a log of their own. -/
def liveLog (file : Bytes) :
    List (String × Slot) → Bytes → List (String × Slot) →
    Except StoreError (Bytes × List (String × Slot))
  | [], log, index => .ok (log, index.reverse)
  | (id, slot) :: rest, log, index => do
    let data ← readSlot file slot
    let f : Frame := { op := .put, id, data }
    let bytes ← f.encode Crc32.ofBytes
    liveLog file rest (log ++ bytes)
      ((id, { offset := (Slot.ofFrame log.size f).offset, length := slot.length,
              frameSize := bytes.size }) :: index)

/-- Puts a log of the live records in the place of the present one. A failure leaves that
as it was. -/
def compact (s : LogStore) : Except StoreError Unit × LogStore :=
  s.whenOpen <|
    match s.obstacle, liveLog s.file s.index .empty [] with
    | some e, _ => (.error e, s)
    | none, .error e => (.error e, s)
    | none, .ok (log, index) =>
      (.ok (), { s with
        file := log
        left := s.left.or (some s.file)
        index
        stop := log.size
        deadBytes := 0 })

def compactIfDue (s : LogStore) : LogStore :=
  if compactionThreshold ≤ s.deadBytes ∧ s.liveBytes < s.deadBytes then s.compact.2 else s

/-- Puts a frame at the end of the file. -/
def append (s : LogStore) (bytes : Bytes) : LogStore :=
  { s with file := s.file ++ bytes, stop := s.stop + bytes.size }

def put (id : String) (record : Bytes) (s : LogStore) : Except StoreError Unit × LogStore :=
  if UInt32.size ≤ record.size then (.error (.capacity (.record record.size)), s) else
  s.whenOpen <|
    let previous := s.index.get? id
    let bytes := s.liveBytes - (previous.map (·.length)).getD 0 + record.size
    let count := s.index.length + if previous.isNone then 1 else 0
    match checkLimits s.maxRecords s.maxBytes count bytes with
    | .error e => (.error e, s)
    | .ok () =>
      let f : Frame := { op := .put, id, data := record }
      match f.encode Crc32.ofBytes with
      | .error e => (.error e, s)
      | .ok encoded =>
        (.ok (), compactIfDue { s.append encoded with
          index := s.index.insert id (.ofFrame s.stop f)
          liveBytes := bytes
          deadBytes := s.deadBytes + (previous.map (·.frameSize)).getD 0
          cache := s.cache.insert id record
          counts := s.counts.write })

def delete (id : String) (s : LogStore) : Except StoreError Bool × LogStore :=
  s.whenOpen <|
    let s := { s with counts := s.counts.delete }
    match s.index.get? id with
    | none => (.ok false, s)
    | some old =>
      match Frame.encode Crc32.ofBytes { op := .delete, id, data := .empty } with
      | .error e => (.error e, s)
      | .ok encoded =>
        (.ok true, compactIfDue { s.append encoded with
          index := s.index.erase id
          liveBytes := s.liveBytes - old.length
          deadBytes := s.deadBytes + old.frameSize + encoded.size
          cache := s.cache.remove id })

def scan (r : ScanRange) (s : LogStore) : Except StoreError (List String) × LogStore :=
  s.whenOpen (.ok (r.walk s.index.keys), { s with counts := s.counts.scan })

def close (s : LogStore) : Except StoreError Unit × LogStore :=
  if s.isOpen then
    (.ok (), { s with
      isOpen := false
      index := []
      liveBytes := 0
      deadBytes := 0
      cache := s.cache.clear })
  else (.ok (), s)

def size (s : LogStore) : Except StoreError Nat :=
  if s.isOpen then .ok s.index.length else .error .closed

instance : RecordStore LogStore where
  get := get
  put := put
  delete := delete
  scan := scan
  close := close
  isClosed s := !s.isOpen
  size := size
  stats s := s.counts.stats s.index.length s.liveBytes

end LogStore
end DocBase
