import DocBase.Store.Memory
import DocBase.Store.Log.Store
import DocBase.Store.Log.Location
import DocBase.Store.Disk

/-! The kinds of stores, and opening them by the name of their kind. -/
namespace DocBase

/-- A store of either kind; one with a log knows the path that it was opened at, and has
a file open. -/
inductive Backend
  | memory (s : MemoryStore)
  | log (path : String) (file : FileId) (s : LogStore)

namespace Backend

def lift {α : Type} (onMemory : MemoryStore → α × MemoryStore) (onLog : LogStore → α × LogStore) :
    Backend → α × Backend
  | memory s => let (r, s) := onMemory s; (r, memory s)
  | log path file s => let (r, s) := onLog s; (r, log path file s)

instance : RecordStore Backend where
  get id := lift (RecordStore.get id) (RecordStore.get id)
  put id record := lift (RecordStore.put id record) (RecordStore.put id record)
  delete id := lift (RecordStore.delete id) (RecordStore.delete id)
  scan r := lift (RecordStore.scan r) (RecordStore.scan r)
  close := lift RecordStore.close RecordStore.close
  isClosed
    | memory s => RecordStore.isClosed s
    | log _ _ s => RecordStore.isClosed s
  size
    | memory s => RecordStore.size s
    | log _ _ s => RecordStore.size s
  stats
    | memory s => RecordStore.stats s
    | log _ _ s => RecordStore.stats s

/-- The store with its file as it is on the disk now. -/
def load (d : Disk) : Backend → Backend
  | log path file s =>
    if s.isOpen then
      let obstacle := match d.canReplace (Log.compactPathOf path) path with
        | .error e => some e.toStoreError
        | .ok () => none
      log path file { s with file := d.read file, obstacle, left := none }
    else log path file s
  | memory s => memory s

/-- What the store has written is put on the disk, in a new file if it has compacted its
log. A closed store writes no more. -/
def flush (d : Disk) : Backend → Backend × Disk
  | log path file s =>
    if s.isOpen then
      match s.left with
      | none => (log path file s, d.write file s.file)
      | some bytes =>
        let (renewed, d) := (d.write file bytes).replace path s.file
        (log path renewed s, d)
    else (log path file s, d)
  | memory s => (memory s, d)

end Backend

inductive StoreDriver
  | memory
  | log
  deriving DecidableEq, Repr

namespace StoreDriver

def name : StoreDriver → String
  | memory => "memory"
  | log => "log"

/-- Opens the log at a path, below directories that are made if need be. -/
def openLog (path : String) (c : StoreConfig) (d : Disk) : Except PathFault Backend × Disk :=
  match d.makeDirectories (Log.directoryOf path) with
  | (.error e, d) => (.error e, d)
  | (.ok (), d) =>
    match d.openFile path with
    | (.error e, d) => (.error e, d)
    | (.ok file, d) =>
      let s := LogStore.open_ c (d.read file)
      (.ok (.log path file s), d.write file s.file)

/-- Removes the log at a path and what a compaction may have left beside it. -/
def removeLog (path : String) (d : Disk) : Except PathFault Unit × Disk :=
  match d.remove path with
  | (.error e, d) => (.error e, d)
  | (.ok (), d) => d.remove (Log.compactPathOf path)

def onLog {α : Type} (location : String) (c : StoreConfig)
    (f : String → Disk → Except PathFault α × Disk) (d : Disk) : Except DriverError α × Disk :=
  match Log.path c location with
  | .error e => (.error e, d)
  | .ok path =>
    let (r, d) := f path d
    (r.mapError fun e => .store e.toStoreError, d)

def openStore (driver : StoreDriver) (location : String) (c : StoreConfig) (d : Disk) :
    Except DriverError Backend × Disk :=
  match driver with
  | memory => (.ok (.memory (MemoryStore.open_ c)), d)
  | log => onLog location c (openLog · c) d

/-- Removes for good what is kept at a location. -/
def destroy (driver : StoreDriver) (location : String) (c : StoreConfig) (d : Disk) :
    Except DriverError Unit × Disk :=
  match driver with
  | memory => (.ok (), d)
  | log => onLog location c removeLog d

end StoreDriver

/-- The drivers that databases may name. -/
abbrev DriverRegistry := Keyed String StoreDriver

namespace DriverRegistry

def register (r : DriverRegistry) (d : StoreDriver) : DriverRegistry := r.insert d.name d

def bundled : DriverRegistry := register (register [] .memory) .log

def find (r : DriverRegistry) (name : String) : Except DriverError StoreDriver :=
  match r.get? name with
  | some d => .ok d
  | none => .error (.unknown name)

def text (r : DriverRegistry) : String :=
  "DriverRegistry \x7b drivers: " ++ Text.list (r.keys.map Text.quoted) ++ " \x7d"

end DriverRegistry
end DocBase
