import DocBase.Database.Basic
import DocBase.Server.Error
import DocBase.Server.Request

/-! Servers: open databases by name, and the requests that are run against them. -/
namespace DocBase

structure Server where
  config : ServerConfig
  registry : DriverRegistry := .bundled
  databases : Keyed String Database := []
  shelf : Shelf := {}
  /-- How many connections are open. -/
  active : Nat := 0
  /-- The number of the next connection. -/
  nextId : Nat := 1
  isShutDown : Bool := false

/-- An operation on a server. Also one that fails leaves a server behind. -/
abbrev ServerAction (α : Type) := ExceptT ServerError (StateM Server) α

namespace Server

def ensureRunning : ServerAction Unit := do
  if (← get).isShutDown then throw .shutDown

/-- An operation on an open database. -/
def onDatabase {α : Type} (name : String) (f : DatabaseAction α) : ServerAction α := fun s =>
  match s.databases.get? name with
  | none => (.error (.noDatabase name), s)
  | some db =>
    let (r, db, shelf) := f (db, s.shelf)
    (r.mapError .database, { s with databases := s.databases.insert name db, shelf })

/-- A database opens under a name that no open one has. -/
def openDatabase (c : DatabaseConfig) : ServerAction Unit := do
  ensureRunning
  let s ← get
  if s.databases.contains c.name then throw (.alreadyOpen c.name)
  let db ← (Database.open_ c s.registry).mapError ServerError.database
  set { s with databases := s.databases.insert c.name db }

/-- Closes a database and forgets it, also when closing fails. Tells whether it was open. -/
def closeDatabase (name : String) : ServerAction Bool := fun s =>
  match s.databases.get? name with
  | none => (.ok false, s)
  | some db =>
    let (r, _, shelf) := Database.close (db, s.shelf)
    ((r.mapError .database).map fun () => true,
      { s with databases := s.databases.erase name, shelf })

/-- A server with the databases of its configuration, on a disk that may hold some. -/
def start (c : ServerConfig) (shelf : Shelf) : Except ServerError Server := do
  c.validate.mapError fun fault => .config (.invalid fault)
  let (r, s) := (c.databases.forM openDatabase : ServerAction Unit) { config := c, shelf }
  r.map fun () => s

/-- Every database is closed, also after one that fails; the first failure comes out. -/
def closeDatabases (names : List String) : ServerAction Unit := fun s =>
  names.foldl (fun (r, s) name =>
    let (r', s) := closeDatabase name s
    (r.bind fun _ => r'.map fun _ => (), s)) (.ok (), s)

/-- Closes every database. A second time it does nothing. -/
def shutDown : ServerAction Unit := do
  let s ← get
  if s.isShutDown then return
  set { s with isShutDown := true }
  closeDatabases s.databases.keys

/-- The collection that a request is for, made if need be. -/
def onCollection {α : Type} (db collection : String) (f : CollectionAction Backend α) :
    ServerAction α :=
  onDatabase db do
    let h ← Database.collection collection
    Database.onCollection h f

/-- Counts go out as words of 64 bits. -/
def countJson (n : Nat) : Json := .int (UInt64.ofNat n).toNat

def describe (h : Handle) : DatabaseAction Json :=
  Database.onCollection h do
    let c ← get
    let n ← c.size
    return .obj [("documents", countJson n), ("indexes", .arr (c.indexes.keys.map .str)),
      ("name", .str c.name)]

def handleCollection (stamps : Nat → Stamp) (db name : String) :
    CollectionRequest → ServerAction Json
  | .insert d => return (← onCollection db name (Collection.insert (stamps 0) d)).toJson
  | .insertMany docs => do
    let docs ← onCollection db name (Collection.insertMany stamps 0 docs)
    return .arr (docs.map Document.toJson)
  | .get id => do
    let d ← onCollection db name (Collection.get? id)
    return (d.map Document.toJson).getD .null
  | .update id u => return (← onCollection db name (Collection.update (stamps 0).now id u)).toJson
  | .remove id => return .bool (← onCollection db name (Collection.remove id))
  | .find q => return .arr ((← onCollection db name (Collection.find q)).map Document.toJson)
  | .count f => return countJson (← onCollection db name (Collection.countMatching f))
  | .explain q => return .str (← onCollection db name do (← get).explain q)
  | .declare none => onDatabase db do describe (← Database.collection name)
  | .declare (some s) => onDatabase db do describe (← Database.collectionWithSchema name s)
  | .drop => return .bool (← onDatabase db (Database.dropCollection name))
  | .createIndex field kind => do
    onCollection db name (Collection.createIndex field kind)
    return .null
  | .dropIndex field =>
    onDatabase db do
      let h ← Database.existingCollection name
      Database.onCollection h fun c =>
        let (found, c) := c.dropIndex field
        (.ok (Json.bool found), c)

/-- Runs a request. `stamps` gives the time and a fresh identifier for each document
that may be inserted. -/
def handle (stamps : Nat → Stamp) (r : Request) : ServerAction Json := do
  ensureRunning
  match r.operation with
  | .listCollections =>
    onDatabase r.database do return .arr ((← Database.database).list.map .str)
  | .on collection op => handleCollection stamps r.database collection op

def text (s : Server) : String :=
  "Server \x7b databases: " ++ Text.list (s.databases.keys.map Text.quoted)
    ++ ", active_connections: " ++ toString s.active
    ++ ", shut_down: " ++ toString s.isShutDown ++ " \x7d"

end Server
end DocBase
