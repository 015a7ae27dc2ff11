import DocBase.Database.Error
import DocBase.Database.Shelf
import DocBase.Config.Basic

/-! Databases: collections by name, each over a store of its own. Collections come into
being when they are first asked for. -/
namespace DocBase

structure Database where
  config : DatabaseConfig
  driver : StoreDriver
  /-- The collections that there are, by name. -/
  live : Keyed String Handle := []
  closed : Bool := false

structure DatabaseStats where
  name : String
  driver : String
  documents : Nat
  collections : List CollectionStats

/-- An operation on a database. Also one that fails leaves a database and a shelf behind. -/
abbrev DatabaseAction (α : Type) := ExceptT DatabaseError (StateM (Database × Shelf)) α

namespace Database

def maxNameLength : Nat := 128

/-- No separator of paths, no NUL, and no name that means a directory. -/
def isCollectionName (name : String) : Bool :=
  !name.isEmpty && name.utf8ByteSize ≤ maxNameLength
    && !name.toList.any ['/', '\\', '\x00'].contains && name != "." && name != ".."

def checkName (name : String) : Except DatabaseError Unit :=
  if isCollectionName name then .ok () else .error (.invalidName name)

def open_ (c : DatabaseConfig) (registry : DriverRegistry) : Except DatabaseError Database := do
  c.validate.mapError fun fault => .config (.invalid fault)
  let driver ← (registry.find c.driver).mapError .driver
  return { config := c, driver }

def ensureOpen (db : Database) : Except DatabaseError Unit :=
  if db.closed then .error (.closed db.config.name) else .ok ()

def location (db : Database) (collection : String) : String :=
  db.config.name ++ "/" ++ collection

def database : DatabaseAction Database := fun (db, shelf) => (.ok db, db, shelf)

def setDatabase (db : Database) : DatabaseAction Unit := fun (_, shelf) => (.ok (), db, shelf)

def onShelf {ε α : Type} (wrap : ε → DatabaseError) (f : Shelf → Except ε α × Shelf) :
    DatabaseAction α := fun (db, shelf) =>
  let (r, shelf) := f shelf
  (r.mapError wrap, db, shelf)

/-- An operation on the collection behind a handle. -/
def onCollection {α : Type} (h : Handle) (f : CollectionAction Backend α) : DatabaseAction α :=
  onShelf .collection (Shelf.on h f)

def onDisk {α : Type} (f : Disk → Except DriverError α × Disk) : DatabaseAction α :=
  onShelf .driver fun shelf =>
    let (r, disk) := f shelf.disk
    (r, { shelf with disk })

/-- A collection that is not there yet. -/
def create (name : String) (schema : Option Schema) : DatabaseAction Handle := do
  checkName name
  let db ← database
  if db.config.maxCollections ≤ db.live.length then throw (.tooMany db.config.maxCollections)
  let store ← onDisk (db.driver.openStore (db.location name) db.config.store)
  let h ← onShelf .collection fun shelf =>
    let (h, shelf) := shelf.add
      { name, store, schema, maxDocumentSize := db.config.maxDocumentSize }
    (.ok h, shelf)
  setDatabase { db with live := db.live.insert name h }
  return h

/-- The collection of that name, made if need be. -/
def collection (name : String) : DatabaseAction Handle := do
  let db ← database
  db.ensureOpen
  match db.live.get? name with
  | some h => return h
  | none => create name none

/-- The collection of that name, if it is there already. -/
def existingCollection (name : String) : DatabaseAction Handle := do
  let db ← database
  db.ensureOpen
  match db.live.get? name with
  | some h => return h
  | none => throw (.noCollection name)

/-- One that is there already has to be empty to take another schema than its own. -/
def collectionWithSchema (name : String) (schema : Schema) : DatabaseAction Handle := do
  let db ← database
  db.ensureOpen
  match db.live.get? name with
  | some h =>
    onCollection h (Collection.attachSchema (some schema))
    return h
  | none => create name (some schema)

/-- Closes the collection, if there is one, and removes for good what was stored under
its name. Tells whether there was one. -/
def dropCollection (name : String) : DatabaseAction Bool := do
  let db ← database
  db.ensureOpen
  checkName name
  setDatabase { db with live := db.live.erase name }
  match db.live.get? name with
  | some h => onCollection h Collection.close
  | none => pure ()
  onDisk (db.driver.destroy (db.location name) db.config.store)
  return (db.live.get? name).isSome

def has (db : Database) (name : String) : Bool := db.live.contains name

/-- The names of the collections that there are, ascending. -/
def list (db : Database) : List String := db.live.keys

/-- Every collection is closed, also after one that fails; the first failure comes out. -/
def closeAll (handles : List Handle) : DatabaseAction Unit := fun s =>
  handles.foldl (fun (r, s) h =>
    let (r', s) := onCollection h Collection.close s
    (r.bind fun _ => r', s)) (.ok (), s)

/-- Closing twice does nothing more. -/
def close : DatabaseAction Unit := do
  let db ← database
  if db.closed then return
  setDatabase { db with live := [], closed := true }
  closeAll db.live.values

def stats (db : Database) (shelf : Shelf) : DatabaseStats :=
  let collections := db.live.values.filterMap fun h => (shelf.get? h).map (·.stats)
  { name := db.config.name, driver := db.config.driver, collections,
    documents := (collections.map (·.documents)).foldl (· + ·) 0 }

def text (db : Database) : String :=
  "Database \x7b name: " ++ Text.quoted db.config.name ++ ", driver: "
    ++ Text.quoted db.config.driver ++ ", collections: " ++ Text.list (db.list.map Text.quoted)
    ++ ", closed: " ++ toString db.closed ++ " \x7d"

end Database
end DocBase
