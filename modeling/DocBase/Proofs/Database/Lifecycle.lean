import DocBase.Proofs.Database.Frame

/-! What the calls on a database do. Each of them is refused, hands out a collection that is there,
makes one, drops one or closes them all; in between there are operations on the collections that
were handed out. -/
namespace DocBase
open Keyed Disk

/-! ## Operations -/

/-- What may be done to the collection behind a handle. -/
inductive Operation
  | insert (stamp : Stamp) (d : Document)
  | insertMany (stamps : Nat → Stamp) (docs : List Document)
  | get (id : String)
  | update (now : Int64) (id : String) (u : Update)
  | remove (id : String)
  | find (q : Query)
  | count (f : Option Filter)
  | createIndex (field : String) (kind : IndexKind)
  | dropIndex (field : String)
  | attachSchema (s : Option Schema)
  | close

namespace Operation

def WellFormed : Operation → Prop
  | insert _ d => d.Ordered
  | insertMany _ docs => ∀ d ∈ docs, d.Ordered
  | update _ _ u => u.WellFormed
  | attachSchema s => ∀ t, s = some t → t.WellFormed
  | _ => True

/-- What the operation leaves behind; its answer is not looked at. -/
def run : Operation → CollectionAction Backend Unit
  | insert stamp d => discard (Collection.insert stamp d)
  | insertMany stamps docs => discard (Collection.insertMany stamps 0 docs)
  | get id => discard (Collection.get? id)
  | update now id u => discard (Collection.update now id u)
  | remove id => discard (Collection.remove id)
  | find q => discard (Collection.find q)
  | count f => discard (Collection.countMatching f)
  | createIndex field kind => Collection.createIndex field kind
  | dropIndex field => modify fun c => (c.dropIndex field).2
  | attachSchema s => Collection.attachSchema s
  | close => Collection.close

/-- No operation tells stores apart that no call tells apart. -/
theorem relates_run {op : Operation} (hop : op.WellFormed) {S : Backend → Backend → Prop}
    (hS : Indistinct S) : Relates (Collection.Twins S) op.run op.run Eq := by
  have hdiscard {α : Type} {x : CollectionAction Backend α} {Q : α → α → Prop}
      (hx : Relates (Collection.Twins S) x x Q) :
      Relates (Collection.Twins S) (discard x) (discard x) Eq :=
    hx.bind fun _ _ _ => Relates.pure rfl
  cases op with
  | insert stamp d => exact hdiscard (Collection.relates_insert hS stamp hop)
  | insertMany stamps docs => exact hdiscard (Collection.relates_insertMany hS stamps 0 hop)
  | get id => exact hdiscard (Collection.relates_get? hS id)
  | update now id u => exact hdiscard (Collection.relates_update hS now id hop)
  | remove id => exact hdiscard (Collection.relates_remove hS id)
  | find q => exact hdiscard (Collection.relates_find hS q)
  | count f => exact hdiscard (Collection.relates_countMatching hS f)
  | createIndex field kind => exact Collection.relates_createIndex hS field kind
  | dropIndex field => exact Relates.modify fun _ _ h => h.withIndexes _
  | attachSchema s => exact Collection.relates_attachSchema hS hop
  | close => exact Collection.relates_close hS

end Operation

/-! ## Calls -/

inductive DatabaseCall
  | collection (name : String)
  | collectionWithSchema (name : String) (schema : Schema)
  | existingCollection (name : String)
  | dropCollection (name : String)
  | close

inductive DatabaseAnswer
  | handle (h : Handle)
  | dropped (found : Bool)
  | closed
  deriving DecidableEq

namespace DatabaseCall

def WellFormed : DatabaseCall → Prop
  | collectionWithSchema _ schema => schema.WellFormed
  | _ => True

def run (call : DatabaseCall) (s : Database × Shelf) :
    Except DatabaseError DatabaseAnswer × Database × Shelf :=
  match call with
  | collection name =>
    ((Database.collection name s).1.map .handle, (Database.collection name s).2)
  | collectionWithSchema name schema =>
    ((Database.collectionWithSchema name schema s).1.map .handle,
      (Database.collectionWithSchema name schema s).2)
  | existingCollection name =>
    ((Database.existingCollection name s).1.map .handle, (Database.existingCollection name s).2)
  | dropCollection name =>
    ((Database.dropCollection name s).1.map .dropped, (Database.dropCollection name s).2)
  | close => ((Database.close s).1.map fun _ => .closed, (Database.close s).2)

/-- The name of the collection that is asked for. -/
def name? : DatabaseCall → Option String
  | collection name | collectionWithSchema name _ | existingCollection name => some name
  | dropCollection _ | close => none

/-- The collection that comes into being if it is not there, and its schema. -/
def makes? : DatabaseCall → Option (String × Option Schema)
  | collection name => some (name, none)
  | collectionWithSchema name schema => some (name, some schema)
  | _ => none

theorem makes?_cases {call : DatabaseCall} {name : String} {schema : Option Schema}
    (h : call.makes? = some (name, schema)) :
    (call = collection name ∧ schema = none) ∨
      ∃ s, call = collectionWithSchema name s ∧ schema = some s := by
  cases call with
  | collection made => cases h; exact Or.inl ⟨rfl, rfl⟩
  | collectionWithSchema made s => cases h; exact Or.inr ⟨s, rfl, rfl⟩
  | existingCollection asked => cases h
  | dropCollection gone => cases h
  | close => cases h

end DatabaseCall

namespace Database
variable {db : Database} {shelf : Shelf} {name : String} {h : Handle}

theorem onCollection_close (h : Handle) (db : Database) (shelf : Shelf) :
    onCollection h Collection.close (db, shelf) =
      (.ok (), db, (shelf.on h Collection.close).2) := by
  change ((shelf.on h Collection.close).1.mapError DatabaseError.collection, db,
    (shelf.on h Collection.close).2) = _
  rw [Shelf.close_ok]
  rfl

/-- The stores of all these collections are closed, and nothing comes out but success. -/
theorem closeAll_eq (db : Database) (hs : List Handle) (shelf : Shelf) :
    closeAll hs (db, shelf) = (.ok (), db, shelf.shut hs) := by
  have hturn : closeAll hs (db, shelf) =
      inTurn (fun h => onCollection h Collection.close) hs (db, shelf) := rfl
  rw [hturn, inTurn]
  clear hturn
  induction hs generalizing shelf with
  | nil => rfl
  | cons h rest ih =>
    rw [List.foldl_cons]
    dsimp only
    rw [onCollection_close]
    exact ih _

theorem collectionWithSchema_of_live {schema : Schema} {r : Except CollectionError Unit}
    {shelf' : Shelf} (hopen : db.closed = false) (hlive : db.live.get? name = some h)
    (hattach : shelf.on h (Collection.attachSchema (some schema)) = (r, shelf')) :
    collectionWithSchema name schema (db, shelf) =
      ((r.mapError .collection).map fun _ => h, db, shelf') := by
  have hrun : onCollection h (Collection.attachSchema (some schema)) (db, shelf) =
      (r.mapError .collection, db, shelf') := by
    simp only [onCollection, onShelf, hattach]
  rw [collectionWithSchema, bind_of_ok (database_apply db shelf), ensureOpen_eq hopen, hlive]
  change (onCollection h (Collection.attachSchema (some schema)) >>= fun _ => pure h)
    (db, shelf) = _
  cases r with
  | error e => exact bind_of_error hrun _
  | ok _ => exact bind_of_ok hrun _

/-- A collection that is dropped is closed, if it is there, before what is stored under its name
is removed. -/
theorem dropCollection_apply {removed : Except DriverError Unit} {e : Disk}
    (hopen : db.closed = false) (hname : isCollectionName name)
    (hdestroy : db.driver.destroy (db.location name) db.config.store
      (shelf.shut (db.live.get? name).toList).disk = (removed, e)) :
    dropCollection name (db, shelf) =
      ((removed.mapError .driver).map fun _ => (db.live.get? name).isSome,
        { db with live := db.live.erase name },
        { shelf.shut (db.live.get? name).toList with disk := e }) := by
  rw [dropCollection_eq hopen hname]
  have hremove (found : Bool) (db' : Database) {a : Shelf}
      (hrun : db.driver.destroy (db.location name) db.config.store a.disk = (removed, e)) :
      (do
        onDisk (db.driver.destroy (db.location name) db.config.store)
        return found : DatabaseAction Bool) (db', a) =
      ((removed.mapError .driver).map fun _ => found, db', { a with disk := e }) := by
    have hdisk : onDisk (db.driver.destroy (db.location name) db.config.store) (db', a) =
        (removed.mapError .driver, db', { a with disk := e }) := by
      simp only [onDisk, onShelf, hrun]
    cases removed with
    | error fault => exact bind_of_error hdisk _
    | ok _ => exact bind_of_ok hdisk _
  cases hlive : db.live.get? name with
  | none =>
    rw [hlive] at hdestroy
    exact hremove false _ hdestroy
  | some h =>
    rw [hlive] at hdestroy
    dsimp only
    rw [bind_of_ok (onCollection_close h _ shelf)]
    exact hremove true _ hdestroy

/-- All that a call can do. -/
inductive Step (db : Database) (shelf : Shelf) :
    DatabaseCall → Except DatabaseError DatabaseAnswer → Database → Shelf → Prop
  /-- A call is refused before it does anything. One that may make a collection is refused when the
  database is closed, by the name, or for want of room. -/
  | refused {call : DatabaseCall} (e : DatabaseError)
    (hcause : ∀ name schema, call.makes? = some (name, schema) → db.closed = true ∨
      isCollectionName name = false ∨ db.config.maxCollections ≤ db.live.length) :
    Step db shelf call (.error e) db shelf
  | found {call : DatabaseCall} {name : String} {h : Handle} (hcall : call.name? = some name)
    (hlive : db.live.get? name = some h) : Step db shelf call (.ok (.handle h)) db shelf
  /-- A collection that is there takes the schema or refuses it. -/
  | attached {name : String} {schema : Schema} {h : Handle} {r : Except CollectionError Unit}
    {shelf' : Shelf} (hlive : db.live.get? name = some h)
    (hattach : shelf.on h (Collection.attachSchema (some schema)) = (r, shelf')) :
    Step db shelf (.collectionWithSchema name schema)
      ((r.mapError .collection).map fun _ => .handle h) db shelf'
  | unopened {call : DatabaseCall} {name : String} {schema : Option Schema} {fault : DriverError}
    {e : Disk} (hcall : call.makes? = some (name, schema)) (hopen : db.closed = false)
    (hnone : db.live.get? name = none) (hname : isCollectionName name)
    (hstore : db.driver.openStore (db.location name) db.config.store shelf.disk =
      (.error fault, e)) :
    Step db shelf call (.error (.driver fault)) db { shelf with disk := e }
  | created {call : DatabaseCall} {name : String} {schema : Option Schema} {store : Backend}
    {e : Disk} (hcall : call.makes? = some (name, schema)) (hopen : db.closed = false)
    (hnone : db.live.get? name = none) (hname : isCollectionName name)
    (hroom : db.live.length < db.config.maxCollections)
    (hstore : db.driver.openStore (db.location name) db.config.store shelf.disk =
      (.ok store, e)) :
    Step db shelf call (.ok (.handle shelf.opened.size))
      { db with live := db.live.insert name shelf.opened.size }
      (Shelf.add { shelf with disk := e }
        { name, store, schema, maxDocumentSize := db.config.maxDocumentSize }).2
  | dropped {name : String} {removed : Except DriverError Unit} {e : Disk}
    (hopen : db.closed = false) (hname : isCollectionName name)
    (hdestroy : db.driver.destroy (db.location name) db.config.store
      (shelf.shut (db.live.get? name).toList).disk = (removed, e)) :
    Step db shelf (.dropCollection name)
      ((removed.mapError .driver).map fun _ => .dropped (db.live.get? name).isSome)
      { db with live := db.live.erase name }
      { shelf.shut (db.live.get? name).toList with disk := e }
  | closed (hopen : db.closed = false) :
    Step db shelf .close (.ok .closed) { db with live := [], closed := true }
      (shelf.shut db.live.values)
  | again (hclosed : db.closed = true) : Step db shelf .close (.ok .closed) db shelf

theorem step_create {call : DatabaseCall} {schema : Option Schema}
    (hcall : call.makes? = some (name, schema)) (hopen : db.closed = false)
    (hnone : db.live.get? name = none) :
    Step db shelf call ((create name schema (db, shelf)).1.map .handle)
      (create name schema (db, shelf)).2.1 (create name schema (db, shelf)).2.2 := by
  rcases create_cases db name schema with ⟨fault, hcause, hrefused⟩ | ⟨hname, hroom, hcreated⟩
  · rw [hrefused]
    refine .refused fault fun _ _ hmakes => Or.inr ?_
    rw [hcall] at hmakes
    cases hmakes
    exact hcause
  · rw [hcreated, Database.created]
    cases hstore : db.driver.openStore (db.location name) db.config.store shelf.disk with
    | mk opened e =>
      cases opened with
      | error fault => exact .unopened hcall hopen hnone hname hstore
      | ok store => exact .created hcall hopen hnone hname hroom hstore

theorem refuses_when_closed (hclosed : db.closed = true) (shelf : Shelf) (call : DatabaseCall) :
    call.run (db, shelf) =
      (match call with
        | .close => .ok .closed
        | _ => .error (.closed db.config.name), db, shelf) := by
  have hrefused : db.ensureOpen = .error (.closed db.config.name) := if_pos hclosed
  cases call with
  | collection name =>
    rw [DatabaseCall.run, Database.collection, bind_of_ok (database_apply db shelf), hrefused]
    rfl
  | collectionWithSchema name schema =>
    rw [DatabaseCall.run, Database.collectionWithSchema, bind_of_ok (database_apply db shelf),
      hrefused]
    rfl
  | existingCollection name =>
    rw [DatabaseCall.run, Database.existingCollection, bind_of_ok (database_apply db shelf),
      hrefused]
    rfl
  | dropCollection name =>
    rw [DatabaseCall.run, Database.dropCollection, bind_of_ok (database_apply db shelf), hrefused]
    rfl
  | close =>
    rw [DatabaseCall.run, Database.close, bind_of_ok (database_apply db shelf), if_pos hclosed]
    rfl

theorem step_run (db : Database) (shelf : Shelf) (call : DatabaseCall) :
    Step db shelf call (call.run (db, shelf)).1 (call.run (db, shelf)).2.1
      (call.run (db, shelf)).2.2 := by
  cases hclosed : db.closed with
  | true =>
    rw [refuses_when_closed hclosed]
    cases call with
    | close => exact .again hclosed
    | collection name => exact .refused _ fun _ _ _ => Or.inl hclosed
    | collectionWithSchema name schema => exact .refused _ fun _ _ _ => Or.inl hclosed
    | existingCollection name => exact .refused _ fun _ _ _ => Or.inl hclosed
    | dropCollection name => exact .refused _ fun _ _ _ => Or.inl hclosed
  | false =>
    have hensure := ensureOpen_eq hclosed
    cases call with
    | collection name =>
      rw [DatabaseCall.run, Database.collection, bind_of_ok (database_apply db shelf), hensure]
      cases hlive : db.live.get? name with
      | some h => exact .found rfl hlive
      | none => exact step_create rfl hclosed hlive
    | collectionWithSchema name schema =>
      cases hlive : db.live.get? name with
      | some h =>
        cases hattach : shelf.on h (Collection.attachSchema (some schema)) with
        | mk r shelf' =>
          have hstep : Step db shelf (.collectionWithSchema name schema) _ db shelf' :=
            .attached hlive hattach
          rw [DatabaseCall.run, collectionWithSchema_of_live hclosed hlive hattach]
          cases r <;> exact hstep
      | none =>
        rw [DatabaseCall.run, Database.collectionWithSchema, bind_of_ok (database_apply db shelf),
          hensure, hlive]
        exact step_create rfl hclosed hlive
    | existingCollection name =>
      rw [DatabaseCall.run, Database.existingCollection, bind_of_ok (database_apply db shelf),
        hensure]
      cases hlive : db.live.get? name with
      | some h => exact .found rfl hlive
      | none => exact .refused _ fun _ _ hmakes => by cases hmakes
    | dropCollection name =>
      rw [DatabaseCall.run]
      cases hname : isCollectionName name with
      | false =>
        rw [dropCollection_refused hclosed hname]
        exact .refused _ fun _ _ hmakes => by cases hmakes
      | true =>
        cases hdestroy : db.driver.destroy (db.location name) db.config.store
            (shelf.shut (db.live.get? name).toList).disk with
        | mk removed e =>
          have hstep := Step.dropped hclosed hname hdestroy
          rw [dropCollection_apply hclosed hname hdestroy]
          cases removed <;> exact hstep
    | close =>
      rw [DatabaseCall.run, close_eq hclosed, closeAll_eq]
      exact .closed hclosed

end Database
end DocBase
