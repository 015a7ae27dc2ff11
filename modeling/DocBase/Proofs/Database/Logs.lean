import DocBase.Proofs.Database.Shelf
import DocBase.Proofs.Store.Location

/-! The logs that databases make and remove. Each belongs to one collection of one database, and
what is done to it leaves the logs of other collections as they are. -/
namespace DocBase
open Keyed Disk

namespace Log

/-- The log at the one path is neither the one at the other nor where a compaction of that one
writes. -/
structure Apart (path other : String) : Prop where
  log : key (wayOf path) ≠ key (wayOf other)
  compact : key (wayOf path) ≠ key (wayOf (compactPathOf other))

end Log

namespace DatabaseConfig

/-- Where the log of a collection lies. -/
def logOf (c : DatabaseConfig) (name : String) : Except DriverError String :=
  Log.path c.store (c.name ++ "/" ++ name)

/-- The logs of the one database lie apart from those of the other. -/
def Apart (c c' : DatabaseConfig) : Prop :=
  ∀ name name' p p', Database.isCollectionName name → Database.isCollectionName name' →
    c.logOf name = .ok p → c'.logOf name' = .ok p' → Log.Apart p p'

variable {c c' : DatabaseConfig} {name name' p p' : String}

theorem logOf_eq_ok {root : String} (hroot : c.store.path = some root)
    (hname : Database.isCollectionName name) (hp : c.logOf name = .ok p) :
    Log.isLocation c.name.toList = true ∧ p = String.ofList
      (Log.fileIn root.toList c.name.toList (Log.logName name.toList)) := by
  have hpath : Log.path c.store (Database.location { config := c, driver := .log } name) = .ok p :=
    hp
  obtain ⟨hdb, hlies⟩ := Log.path_eq_ok hroot hname hpath
  exact ⟨hdb, hlies⟩

theorem logs_apart {root : String} (hroot : c.store.path = some root)
    (hroot' : c'.store.path = some root) (hname : Database.isCollectionName name)
    (hname' : Database.isCollectionName name') (hp : c.logOf name = .ok p)
    (hp' : c'.logOf name' = .ok p')
    (hne : Log.locationNames c.name.toList ≠ Log.locationNames c'.name.toList ∨ name ≠ name') :
    Log.Apart p p' := by
  obtain ⟨hdb, rfl⟩ := logOf_eq_ok hroot hname hp
  obtain ⟨hdb', rfl⟩ := logOf_eq_ok hroot' hname' hp'
  have hfile := Log.isName_of_isCollectionName hname
  have hfile' := Log.isName_of_isCollectionName hname'
  refine ⟨fun h => ?_, fun h => ?_⟩
  · obtain ⟨hparts, hlogs⟩ :=
      (Log.key_wayOf_fileIn_inj root.toList hdb hdb' hfile.log hfile'.log).mp h
    rcases hne with hne | hne
    · exact hne hparts
    · exact hne (String.toList_inj.mp (List.append_cancel_right hlogs))
  · rw [Log.compactPathOf_fileIn] at h
    have hfiles := (Log.key_wayOf_fileIn_inj root.toList hdb hdb' hfile.log hfile'.compact).mp h
    exact Log.logName_ne_compactName _ _ hfiles.2

/-- Within a database the logs of different collections lie apart. -/
theorem logs_apart_of_ne (hname : Database.isCollectionName name)
    (hname' : Database.isCollectionName name') (hp : c.logOf name = .ok p)
    (hp' : c.logOf name' = .ok p') (hne : name ≠ name') : Log.Apart p p' := by
  cases hroot : c.store.path with
  | none =>
    rw [logOf, Log.path, hroot] at hp
    cases hp
  | some root => exact logs_apart hroot hroot hname hname' hp hp' (.inr hne)

/-- Below one root the names of the databases tell their logs apart, if they differ in their
parts. -/
theorem apart_of_parts_ne {root : String} (hroot : c.store.path = some root)
    (hroot' : c'.store.path = some root)
    (hne : Log.locationNames c.name.toList ≠ Log.locationNames c'.name.toList) : Apart c c' :=
  fun _ _ _ _ hname hname' hp hp' => logs_apart hroot hroot' hname hname' hp hp' (.inl hne)

end DatabaseConfig

/-! ## Opening and removing -/

namespace Backend

/-- A log that was just opened is what its file holds. -/
theorem paired_opened (c : StoreConfig) (bytes : Bytes) (path : String) {file : FileId} {d : Disk}
    (hread : d.read file = (LogStore.open_ c bytes).file) :
    Paired ((log path file (LogStore.open_ c bytes)).load d)
      ((log path file (LogStore.open_ c bytes)).load d) := by
  have hvalid : (LogStore.open_ c bytes).Valid := .recorded _ rfl (LogStore.recorded_open c bytes)
  have halike : LogStore.Alike none true (LogStore.open_ c bytes) (LogStore.open_ c bytes) :=
    ⟨⟨_, _, rfl⟩, hvalid, hvalid, rfl, fun _ => rfl, fun h => h⟩
  rw [load_open _ _ _ rfl, hread]
  exact (Alike.log (halike.reread _)).paired

end Backend

namespace StoreDriver
variable {d : Disk} {driver : StoreDriver} {c : DatabaseConfig} {name : String}

/-- What opening touches is the log of the collection, and a store that was opened has nothing
else open. -/
theorem openStore_spec (hd : d.Sound) {opened : Except DriverError Backend} {e : Disk}
    (hopen : driver.openStore (c.name ++ "/" ++ name) c.store d = (opened, e)) :
    e.Sound ∧
      (∀ k, (∀ p, driver = .log → c.logOf name = .ok p → k ≠ key (wayOf p)) → Spares k d e) ∧
      ∀ b, opened = .ok b → Backend.Paired (b.load e) (b.load e) ∧
        ∀ path file s, b = .log path file s →
          driver = .log ∧ c.logOf name = .ok path ∧ e.linked path = some file := by
  cases driver with
  | memory =>
    cases hopen
    refine ⟨hd, fun k _ => .refl k d, ?_⟩
    rintro _ ⟨⟩
    exact ⟨.memory ⟨_, rfl⟩, fun _ _ _ h => nomatch h⟩
  | log =>
    rw [openStore, onLog] at hopen
    rw [DatabaseConfig.logOf]
    cases hp : Log.path c.store (c.name ++ "/" ++ name) with
    | error err =>
      rw [hp] at hopen
      cases hopen
      exact ⟨hd, fun k _ => .refl k d, fun _ h => nomatch h⟩
    | ok p =>
      rw [hp] at hopen
      obtain ⟨hsound, hspares, hopened⟩ := openLog_spec hd p c.store
      cases hrun : openLog p c.store d with
      | mk r e' =>
        rw [hrun] at hsound hspares hopened
        simp only [hrun] at hopen
        cases hopen
        refine ⟨hsound, fun k hk => hspares k (hk p rfl rfl), fun b hb => ?_⟩
        cases r with
        | error err => cases hb
        | ok b' =>
          cases hb
          obtain ⟨file, bytes, rfl, hlinked, hread⟩ := hopened _ rfl
          refine ⟨Backend.paired_opened c.store bytes p hread, ?_⟩
          rintro _ _ _ ⟨⟩
          exact ⟨rfl, rfl, hlinked⟩

theorem destroy_spec (hd : d.Sound) {removed : Except DriverError Unit} {e : Disk}
    (hdestroy : driver.destroy (c.name ++ "/" ++ name) c.store d = (removed, e)) :
    e.Sound ∧ ∀ k, (∀ p, driver = .log → c.logOf name = .ok p →
      k ≠ key (wayOf p) ∧ k ≠ key (wayOf (Log.compactPathOf p))) → Spares k d e := by
  cases driver with
  | memory =>
    cases hdestroy
    exact ⟨hd, fun k _ => .refl k d⟩
  | log =>
    rw [destroy, onLog] at hdestroy
    rw [DatabaseConfig.logOf]
    cases hp : Log.path c.store (c.name ++ "/" ++ name) with
    | error err =>
      rw [hp] at hdestroy
      cases hdestroy
      exact ⟨hd, fun k _ => .refl k d⟩
    | ok p =>
      rw [hp] at hdestroy
      obtain ⟨hsound, hspares⟩ := removeLog_spec hd p
      cases hrun : removeLog p d with
      | mk r e' =>
        rw [hrun] at hsound hspares
        simp only [hrun] at hdestroy
        cases hdestroy
        exact ⟨hsound, fun k hk => hspares k (hk p rfl rfl).1 (hk p rfl rfl).2⟩

end StoreDriver

/-! ## Databases -/

namespace Database
variable {db : Database} {name : String} {schema : Option Schema}

/-- A collection that is made on a shelf, unless its store cannot be opened. -/
def created (db : Database) (name : String) (schema : Option Schema) (shelf : Shelf) :
    Except DatabaseError Handle × Database × Shelf :=
  match db.driver.openStore (db.location name) db.config.store shelf.disk with
  | (.error fault, disk) => (.error (.driver fault), db, { shelf with disk })
  | (.ok store, disk) =>
    (.ok shelf.opened.size, { db with live := db.live.insert name shelf.opened.size },
      (Shelf.add { shelf with disk }
        { name, store, schema, maxDocumentSize := db.config.maxDocumentSize }).2)

/-- Making a collection is refused by its name or for want of room, or goes as far as opening its
store. -/
theorem create_cases (db : Database) (name : String) (schema : Option Schema) :
    (∃ fault, (isCollectionName name = false ∨ db.config.maxCollections ≤ db.live.length) ∧
        ∀ shelf, create name schema (db, shelf) = (.error fault, db, shelf)) ∨
      (isCollectionName name ∧ db.live.length < db.config.maxCollections ∧
        ∀ shelf, create name schema (db, shelf) = created db name schema shelf) := by
  cases hname : isCollectionName name with
  | false =>
    refine .inl ⟨.invalidName name, .inl rfl, fun shelf => ?_⟩
    rw [create, checkName, hname]
    rfl
  | true =>
    have hstart : ∀ shelf, create name schema (db, shelf) =
        (do
          if db.config.maxCollections ≤ db.live.length then throw (.tooMany db.config.maxCollections)
          let store ← onDisk (db.driver.openStore (db.location name) db.config.store)
          let h ← onShelf .collection fun shelf =>
            let added := shelf.add
              { name, store, schema, maxDocumentSize := db.config.maxDocumentSize }
            (.ok added.1, added.2)
          setDatabase { db with live := db.live.insert name h }
          return h : DatabaseAction Handle) (db, shelf) := by
      intro shelf
      rw [create, checkName, hname]
      rfl
    by_cases hroom : db.config.maxCollections ≤ db.live.length
    · refine .inl ⟨.tooMany db.config.maxCollections, .inr hroom, fun shelf => ?_⟩
      rw [hstart, if_pos hroom]
      rfl
    · refine .inr ⟨rfl, Nat.lt_of_not_le hroom, fun shelf => ?_⟩
      rw [hstart, if_neg hroom, created]
      cases hopen : db.driver.openStore (db.location name) db.config.store shelf.disk with
      | mk opened disk =>
        have hdisk : onDisk (db.driver.openStore (db.location name) db.config.store) (db, shelf) =
            (opened.mapError .driver, db, { shelf with disk }) := by
          simp only [onDisk, onShelf, hopen]
        cases opened with
        | error fault => exact bind_of_error hdisk _
        | ok store => exact bind_of_ok hdisk _

theorem database_apply (db : Database) (shelf : Shelf) :
    database (db, shelf) = (.ok db, db, shelf) := rfl

theorem ensureOpen_eq (hopen : db.closed = false) : db.ensureOpen = .ok () := by
  rw [ensureOpen, hopen]
  rfl

/-- Asking for a collection does nothing, or makes one that is not there. -/
theorem collection_cases (db : Database) (name : String) (shelf : Shelf) :
    (collection name (db, shelf)).2 = (db, shelf) ∨
      (db.live.get? name = none ∧ isCollectionName name ∧
        db.live.length < db.config.maxCollections ∧
        collection name (db, shelf) = created db name none shelf) := by
  cases hopen : db.closed with
  | true =>
    refine .inl ?_
    have hclosed : db.ensureOpen = .error (.closed db.config.name) := if_pos hopen
    rw [collection, bind_of_ok (database_apply db shelf), hclosed]
    rfl
  | false =>
    rw [collection, bind_of_ok (database_apply db shelf), ensureOpen_eq hopen]
    cases hlive : db.live.get? name with
    | some h => exact .inl rfl
    | none =>
      rcases create_cases db name none with ⟨fault, -, hrefused⟩ | ⟨hname, hroom, hcreated⟩
      · refine .inl ?_
        change (create name none (db, shelf)).2 = (db, shelf)
        rw [hrefused]
      · exact .inr ⟨rfl, hname, hroom, hcreated shelf⟩

theorem dropCollection_refused (hopen : db.closed = false) (hname : isCollectionName name = false)
    (shelf : Shelf) : dropCollection name (db, shelf) = (.error (.invalidName name), db, shelf) := by
  have hchecked : checkName name = .error (.invalidName name) := if_neg (by simp [hname])
  rw [dropCollection, bind_of_ok (database_apply db shelf), ensureOpen_eq hopen, hchecked]
  rfl

theorem dropCollection_eq (hopen : db.closed = false) (hname : isCollectionName name)
    (shelf : Shelf) : dropCollection name (db, shelf) =
      (do
        match db.live.get? name with
        | some h => onCollection h Collection.close
        | none => pure ()
        onDisk (db.driver.destroy (db.location name) db.config.store)
        return (db.live.get? name).isSome : DatabaseAction Bool)
      ({ db with live := db.live.erase name }, shelf) := by
  have hchecked : checkName name = .ok () := if_pos hname
  rw [dropCollection, bind_of_ok (database_apply db shelf), ensureOpen_eq hopen, hchecked]
  rfl

theorem close_eq (hopen : db.closed = false) (shelf : Shelf) :
    close (db, shelf) = closeAll db.live.values ({ db with live := [], closed := true }, shelf) := by
  rw [close, bind_of_ok (database_apply db shelf), hopen]
  rfl

end Database
end DocBase
