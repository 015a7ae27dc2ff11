import DocBase.Proofs.Database.Logs
import DocBase.Proofs.Server.Hosting

/-! Servers that differ in nothing that could be told. Each open log belongs to a collection of an
open database, and databases keep their logs apart; so what is done for one collection is the
same on both servers and leaves the others as they are. -/
namespace DocBase
open Keyed Disk

/-- Databases of different names keep their logs apart. -/
def DatabaseConfig.KeepApart (A : DatabaseConfig → Prop) : Prop :=
  ∀ c c', A c → A c' → c.driver = "log" → c'.driver = "log" → c.name ≠ c'.name → c.Apart c'

namespace Server

/-- The log at a path belongs to the collection behind a handle. -/
def Owns (databases : Keyed String Database) (h : Handle) (path : String) : Prop :=
  ∃ database db name, databases.get? database = some db ∧ db.live.get? name = some h ∧
    db.driver = .log ∧ Database.isCollectionName name ∧ db.config.logOf name = .ok path

/-- An open database, under its own name. -/
structure Hosted (A : DatabaseConfig → Prop) (name : String) (db : Database) : Prop where
  admitted : A db.config
  name_eq : db.config.name = name
  isOpen : db.closed = false
  driver (h : db.driver = .log) : db.config.driver = "log"
  ascending : Ascending db.live

/-- Servers whose shelves are alike. The logs that are open, but for some that are about to be
closed, belong to collections. -/
structure Alike (A : DatabaseConfig → Prop) (closing : List Handle) (s t : Server) : Prop where
  rest : t = { s with shelf := t.shelf }
  registry : s.registry = .bundled
  ascending : Ascending s.databases
  hosted {name : String} {db : Database} (hdb : s.databases.get? name = some db) :
    Hosted A name db
  shelf : s.shelf.Alike t.shelf
  owned {h : Handle} {path : String} {file : FileId} (ho : s.shelf.HasOpen h path file) :
    h ∈ closing ∨ Owns s.databases h path

variable {A : DatabaseConfig → Prop} {E : List Handle} {s t : Server} {name : String}
  {db db' : Database} {a b : Shelf} {h : Handle} {path p : String} {file : FileId}

/-! ## Owners -/

/-- A log keeps its owner when a database changes that does not own it, or goes on owning it. -/
theorem Owns.insert (ho : Owns s.databases h path)
    (hkeep : ∀ db₀, s.databases.get? name = some db₀ → db.config = db₀.config ∧
      db.driver = db₀.driver ∧ ∀ collection, db₀.live.get? collection = some h →
        db.live.get? collection = some h) : Owns (s.databases.insert name db) h path := by
  obtain ⟨database, db₀, collection, hdb, hlive, hdriver, hname, hp⟩ := ho
  by_cases heq : database = name
  · subst heq
    obtain ⟨hconfig, hdriver', hlive'⟩ := hkeep db₀ hdb
    exact ⟨database, db, collection, get?_insert_same _ _ _, hlive' _ hlive,
      hdriver'.trans hdriver, hname, by rw [hconfig]; exact hp⟩
  · exact ⟨database, db₀, collection, (get?_insert_ne heq _).trans hdb, hlive, hdriver,
      hname, hp⟩

/-- A database that is forgotten leaves behind the logs of its own collections. -/
theorem Owns.erase (ho : Owns s.databases h path) (hasc : Ascending s.databases)
    (hdb : s.databases.get? name = some db) :
    h ∈ db.live.values ∨ Owns (s.databases.erase name) h path := by
  obtain ⟨database, db₀, collection, hdb₀, hlive, hdriver, hname, hp⟩ := ho
  by_cases heq : database = name
  · rw [heq, hdb] at hdb₀
    cases hdb₀
    exact .inl (List.mem_map.mpr ⟨_, mem_of_get? hlive, rfl⟩)
  · exact .inr ⟨database, db₀, collection, (get?_erase_ne hasc heq).trans hdb₀, hlive, hdriver,
      hname, hp⟩

theorem hosted_open {c : DatabaseConfig} (hc : A c)
    (h : Database.open_ c .bundled = .ok db) : Hosted A c.name db := by
  obtain ⟨_, -, h⟩ := bind_eq_ok h
  obtain ⟨driver, hdriver, h⟩ := bind_eq_ok h
  cases h
  refine ⟨hc, rfl, rfl, fun hlog => ?_, ascending_nil⟩
  subst hlog
  rw [DriverRegistry.find] at hdriver
  cases hfound : Keyed.get? c.driver DriverRegistry.bundled with
  | none =>
    rw [hfound] at hdriver
    cases hdriver
  | some found =>
    rw [hfound] at hdriver
    cases hdriver
    have hmem : (c.driver, StoreDriver.log) ∈ [("log", .log), ("memory", .memory)] :=
      mem_of_get? hfound
    simpa using hmem

namespace Alike

theorem databases_eq (h : Alike A E s t) : t.databases = s.databases := by rw [h.rest]

theorem hosted_insert (hst : Alike A E s t) (hdb : Hosted A name db) {other : String}
    {db' : Database} (h : (s.databases.insert name db).get? other = some db') :
    Hosted A other db' := by
  by_cases heq : other = name
  · subst heq
    rw [get?_insert_same] at h
    cases h
    exact hdb
  · rw [get?_insert_ne heq] at h
    exact hst.hosted h

theorem withShelf {E' : List Handle} (hst : Alike A E s t) (hab : a.Alike b)
    (howned : ∀ h path file, a.HasOpen h path file → h ∈ E' ∨ Owns s.databases h path) :
    Alike A E' { s with shelf := a } { t with shelf := b } := by
  refine ⟨?_, hst.registry, hst.ascending, hst.hosted, hab, fun ho => howned _ _ _ ho⟩
  rw [hst.rest]

/-- Both servers take another database and other shelves. -/
theorem place {E' : List Handle} (hst : Alike A E s t) (hdb : Hosted A name db) (hab : a.Alike b)
    (howned : ∀ h path file, a.HasOpen h path file →
      h ∈ E' ∨ Owns (s.databases.insert name db) h path) :
    Alike A E' (s.place name (db, a)) (t.place name (db, b)) := by
  refine ⟨?_, hst.registry, hst.ascending.insert _ _, hst.hosted_insert hdb, hab,
    fun ho => howned _ _ _ ho⟩
  rw [hst.rest]
  rfl

/-! ## Collections -/

theorem on {α : Type} (hst : Alike A E s t) {f : CollectionAction Backend α} {Q : α → α → Prop}
    (hf : ∀ p, Relates (Collection.Twins (Backend.Alike p)) f f Q) (h : Handle) :
    SameOutcome Q (s.shelf.on h f).1 (t.shelf.on h f).1 ∧
      Alike A E { s with shelf := (s.shelf.on h f).2 } { t with shelf := (t.shelf.on h f).2 } := by
  obtain ⟨hout, hshelf, hopen⟩ := hst.shelf.on hf h
  refine ⟨hout, hst.withShelf hshelf fun h' path file ho => ?_⟩
  obtain ⟨file', ho'⟩ := hopen h' path file ho
  exact hst.owned ho'

/-- When it was closed, a collection needs no owner. -/
theorem on_close (hst : Alike A (h :: E) s t) :
    SameOutcome Eq (s.shelf.on h Collection.close).1 (t.shelf.on h Collection.close).1 ∧
      Alike A E { s with shelf := (s.shelf.on h Collection.close).2 }
        { t with shelf := (t.shelf.on h Collection.close).2 } := by
  obtain ⟨hout, hshelf, hopen⟩ := hst.shelf.on
    (fun p => Collection.relates_close (Backend.indistinct_alike p)) h
  refine ⟨hout, hst.withShelf hshelf fun h' path file ho => ?_⟩
  obtain ⟨file', ho'⟩ := hopen h' path file ho
  rcases hst.owned ho' with hmem | howner
  · rcases List.mem_cons.mp hmem with rfl | hmem
    · exact absurd ho (Shelf.not_hasOpen_close s.shelf h' path file)
    · exact .inl hmem
  · exact .inr howner

theorem on_silent {α : Type} (hst : Alike A E s t) {f : CollectionAction Backend α}
    (hf : ∀ p, Silent (Collection.Twins (Backend.Alike p)) f) (h : Handle) :
    Alike A E { s with shelf := (s.shelf.on h f).2 } t := by
  obtain ⟨hshelf, hopen⟩ := hst.shelf.on_silent hf h
  have howned : ∀ h' path file, (s.shelf.on h f).2.HasOpen h' path file →
      h' ∈ E ∨ Owns s.databases h' path := by
    intro h' path file ho
    obtain ⟨file', ho'⟩ := hopen h' path file ho
    exact hst.owned ho'
  exact hst.withShelf hshelf howned

/-- No open log lies where that of a collection does that is not there. -/
theorem apart (hA : DatabaseConfig.KeepApart A) (hst : Alike A [] s t)
    (hdb : s.databases.get? name = some db) {collection : String}
    (hnone : db.live.get? collection = none) (hname : Database.isCollectionName collection)
    (hdriver : db.driver = .log) (hp : db.config.logOf collection = .ok p)
    (ho : s.shelf.HasOpen h path file) : Log.Apart path p := by
  obtain ⟨database, db', name', hdb', hlive, hdriver', hname', hp'⟩ :=
    (hst.owned ho).resolve_left List.not_mem_nil
  by_cases heq : database = name
  · rw [heq, hdb] at hdb'
    cases hdb'
    refine DatabaseConfig.logs_apart_of_ne hname' hname hp' hp ?_
    rintro rfl
    rw [hnone] at hlive
    cases hlive
  · have hhosted := hst.hosted hdb
    have hhosted' := hst.hosted hdb'
    refine hA _ _ hhosted'.admitted hhosted.admitted (hhosted'.driver hdriver')
      (hhosted.driver hdriver) ?_ _ _ _ _ hname' hname hp' hp
    rwa [hhosted'.name_eq, hhosted.name_eq]

/-! ## Databases -/

theorem disk_eq (hst : Alike A E s t) : t.shelf.disk = s.shelf.disk := hst.shelf.disk

/-- The store of a collection that is not there is opened on both disks. -/
theorem openStore (hA : DatabaseConfig.KeepApart A) (hst : Alike A [] s t)
    (hdb : s.databases.get? name = some db) {collection : String}
    (hnone : db.live.get? collection = none) (hname : Database.isCollectionName collection)
    {opened : Except DriverError Backend} {e : Disk}
    (hopen : db.driver.openStore (db.location collection) db.config.store s.shelf.disk =
      (opened, e)) :
    (∀ h path file, s.shelf.HasOpen h path file → Spares (key (wayOf path)) s.shelf.disk e) ∧
      Alike A [] { s with shelf := { s.shelf with disk := e } }
        { t with shelf := { t.shelf with disk := e } } := by
  obtain ⟨he, hspares, -⟩ := StoreDriver.openStore_spec hst.shelf.sound hopen
  have hother : ∀ h path file, s.shelf.HasOpen h path file →
      Spares (key (wayOf path)) s.shelf.disk e :=
    fun h path file ho => hspares _ fun p hdriver hp =>
      (hst.apart hA hdb hnone hname hdriver hp ho).log
  refine ⟨hother, hst.withShelf (hst.shelf.withDisk he hother) fun h path file ho => ?_⟩
  exact hst.owned ho

/-- A collection comes up on both servers that was not there. -/
theorem add (hA : DatabaseConfig.KeepApart A) (hst : Alike A [] s t)
    (hdb : s.databases.get? name = some db) {collection : String}
    (hnone : db.live.get? collection = none) (hname : Database.isCollectionName collection)
    {c : Collection Backend} (htwins : Collection.Twins Backend.Paired
      (Shelf.loaded s.shelf.disk c) (Shelf.loaded s.shelf.disk c))
    (hlog : ∀ path file s₀, c.store = .log path file s₀ → db.driver = .log ∧
      db.config.logOf collection = .ok path ∧ s.shelf.disk.linked path = some file) :
    Alike A []
      (s.place name ({ db with live := db.live.insert collection s.shelf.opened.size },
        (s.shelf.add c).2))
      (t.place name ({ db with live := db.live.insert collection s.shelf.opened.size },
        (t.shelf.add c).2)) := by
  have hhosted := hst.hosted hdb
  have hshelf := hst.shelf.add htwins fun path file s₀ hstore _ => by
    obtain ⟨hdriver, hp, hlinked⟩ := hlog path file s₀ hstore
    exact ⟨hlinked, fun h path' file' ho => (hst.apart hA hdb hnone hname hdriver hp ho).log⟩
  have hlive : Hosted A name { db with live := db.live.insert collection s.shelf.opened.size } :=
    ⟨hhosted.admitted, hhosted.name_eq, hhosted.isOpen, hhosted.driver,
      hhosted.ascending.insert _ _⟩
  refine hst.place hlive hshelf fun h path file ho => .inr ?_
  rcases ho.of_add with ho | ⟨rfl, s₀, hstore, -⟩
  · have howner := (hst.owned ho).resolve_left List.not_mem_nil
    refine howner.insert fun db₀ hdb₀ => ?_
    rw [hdb] at hdb₀
    cases hdb₀
    refine ⟨rfl, rfl, fun other hother => ?_⟩
    refine (get?_insert_ne ?_ _).trans hother
    rintro rfl
    rw [hnone] at hother
    cases hother
  · obtain ⟨hdriver, hp, -⟩ := hlog path file s₀ hstore
    exact ⟨name, _, collection, get?_insert_same _ _ _,
      get?_insert_same _ _ _, hdriver, hname, hp⟩

/-- A collection is made on both servers. -/
theorem create (hA : DatabaseConfig.KeepApart A) (hst : Alike A [] s t)
    (hdb : s.databases.get? name = some db) {collection : String}
    (hnone : db.live.get? collection = none) {schema : Option Schema}
    (hschema : ∀ s, schema = some s → s.WellFormed) :
    SameOutcome Eq (Database.create collection schema (db, s.shelf)).1
        (Database.create collection schema (db, t.shelf)).1 ∧
      Alike A [] (s.place name (Database.create collection schema (db, s.shelf)).2)
        (t.place name (Database.create collection schema (db, t.shelf)).2) := by
  have hdb' : t.databases.get? name = some db := hst.databases_eq ▸ hdb
  rcases Database.create_cases db collection schema with ⟨fault, -, hrefused⟩ | ⟨hname, -, hcreated⟩
  · rw [hrefused, hrefused]
    refine ⟨rfl, ?_⟩
    dsimp only
    rwa [place_self hdb, place_self hdb']
  rw [hcreated, hcreated, Database.created, Database.created, hst.disk_eq]
  cases hopen : db.driver.openStore (db.location collection) db.config.store s.shelf.disk with
  | mk opened e =>
    obtain ⟨-, -, hopened⟩ := StoreDriver.openStore_spec hst.shelf.sound hopen
    obtain ⟨-, hdisk⟩ := hst.openStore hA hdb hnone hname hopen
    cases opened with
    | error fault =>
      refine ⟨rfl, ?_⟩
      rw [← place_self (s := { s with shelf := { s.shelf with disk := e } }) hdb,
        ← place_self (s := { t with shelf := { t.shelf with disk := e } }) hdb'] at hdisk
      exact hdisk
    | ok store =>
      obtain ⟨hpaired, hlog⟩ := hopened store rfl
      rw [hst.shelf.size]
      exact ⟨rfl, hdisk.add hA hdb hnone hname ⟨hpaired, rfl, hschema⟩ hlog⟩

/-- What is kept for a collection that is not there is removed from both disks. -/
theorem destroy (hA : DatabaseConfig.KeepApart A) (hst : Alike A [] s t)
    (hdb : s.databases.get? name = some db) {collection : String}
    (hnone : db.live.get? collection = none) (hname : Database.isCollectionName collection)
    {removed : Except DriverError Unit} {e : Disk}
    (hrun : db.driver.destroy (db.location collection) db.config.store s.shelf.disk =
      (removed, e)) :
    Alike A [] { s with shelf := { s.shelf with disk := e } }
      { t with shelf := { t.shelf with disk := e } } := by
  obtain ⟨he, hspares⟩ := StoreDriver.destroy_spec hst.shelf.sound hrun
  have hshelf := hst.shelf.withDisk he fun h path file ho => hspares _ fun p hdriver hp =>
    have hapart := hst.apart hA hdb hnone hname hdriver hp ho
    ⟨hapart.log, hapart.compact⟩
  exact hst.withShelf hshelf fun h path file ho => hst.owned ho

/-- The name of a collection is taken out on both servers. Its handle is left without an owner until
it is closed. -/
theorem forget (hst : Alike A [] s t) (hdb : s.databases.get? name = some db) (collection : String) :
    Alike A (db.live.get? collection).toList
      (s.place name ({ db with live := db.live.erase collection }, s.shelf))
      (t.place name ({ db with live := db.live.erase collection }, t.shelf)) := by
  have hhosted := hst.hosted hdb
  have hrest : Hosted A name { db with live := db.live.erase collection } := ⟨hhosted.admitted,
    hhosted.name_eq, hhosted.isOpen, hhosted.driver, hhosted.ascending.erase _⟩
  refine hst.place hrest hst.shelf fun h path file ho => ?_
  by_cases hclosing : h ∈ (db.live.get? collection).toList
  · exact .inl hclosing
  have howner := (hst.owned ho).resolve_left List.not_mem_nil
  refine .inr (howner.insert fun db₀ hdb₀ => ?_)
  rw [hdb] at hdb₀
  cases hdb₀
  refine ⟨rfl, rfl, fun other hlive => ?_⟩
  refine (get?_erase_ne hhosted.ascending ?_).trans hlive
  rintro rfl
  rw [hlive] at hclosing
  exact hclosing List.mem_cons_self

/-- The same database on both servers, with its collections on shelves that are alike. -/
def Hosts (A : DatabaseConfig → Prop) (s t : Server) (name : String) (db : Database)
    (a b : Database × Shelf) : Prop :=
  a.1 = db ∧ b.1 = db ∧ Alike A [] (s.place name a) (t.place name b)

/-- What is kept for a collection goes from the disks of servers that do not know it. -/
theorem relates_onDisk_destroy (s t : Server) (name : String) (hA : DatabaseConfig.KeepApart A)
    {collection : String} (hnone : db.live.get? collection = none)
    (hname : Database.isCollectionName collection) (found : Bool) :
    Relates (Hosts A s t name db)
      (do
        Database.onDisk (db.driver.destroy (db.location collection) db.config.store)
        return found)
      (do
        Database.onDisk (db.driver.destroy (db.location collection) db.config.store)
        return found) Eq := by
  have hdestroy : Relates (Hosts A s t name db)
      (Database.onDisk (db.driver.destroy (db.location collection) db.config.store))
      (Database.onDisk (db.driver.destroy (db.location collection) db.config.store)) Eq := by
    rintro ⟨first, a⟩ ⟨second, b⟩ ⟨hfirst, hsecond, hab⟩
    obtain rfl : db = first := hfirst.symm
    obtain rfl : db = second := hsecond.symm
    have hdisk : b.disk = a.disk := hab.disk_eq
    cases hrun : db.driver.destroy (db.location collection) db.config.store a.disk with
    | mk removed e =>
      simp only [Database.onDisk, Database.onShelf, hdisk, hrun]
      exact ⟨.refl _, rfl, rfl, hab.destroy hA (get?_place _ _ _) hnone hname hrun⟩
  exact hdestroy.bind fun _ _ _ => Relates.pure rfl

/-- A collection is dropped on both servers. -/
theorem dropCollection (hA : DatabaseConfig.KeepApart A) (hst : Alike A [] s t)
    (hdb : s.databases.get? name = some db) (collection : String) :
    SameOutcome Eq (Database.dropCollection collection (db, s.shelf)).1
        (Database.dropCollection collection (db, t.shelf)).1 ∧
      Alike A [] (s.place name (Database.dropCollection collection (db, s.shelf)).2)
        (t.place name (Database.dropCollection collection (db, t.shelf)).2) := by
  have hdb' : t.databases.get? name = some db := hst.databases_eq ▸ hdb
  have hhosted := hst.hosted hdb
  cases hname : Database.isCollectionName collection with
  | false =>
    rw [Database.dropCollection_refused hhosted.isOpen hname,
      Database.dropCollection_refused hhosted.isOpen hname]
    refine ⟨rfl, ?_⟩
    dsimp only
    rwa [place_self hdb, place_self hdb']
  | true =>
    rw [Database.dropCollection_eq hhosted.isOpen hname,
      Database.dropCollection_eq hhosted.isOpen hname]
    let rest : Database := { db with live := db.live.erase collection }
    have hgone : rest.live.get? collection = none := get?_erase_self hhosted.ascending _
    have hremove := relates_onDisk_destroy s t name hA hgone hname
    have herased := hst.forget hdb collection
    cases hlive : db.live.get? collection with
    | none =>
      rw [hlive] at herased
      obtain ⟨hout, hstates⟩ := hremove false _ _ ⟨rfl, rfl, herased⟩
      exact ⟨hout, hstates.2.2⟩
    | some h =>
      rw [hlive] at herased
      obtain ⟨hout, hclosed⟩ := herased.on_close
      obtain ⟨hout, hstates⟩ := Relates.after (R := Hosts A s t name rest) (Q := Eq)
        (x := Database.onCollection h Collection.close)
        (y := Database.onCollection h Collection.close) (s := (rest, s.shelf))
        (t := (rest, t.shelf)) ⟨hout.mapError _, rfl, rfl, hclosed⟩ fun _ _ _ => hremove true
      exact ⟨hout, hstates.2.2⟩

/-- A database is closed on both servers, and its collections with it. -/
theorem closeDatabase (hst : Alike A [] s t) (name : String) :
    SameOutcome Eq (Server.closeDatabase name s).1 (Server.closeDatabase name t).1 ∧
      Alike A [] (Server.closeDatabase name s).2 (Server.closeDatabase name t).2 := by
  rw [Server.closeDatabase, Server.closeDatabase, hst.databases_eq]
  cases hdb : s.databases.get? name with
  | none => exact ⟨rfl, hst⟩
  | some db =>
    have hhosted := hst.hosted hdb
    dsimp only
    rw [Database.close_eq hhosted.isOpen, Database.close_eq hhosted.isOpen]
    let R (E : List Handle) (a b : Database × Shelf) : Prop :=
      Alike A E { s with databases := s.databases.erase name, shelf := a.2 }
        { t with databases := s.databases.erase name, shelf := b.2 }
    have hforgotten : R db.live.values ({ db with live := [], closed := true }, s.shelf)
        ({ db with live := [], closed := true }, t.shelf) := by
      refine ⟨?_, hst.registry, hst.ascending.erase _, fun {other db'} hdb' => ?_, hst.shelf,
        fun ho => ?_⟩
      · rw [hst.rest]
      · exact hst.hosted ((get?_erase_eq_some hst.ascending).mp hdb').2
      · exact ((hst.owned ho).resolve_left List.not_mem_nil).erase hst.ascending hdb
    have hclose : ∀ h rest a b, R (h :: rest) a b →
        SameOutcome Eq (Database.onCollection h Collection.close a).1
            (Database.onCollection h Collection.close b).1 ∧
          R rest (Database.onCollection h Collection.close a).2
            (Database.onCollection h Collection.close b).2 := by
      intro h rest a b hab
      obtain ⟨hout, hclosed⟩ := hab.on_close
      exact ⟨hout.mapError _, hclosed⟩
    obtain ⟨hout, hclosed⟩ := Relates.inTurn_of_left hclose hforgotten
    exact ⟨(hout.mapError ServerError.database).map fun () () _ => rfl, hclosed⟩

theorem relates_openDatabase {c : DatabaseConfig} (hc : A c) :
    Relates (Alike A []) (Server.openDatabase c) (Server.openDatabase c) Eq := by
  refine (relates_ensureRunning fun h => h.rest).bind fun _ _ _ => ?_
  refine Relates.get.bind fun s t hst => ?_
  have hopened : SameOutcome (fun a b => a = b ∧ Hosted A c.name a)
      ((Database.open_ c s.registry).mapError ServerError.database)
      ((Database.open_ c s.registry).mapError ServerError.database) := by
    refine .of_eq rfl fun db hok => ?_
    cases hopen : Database.open_ c s.registry with
    | error fault =>
      rw [hopen] at hok
      cases hok
    | ok db =>
      rw [hopen] at hok
      cases hok
      exact hosted_open hc (hst.registry ▸ hopen)
  have hrest := hst.rest
  rw [hrest]
  split
  · exact Relates.throw _
  next hnew =>
    refine (Relates.lift hopened).bind ?_
    rintro db _ ⟨rfl, hhosted⟩
    have hplaced : Alike A [] (s.place c.name (db, s.shelf)) (t.place c.name (db, t.shelf)) := by
      refine hst.place hhosted hst.shelf fun h path file ho => .inr ?_
      refine ((hst.owned ho).resolve_left List.not_mem_nil).insert fun _ hdb₀ => ?_
      rw [contains, hdb₀] at hnew
      exact absurd rfl hnew
    rw [hrest] at hplaced
    exact Relates.set hplaced

end Alike

/-- Databases that keep their logs apart are hosted alike. -/
theorem hosting_alike (hA : DatabaseConfig.KeepApart A) :
    Hosting Backend.Alike A (Alike A []) where
  indistinct := Backend.indistinct_alike
  rest h := h.rest
  idle h active nextId isShutDown := by
    refine ⟨?_, h.registry, h.ascending, h.hosted, h.shelf, h.owned⟩
    rw [h.rest]
  working handle f Q hf a b h := by
    obtain ⟨hout, hstates⟩ := Alike.on h hf handle
    exact ⟨hout.mapError _, hstates⟩
  creating {s t name a b} h {collection} hnone {schema} hschema := by
    obtain ⟨db, a⟩ := a
    obtain ⟨db', b⟩ := b
    obtain rfl : db' = db := database_eq h.rest
    obtain ⟨hout, hstates⟩ := h.create hA (get?_place s name _) hnone hschema
    rw [place_place, place_place] at hstates
    exact ⟨hout, hstates⟩
  dropping {s t name} collection a b h := by
    obtain ⟨db, a⟩ := a
    obtain ⟨db', b⟩ := b
    obtain rfl : db' = db := database_eq h.rest
    obtain ⟨hout, hstates⟩ := h.dropCollection hA (get?_place s name _) collection
    rw [place_place, place_place] at hstates
    exact ⟨hout, hstates⟩
  opening hc := Alike.relates_openDatabase hc
  closing name s t h := h.closeDatabase name

end Server
end DocBase
