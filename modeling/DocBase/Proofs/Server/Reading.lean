import DocBase.Proofs.Server.Owners

/-! What requests that only read leave behind. They change nothing in the collections that are
there, and the only thing that can be told of them afterwards is that the collection which they
asked for is there. -/
namespace DocBase
open Keyed Disk

/-! ## Collections as they are read -/

/-- Collections with the same documents, schema and indexes. -/
structure Collection.Same (c d : Collection Backend) : Prop where
  name : d.name = c.name
  schema : d.schema = c.schema
  indexes : d.indexes = c.indexes
  ids : (RecordStore.scan .all d.store).1 = (RecordStore.scan .all c.store).1
  record (id : String) : (RecordStore.get id d.store).1 = (RecordStore.get id c.store).1

namespace Collection
variable {c d : Collection Backend}

theorem Same.refl (c : Collection Backend) : Same c c := ⟨rfl, rfl, rfl, rfl, fun _ => rfl⟩

theorem Same.symm (h : Same c d) : Same d c :=
  ⟨h.name.symm, h.schema.symm, h.indexes.symm, h.ids.symm, fun id => (h.record id).symm⟩

theorem Same.trans {e : Collection Backend} (h : Same c d) (h' : Same d e) : Same c e :=
  ⟨h'.name.trans h.name, h'.schema.trans h.schema, h'.indexes.trans h.indexes,
    h'.ids.trans h.ids, fun id => (h'.record id).trans (h.record id)⟩

theorem Twins.same (h : Twins Backend.Paired c d) : Same c d := by
  have hindistinct := Backend.indistinct_alike c.store.place
  refine ⟨h.name_eq, h.schema_eq, h.indexes_eq, ?_, fun id => ?_⟩
  · obtain ⟨r, s', t', hs, ht, -⟩ := hindistinct.scan h.store .all
    rw [hs, ht]
  · obtain ⟨r, s', t', hs, ht, -⟩ := hindistinct.get h.store id
    rw [hs, ht]

/-- A collection is the same on another disk that has the same in its log. -/
theorem same_loaded {a e : Disk} (hsame : ∀ path file s, c.store = .log path file s →
      s.isOpen = true → e.read file = a.read file) :
    Same (Shelf.loaded a c) (Shelf.loaded e c) := by
  obtain ⟨hget, hscan⟩ := Backend.reads_load hsame
  exact ⟨rfl, rfl, rfl, hscan .all, hget⟩

end Collection

namespace Server

/-- The collection of that name, with its files as they are on the disk. -/
def collection? (s : Server) (database name : String) : Option (Collection Backend) := do
  let db ← s.databases.get? database
  let h ← db.live.get? name
  let c ← s.shelf.get? h
  return Shelf.loaded s.shelf.disk c

/-- The collections that a database lists. -/
def names (s : Server) (database : String) : List String :=
  ((s.databases.get? database).map Database.list).getD []

/-- There is no such collection, but one may be made. -/
def lacks (s : Server) (database name : String) : Bool :=
  match s.databases.get? database with
  | none => false
  | some db => Database.isCollectionName name && !db.has name &&
      decide (db.live.length < db.config.maxCollections)

/-- What both servers answer is the same, whatever happens to both. -/
def AnswersAlike (A : DatabaseConfig → Prop) (s t : Server) : Prop :=
  ∀ events e, (∀ e ∈ events, Event.Admits A e) → Event.Admits A e →
    (e.run (runAll events s)).1 = (e.run (runAll events t)).1

/-- From one server to the other all collections stay, and no others are new than such, which are
bare. -/
structure Keeps (fresh : String → String → Bool) (s t : Server) : Prop where
  names (database : String) :
    (t.names database).filter (fun name => !fresh database name) = s.names database
  same {database name : String} {c : Collection Backend}
    (hc : s.collection? database name = some c) :
    ∃ d, t.collection? database name = some d ∧ c.Same d
  bare {database name : String} {d : Collection Backend} (hfresh : fresh database name)
    (hd : t.collection? database name = some d) : d.schema = none ∧ d.indexes = []

/-- Whether a collection may be made for the request. -/
def makes (s : Server) (r : Request) (database name : String) : Bool :=
  match r.operation with
  | .listCollections => false
  | .on collection _ => database == r.database && name == collection && s.lacks database name

variable {A : DatabaseConfig → Prop} {E : List Handle} {s t u : Server} {database name : String}
  {db : Database} {c d : Collection Backend} {fresh : String → String → Bool} {e : Disk}

theorem collection?_eq_some : s.collection? database name = some c ↔
    ∃ db h c₀, s.databases.get? database = some db ∧ db.live.get? name = some h ∧
      s.shelf.get? h = some c₀ ∧ Shelf.loaded s.shelf.disk c₀ = c := by
  simp [collection?, Option.bind_eq_some_iff]

theorem lacks_eq_true : s.lacks database name = true ↔
    ∃ db, s.databases.get? database = some db ∧ Database.isCollectionName name ∧
      db.live.get? name = none ∧ db.live.length < db.config.maxCollections := by
  rw [lacks]
  cases s.databases.get? database with
  | none => simp
  | some db => simp [Database.has, contains, and_assoc]

/-! ## One collection more -/

/-- The server with another collection, for which a database has a name. -/
def withCollection (s : Server) (database : String) (db : Database) (name : String)
    (c : Collection Backend) : Server :=
  s.place database ({ db with live := db.live.insert name s.shelf.opened.size }, (s.shelf.add c).2)

section
variable {other : String}

theorem names_withCollection_of_ne (hne : other ≠ database) :
    (s.withCollection database db name c).names other = s.names other := by
  rw [Server.names, withCollection, place, get?_insert_ne hne, ← Server.names]

/-- Without what was lacking the database lists what it listed before. -/
theorem filter_names_withCollection (hdb : s.databases.get? database = some db)
    (hasc : Ascending db.live) {keep : String → Bool} (hname : keep name = false)
    (hlacks : ∀ other, keep other = false → db.live.get? other = none) :
    ((s.withCollection database db name c).names database).filter keep = s.names database := by
  have hlive : (db.live.insert name s.shelf.opened.size).filter (fun e => keep e.1) = db.live := by
    refine Keyed.ext ((hasc.insert _ _).sublist List.filter_sublist) hasc fun other => ?_
    rw [get?_filter (hasc.insert _ _)]
    cases hother : keep other with
    | false => exact (hlacks other hother).symm
    | true =>
      refine (if_pos rfl).trans (get?_insert_ne ?_ _)
      rintro rfl
      rw [hname] at hother
      cases hother
  rw [Server.names, Server.names, withCollection, get?_place, hdb]
  dsimp only [Option.map_some, Option.getD_some, Database.list]
  rw [← congrArg Keyed.keys hlive, Keyed.keys, Keyed.keys, List.filter_map]
  rfl

theorem collection?_withCollection_of_some (hdb : s.databases.get? database = some db)
    (hnone : db.live.get? name = none) {database' : String}
    (hd : s.collection? database' other = some d) :
    (s.withCollection database db name c).collection? database' other = some d := by
  obtain ⟨db', h, d₀, hdb', hlive, hget, rfl⟩ := collection?_eq_some.mp hd
  have hold : (s.shelf.add c).2.get? h = some d₀ := by
    obtain ⟨hbound, -⟩ := Array.getElem?_eq_some_iff.mp hget
    rw [Shelf.get?_add, if_neg (Nat.ne_of_lt hbound), hget]
  by_cases heq : database' = database
  · subst heq
    rw [hdb] at hdb'
    cases hdb'
    refine collection?_eq_some.mpr ⟨_, h, d₀, get?_place _ _ _, ?_, hold, rfl⟩
    refine (get?_insert_ne ?_ _).trans hlive
    rintro rfl
    rw [hnone] at hlive
    cases hlive
  · exact collection?_eq_some.mpr ⟨db', h, d₀, (get?_insert_ne heq _).trans hdb', hlive, hold, rfl⟩

/-- A collection that is there is the new one, or its name was there before. -/
theorem cases_of_collection?_withCollection (hdb : s.databases.get? database = some db)
    {database' : String}
    (hd : (s.withCollection database db name c).collection? database' other = some d) :
    d = Shelf.loaded s.shelf.disk c ∨
      ∃ db' h, s.databases.get? database' = some db' ∧ db'.live.get? other = some h := by
  obtain ⟨db', h, d₀, hdb', hlive, hget, rfl⟩ := collection?_eq_some.mp hd
  by_cases heq : database' = database
  · subst heq
    rw [withCollection, get?_place] at hdb'
    cases hdb'
    by_cases hname : other = name
    · subst hname
      rw [get?_insert_same] at hlive
      cases hlive
      change (s.shelf.add c).2.get? _ = _ at hget
      rw [Shelf.get?_add, if_pos rfl] at hget
      cases hget
      exact .inl rfl
    · rw [get?_insert_ne hname] at hlive
      exact .inr ⟨db, h, hdb, hlive⟩
  · rw [withCollection, place, get?_insert_ne heq] at hdb'
    exact .inr ⟨db', h, hdb', hlive⟩

end

/-! ## Servers that are alike -/

theorem Alike.answersAlike (hA : DatabaseConfig.KeepApart A) (h : Alike A [] s t) :
    AnswersAlike A s t := by
  have H := hosting_alike hA
  exact fun events e hevents he => (H.run he (H.runAll hevents h)).1

theorem Alike.collection?_of_right (h : Alike A E s t)
    (hd : t.collection? database name = some d) :
    ∃ c, s.collection? database name = some c ∧ c.Same d := by
  obtain ⟨db, handle, d₀, hdb, hlive, hget, rfl⟩ := collection?_eq_some.mp hd
  rw [h.databases_eq] at hdb
  cases hget' : s.shelf.get? handle with
  | none =>
    rw [h.shelf.get?_none hget'] at hget
    cases hget
  | some c₀ =>
    obtain ⟨d₁, hd₁, htwins⟩ := h.shelf.twins hget'
    rw [hget] at hd₁
    cases hd₁
    rw [h.disk_eq]
    exact ⟨_, collection?_eq_some.mpr ⟨db, handle, c₀, hdb, hlive, hget', rfl⟩, htwins.same⟩

theorem Alike.collection?_of_left (h : Alike A E s t)
    (hc : s.collection? database name = some c) :
    ∃ d, t.collection? database name = some d ∧ c.Same d := by
  obtain ⟨db, handle, c₀, hdb, hlive, hget, rfl⟩ := collection?_eq_some.mp hc
  obtain ⟨d₀, hget', htwins⟩ := h.shelf.twins hget
  rw [← h.databases_eq] at hdb
  refine ⟨_, collection?_eq_some.mpr ⟨db, handle, d₀, hdb, hlive, hget', rfl⟩, ?_⟩
  rw [h.disk_eq]
  exact htwins.same

namespace Keeps

theorem of_alike (h : Keeps fresh s t) (hut : Alike A E u t) : Keeps fresh s u := by
  refine ⟨fun database => ?_, fun hc => ?_, fun hfresh hd => ?_⟩
  · rw [Server.names, ← hut.databases_eq]
    exact h.names database
  · obtain ⟨d, hd, hcd⟩ := h.same hc
    obtain ⟨c', hc', hsame⟩ := hut.collection?_of_right hd
    exact ⟨c', hc', hcd.trans hsame.symm⟩
  · obtain ⟨d', hd', hsame⟩ := hut.collection?_of_left hd
    rw [← hsame.schema, ← hsame.indexes]
    exact h.bare hfresh hd'

/-- Nothing is listed that is lacking. -/
theorem filter_names (hst : Alike A E s t)
    (hfresh : ∀ database name, fresh database name → s.lacks database name) (database : String) :
    (s.names database).filter (fun name => !fresh database name) = s.names database := by
  rw [List.filter_eq_self]
  intro name hname
  cases hlacks : fresh database name with
  | false => rfl
  | true =>
    obtain ⟨db, hdb, -, hnone, -⟩ := lacks_eq_true.mp (hfresh _ _ hlacks)
    rw [Server.names, hdb, Option.map_some, Option.getD_some, Database.list,
      mem_keys_iff_get? (hst.hosted hdb).ascending, hnone] at hname
    cases hname

theorem bare_of_lacks (hfresh : ∀ database name, fresh database name → s.lacks database name)
    (hnew : fresh database name) (hd : t.collection? database name = some d)
    (hdatabases : t.databases = s.databases) : d.schema = none ∧ d.indexes = [] := by
  obtain ⟨db, h, d₀, hdb, hlive, -, -⟩ := collection?_eq_some.mp hd
  obtain ⟨db', hdb', -, hnone, -⟩ := lacks_eq_true.mp (hfresh _ _ hnew)
  rw [hdatabases, hdb'] at hdb
  cases hdb
  rw [hnone] at hlive
  cases hlive

theorem refl (hst : Alike A E s t)
    (hfresh : ∀ database name, fresh database name → s.lacks database name) : Keeps fresh s s :=
  ⟨filter_names hst hfresh, fun hc => ⟨_, hc, .refl _⟩, fun hnew hd =>
    bare_of_lacks hfresh hnew hd rfl⟩

/-- The disk changes where no open log lies. -/
theorem withDisk (hst : Alike A E s t)
    (hfresh : ∀ database name, fresh database name → s.lacks database name)
    (hspares : ∀ h path file, s.shelf.HasOpen h path file → Spares (key (wayOf path)) s.shelf.disk e) :
    Keeps fresh s { s with shelf := { s.shelf with disk := e } } := by
  refine ⟨fun database => filter_names (s := s) hst hfresh database, fun hc => ?_,
    fun hnew hd => bare_of_lacks hfresh hnew hd rfl⟩
  obtain ⟨db, h, c₀, hdb, hlive, hget, rfl⟩ := collection?_eq_some.mp hc
  refine ⟨_, collection?_eq_some.mpr ⟨db, h, c₀, hdb, hlive, hget, rfl⟩, ?_⟩
  refine Collection.same_loaded fun path file s₀ hstore hs => ?_
  have ho : s.shelf.HasOpen h path file := ⟨c₀, s₀, hget, hstore, hs⟩
  exact (hspares h path file ho).bytes (hst.shelf.linked ho)

theorem trans (h : Keeps fresh s t) (h' : Keeps fresh t u) : Keeps fresh s u := by
  refine ⟨fun database => ?_, fun hc => ?_, h'.bare⟩
  · rw [← h.names database, ← h'.names database, List.filter_filter]
    simp
  · obtain ⟨d, hd, hcd⟩ := h.same hc
    obtain ⟨d', hd', hdd'⟩ := h'.same hd
    exact ⟨d', hd', hcd.trans hdd'⟩

/-- A collection comes up that was lacking. -/
theorem add (hst : Alike A E s t) (hdb : s.databases.get? database = some db)
    (hfresh : ∀ database name, fresh database name → s.lacks database name)
    (hnew : fresh database name) (hbare : c.schema = none ∧ c.indexes = []) :
    Keeps fresh s (s.withCollection database db name c) := by
  have hasc := (hst.hosted hdb).ascending
  have hnone : ∀ {database' other db'}, fresh database' other →
      s.databases.get? database' = some db' → db'.live.get? other = none := by
    intro database' other db' hother hdb'
    obtain ⟨db₀, hdb₀, -, hnone, -⟩ := lacks_eq_true.mp (hfresh _ _ hother)
    rw [hdb'] at hdb₀
    cases hdb₀
    exact hnone
  refine ⟨fun database' => ?_,
    fun hc => ⟨_, collection?_withCollection_of_some hdb (hnone hnew hdb) hc, .refl _⟩,
    fun hnew' hd => ?_⟩
  · by_cases heq : database' = database
    · subst heq
      exact filter_names_withCollection hdb hasc (by simp [hnew])
        fun other hother => hnone (by simpa using hother) hdb
    · rw [names_withCollection_of_ne heq]
      exact filter_names hst hfresh database'
  · rcases cases_of_collection?_withCollection hdb hd with rfl | ⟨db', h, hdb', hlive⟩
    · exact hbare
    · rw [hnone hnew' hdb'] at hlive
      cases hlive

/-- Asking for a collection keeps all others. -/
theorem of_collection (hA : DatabaseConfig.KeepApart A) (hst : Alike A [] s s)
    (hfresh : ∀ database name, fresh database name → s.lacks database name)
    (hnew : s.lacks database name → fresh database name) :
    Keeps fresh s (onDatabase database (Database.collection name) s).2 := by
  rw [onDatabase]
  cases hdb : s.databases.get? database with
  | none => exact .refl hst hfresh
  | some db =>
    change Keeps fresh s (s.place database (Database.collection name (db, s.shelf)).2)
    rcases Database.collection_cases db name s.shelf with hsame | ⟨hnone, hname, hroom, hcreated⟩
    · rw [hsame, place_self hdb]
      exact .refl hst hfresh
    have hlacks : s.lacks database name := lacks_eq_true.mpr ⟨db, hdb, hname, hnone, hroom⟩
    rw [hcreated, Database.created]
    cases hopen : db.driver.openStore (db.location name) db.config.store s.shelf.disk with
    | mk opened e =>
      obtain ⟨hspares, hopened⟩ := hst.openStore hA hdb hnone hname hopen
      have hdisk : Keeps fresh s { s with shelf := { s.shelf with disk := e } } :=
        .withDisk hst hfresh hspares
      cases opened with
      | error fault =>
        have hplace := place_self (s := { s with shelf := { s.shelf with disk := e } }) hdb
        exact hplace ▸ hdisk
      | ok store => exact hdisk.trans (.add hopened hdb hfresh (hnew hlacks) ⟨rfl, rfl⟩)

end Keeps

/-! ## Requests -/

/-- Reading from a collection is told from asking for it by nothing. -/
theorem Alike.onCollection (hA : DatabaseConfig.KeepApart A) (hst : Alike A [] s s) {α : Type}
    {f : CollectionAction Backend α} (hf : ∀ p, Silent (Collection.Twins (Backend.Alike p)) f)
    (database name : String) :
    Alike A [] (onCollection database name f s).2
      (onDatabase database (Database.collection name) s).2 := by
  rw [Server.onCollection, onDatabase, onDatabase]
  cases hdb : s.databases.get? database with
  | none => exact hst
  | some db =>
    have hplaced : Placed (Alike A []) s s database (db, s.shelf) (db, s.shelf) := by
      rwa [Placed, place_self hdb]
    have hasked := ((hosting_alike hA).relates_collection name _ _ hplaced).2
    exact Silent.after (fun h a b hab => hab.on_silent hf h) hasked

theorem bind_pure_snd {σ ε α β : Type} (x : ExceptT ε (StateM σ) α) (g : α → β) (s : σ) :
    ((x >>= fun a => pure (g a)) s).2 = (x s).2 := by
  cases hx : x s with
  | mk r t =>
    cases r with
    | ok a => rw [bind_of_ok hx]; rfl
    | error e => rw [bind_of_error hx]

/-- What is said of a collection. -/
def described : CollectionAction Backend Json := do
  let c ← get
  let n ← c.size
  return .obj [("documents", countJson n), ("indexes", .arr (c.indexes.keys.map .str)),
    ("name", .str c.name)]

theorem describe_eq : describe = fun h => Database.onCollection h described := rfl

/-- The requests that only look at one collection, if it is there. -/
theorem handleCollection_read (stamps : Nat → Stamp) (database name : String)
    (op : CollectionRequest) (hop : op.isWrite = false ∨ op = .declare none) (s : Server) :
    ∃ (α : Type) (f : CollectionAction Backend α),
      (∀ p, Silent (Collection.Twins (Backend.Alike p)) f) ∧
      (handleCollection stamps database name op s).2 = (onCollection database name f s).2 := by
  have hunmoved := Backend.unmoved_alike
  cases op with
  | get id =>
    exact ⟨_, Collection.get? id, fun p => Collection.silent_get? (hunmoved p) id,
      bind_pure_snd _ _ s⟩
  | find q =>
    exact ⟨_, Collection.find q, fun p => Collection.silent_find (hunmoved p) q,
      bind_pure_snd _ _ s⟩
  | count f =>
    exact ⟨_, Collection.countMatching f, fun p => Collection.silent_countMatching (hunmoved p) f,
      bind_pure_snd _ _ s⟩
  | explain q =>
    exact ⟨_, (do (← get).explain q), fun p => Silent.get_bind fun c => Silent.lift _,
      bind_pure_snd _ _ s⟩
  | declare schema =>
    rcases hop with hop | hop <;> cases hop
    refine ⟨_, described, fun p => ?_, by rw [handleCollection, describe_eq]; rfl⟩
    exact Silent.get_bind fun c => (Silent.lift _).bind fun n => Silent.pure _
  | _ => rcases hop with hop | hop <;> cases hop

theorem ensureRunning_eq (h : s.isShutDown = false) : ensureRunning s = (.ok (), s) := by
  rw [ensureRunning]
  change (if s.isShutDown then _ else _ : ServerAction Unit) s = _
  rw [h]
  rfl

theorem handle_of_shutDown (h : s.isShutDown = true) (stamps : Nat → Stamp) (r : Request) :
    (handle stamps r s).2 = s := by
  have hrefused : ensureRunning s = (.error .shutDown, s) := by
    change (if s.isShutDown then _ else _ : ServerAction Unit) s = _
    rw [h]
    rfl
  rw [handle, bind_of_error hrefused]

theorem handle_listCollections (stamps : Nat → Stamp) (database : String) :
    (handle stamps ⟨database, .listCollections⟩ s).2 = s := by
  cases h : s.isShutDown with
  | true => exact handle_of_shutDown h stamps _
  | false =>
    rw [handle, bind_of_ok (ensureRunning_eq h)]
    dsimp only
    rw [onDatabase]
    cases hdb : s.databases.get? database with
    | none => rfl
    | some db => exact place_self hdb

theorem handle_on (h : s.isShutDown = false) (stamps : Nat → Stamp) (database name : String)
    (op : CollectionRequest) : handle stamps ⟨database, .on name op⟩ s =
      handleCollection stamps database name op s := by
  rw [handle, bind_of_ok (ensureRunning_eq h)]

theorem lacks_of_makes {r : Request} (h : s.makes r database name) : s.lacks database name := by
  rw [makes] at h
  split at h
  · cases h
  · rw [Bool.and_eq_true] at h
    exact h.2

/-- Nothing is made where nothing is lacking. -/
theorem collection_of_not_lacks (h : s.lacks database name = false) :
    (onDatabase database (Database.collection name) s).2 = s := by
  rw [onDatabase]
  cases hdb : s.databases.get? database with
  | none => rfl
  | some db =>
    change s.place database (Database.collection name (db, s.shelf)).2 = s
    rcases Database.collection_cases db name s.shelf with hsame | ⟨hnone, hname, hroom, -⟩
    · rw [hsame, place_self hdb]
    · rw [lacks_eq_true.mpr ⟨db, hdb, hname, hnone, hroom⟩] at h
      cases h

theorem alike_start (config : ServerConfig) {disk : Disk} (hdisk : disk.Sound) :
    Alike A [] { config, shelf := { disk } } { config, shelf := { disk } } := by
  have hnone : ∀ h path file, ¬ Shelf.HasOpen { disk } h path file := by
    rintro h path file ⟨c, s, hc, -⟩
    cases hc
  refine ⟨rfl, rfl, ascending_nil, (fun hdb => nomatch hdb), ?_, fun ho => absurd ho (hnone _ _ _)⟩
  exact ⟨rfl, rfl, hdisk, (fun hc => nomatch hc), fun ho => absurd ho (hnone _ _ _),
    fun ho => absurd ho (hnone _ _ _)⟩

/-- A request that only reads leaves all collections as they are, whatever has happened to the
server before. Where nothing has to be made for it, no later answer can tell whether it was run;
and where it asks for a collection, none can tell it from a mere request for that collection. -/
theorem handle_read (hA : DatabaseConfig.KeepApart A) {config : ServerConfig} {disk : Disk}
    (hdisk : disk.Sound) (hconfig : ∀ c ∈ config.databases, A c) {start : Server}
    (hstart : Server.start config { disk } = .ok start) {events : List Event}
    (hevents : ∀ e ∈ events, e.Admits A) (hrun : runAll events start = s)
    (stamps : Nat → Stamp) {r : Request} (hread : r.isWrite = false) :
    Keeps (s.makes r) s (handle stamps r s).2 ∧
      ((∀ database name, s.makes r database name = false) →
        AnswersAlike A (handle stamps r s).2 s) ∧
      ∀ name op, r.operation = .on name op → AnswersAlike A (handle stamps r s).2
        (handle stamps ⟨r.database, .on name (.declare none)⟩ s).2 := by
  have H := hosting_alike hA
  have hst : Alike A [] s s :=
    hrun ▸ H.runAll hevents (H.start hconfig (alike_start config hdisk) hstart)
  have hsame : AnswersAlike A s s := hst.answersAlike hA
  have hrefl : Keeps (s.makes r) s s := .refl hst fun database name => lacks_of_makes
  obtain ⟨database, operation⟩ := r
  cases operation with
  | listCollections =>
    rw [handle_listCollections]
    exact ⟨hrefl, fun _ => hsame, fun _ _ hop => nomatch hop⟩
  | on name op =>
    cases hdown : s.isShutDown with
    | true =>
      rw [handle_of_shutDown hdown]
      refine ⟨hrefl, fun _ => hsame, fun name' op' _ => ?_⟩
      rw [handle_of_shutDown hdown]
      exact hsame
    | false =>
      obtain ⟨α, f, hf, hstate⟩ := handleCollection_read stamps database name op (.inl hread) s
      rw [handle_on hdown, hstate]
      have hasked := hst.onCollection hA hf database name
      refine ⟨?_, fun hmakes => ?_, ?_⟩
      · refine Keeps.of_alike (Keeps.of_collection hA hst (fun _ _ => lacks_of_makes) ?_) hasked
        intro hlacks
        simp [makes, hlacks]
      · have hlacks : s.lacks database name = false := by
          simpa [makes] using hmakes database name
        rw [collection_of_not_lacks hlacks] at hasked
        exact hasked.answersAlike hA
      · rintro _ _ ⟨⟩
        obtain ⟨β, g, hg, hdeclared⟩ :=
          handleCollection_read stamps database name (.declare none) (.inr rfl) s
        rw [handle_on hdown, hdeclared]
        have hasked' := hst.onCollection hA hg database name
        intro more e hmore he
        exact (hasked.answersAlike hA more e hmore he).trans
          (hasked'.answersAlike hA more e hmore he).symm

/-- A request that is not counted as a write, and that a later one can tell was run. -/
theorem names_of_get_of_lacking :
    let config : ServerConfig := { databases := [{ name := "a" }] }
    let start : Server :=
      { config, databases := [("a", { config := { name := "a" }, driver := .memory })] }
    let stamps : Nat → Stamp := fun _ => { now := 0, freshId := "p" }
    let read : Request := ⟨"a", .on "b" (.get "p")⟩
    let list : Request := ⟨"a", .listCollections⟩
    Server.start config {} = .ok start ∧ read.isWrite = false ∧
      start.names "a" = [] ∧ (handle stamps read start).2.names "a" = ["b"] ∧
      (handle stamps list start).1 = .ok (.arr []) ∧
      (handle stamps list (handle stamps read start).2).1 = .ok (.arr [.str "b"]) :=
  ⟨rfl, rfl, rfl, rfl, rfl, rfl⟩

/-- The first look at a collection of one of two databases that lie side by side. -/
theorem handle_read_of_lacking :
    let a := DatabaseConfig.onDisk "a" "r"
    let b := DatabaseConfig.onDisk "b" "r"
    let A : DatabaseConfig → Prop := fun c => c = a ∨ c = b
    let config : ServerConfig := { databases := [a, b] }
    let start : Server := { config, databases :=
      [("a", { config := a, driver := .log }), ("b", { config := b, driver := .log })] }
    let stamps : Nat → Stamp := fun _ => { now := 0, freshId := "p" }
    let read : Request := ⟨"a", .on "c" (.get "p")⟩
    let declare : Request := ⟨"a", .on "c" (.declare none)⟩
    start.makes read "a" "c" = true ∧ (handle stamps read start).2.names "a" = ["c"] ∧
      Keeps (start.makes read) start (handle stamps read start).2 ∧
      AnswersAlike A (handle stamps read start).2 (handle stamps declare start).2 := by
  intro a b A config start stamps read declare
  have hA : DatabaseConfig.KeepApart A := by
    rintro c c' (rfl | rfl) (rfl | rfl) - - hne
    · exact absurd rfl hne
    · exact DatabaseConfig.apart_of_parts_ne rfl rfl (by decide)
    · exact DatabaseConfig.apart_of_parts_ne rfl rfl (by decide)
    · exact absurd rfl hne
  have hconfig : ∀ c ∈ config.databases, A c := by simp [config, A]
  have hstart : Server.start config { disk := {} } = .ok start := by cbv
  have hrun : runAll [] start = start := rfl
  obtain ⟨hkeeps, -, hdeclared⟩ := handle_read hA Disk.sound_empty hconfig hstart
    (List.forall_mem_nil _) hrun stamps (r := read) rfl
  exact ⟨by decide, by decide +kernel, hkeeps, hdeclared "c" _ rfl⟩

end Server
end DocBase
