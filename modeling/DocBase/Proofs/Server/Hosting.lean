import DocBase.Proofs.Collection.Twins
import DocBase.Proofs.Server.Request
import DocBase.Proofs.Server.Response
import DocBase.Server.Connection

/-! Servers side by side. What the steps of databases do to two related servers is carried over
to whole requests, and from these to everything that can happen to a server. -/
namespace DocBase
open Keyed

/-! ## Answers that can be read back -/

namespace Json

theorem sound_null : Sound null := ⟨trivial, rfl⟩

theorem sound_bool (b : Bool) : Sound (bool b) := ⟨trivial, rfl⟩

theorem sound_str (s : String) : Sound (str s) := ⟨trivial, rfl⟩

theorem sound_arr {items : List Json} (h : ∀ j ∈ items, j.Sound) : Sound (arr items) :=
  ⟨printableItems_iff.mpr fun j hj => (h j hj).printable,
    canonical_arr fun j hj => (h j hj).canonical⟩

theorem sound_obj {members : List (String × Json)} (hm : Ascending members)
    (h : ∀ e ∈ members, e.2.Sound) : Sound (obj members) :=
  ⟨printableMembers_iff.mpr fun e he => (h e he).printable,
    canonical_obj hm fun e he => (h e he).canonical⟩

end Json

theorem Document.Ordered.sound {d : Document} (h : d.Ordered) : d.toJson.Sound :=
  ⟨d.printable_toJson, canonical_toJson h.2⟩

theorem Json.sound_documents {docs : List Document} (h : ∀ d ∈ docs, d.Ordered) :
    Sound (arr (docs.map Document.toJson)) :=
  sound_arr (List.forall_mem_map.mpr fun d hd => (h d hd).sound)

namespace Server

theorem sound_countJson (n : Nat) : (countJson n).Sound := by
  have hlt := (UInt64.ofNat n).toNat_lt
  refine ⟨⟨?_, ?_⟩, rfl⟩ <;> omega

theorem sound_names (names : List String) : (Json.arr (names.map .str)).Sound :=
  Json.sound_arr (List.forall_mem_map.mpr fun s _ => Json.sound_str s)

/-! ## Events -/

/-- What can happen to a server. Connections are whatever their users hold. -/
inductive Event
  | line (stamps : Nat → Stamp) (c : Connection) (text : String)
  | connect
  | close (c : Connection)
  | openDatabase (c : DatabaseConfig)
  | closeDatabase (name : String)
  | shutDown

/-- What comes back of an operation, and the server afterwards. -/
def reply {α : Type} (x : ServerAction α) (f : α → Json) (s : Server) : Response × Server :=
  (.ofResult ((x s).1.map f), (x s).2)

def Event.run : Event → Server → Response × Server
  | line stamps c text, s => ((c.respond stamps text s).1, (c.respond stamps text s).2.2)
  | connect, s => reply Connection.connect (fun c => .int c.id) s
  | close c, s => (.ok (.bool (c.close s).1), (c.close s).2.2)
  | openDatabase c, s => reply (Server.openDatabase c) (fun _ => .null) s
  | closeDatabase name, s => reply (Server.closeDatabase name) .bool s
  | shutDown, s => reply Server.shutDown (fun _ => .null) s

/-- No other databases are opened than such. -/
def Event.Admits (A : DatabaseConfig → Prop) : Event → Prop
  | openDatabase c => A c
  | _ => True

theorem Event.admits_all {A : DatabaseConfig → Prop} (hA : ∀ c, A c) (e : Event) :
    e.Admits A := by
  cases e with
  | openDatabase c => exact hA c
  | _ => trivial

def runAll (events : List Event) (s : Server) : Server := events.foldl (fun s e => (e.run s).2) s

/-! ## Related servers -/

/-- The server with this database and this shelf. -/
def place (s : Server) (name : String) (a : Database × Shelf) : Server :=
  { s with databases := s.databases.insert name a.1, shelf := a.2 }

theorem place_place (s : Server) (name : String) (a b : Database × Shelf) :
    (s.place name a).place name b = s.place name b := by
  simp only [place, insert_insert]

theorem place_self {s : Server} {name : String} {db : Database}
    (h : s.databases.get? name = some db) : s.place name (db, s.shelf) = s := by
  rw [place, insert_of_get? h]

theorem get?_place (s : Server) (name : String) (a : Database × Shelf) :
    (s.place name a).databases.get? name = some a.1 := get?_insert_same _ _ _

/-- Servers that differ in their shelves alone have the same databases. -/
theorem database_eq {s t : Server} {name : String} {a b : Database × Shelf}
    (h : t.place name b = { s.place name a with shelf := (t.place name b).shelf }) :
    b.1 = a.1 := by
  have hget := congrArg (fun s : Server => s.databases.get? name) h
  dsimp only at hget
  rw [get?_place, get?_place] at hget
  exact Option.some.inj hget

theorem relates_ensureRunning {R : Server → Server → Prop}
    (hrest : ∀ {s t}, R s t → t = { s with shelf := t.shelf }) :
    Relates R ensureRunning ensureRunning Eq := by
  refine Relates.get.bind fun s t h => ?_
  rw [hrest h]
  split
  · exact Relates.throw _
  · exact Relates.pure rfl

/-- Databases and shelves that make related servers of two. -/
def Placed (R : Server → Server → Prop) (s t : Server) (name : String)
    (a b : Database × Shelf) : Prop :=
  R (s.place name a) (t.place name b)

/-- Servers that differ in their shelves alone, and that the steps of any one of their databases
keep so. The collections of both are taken off the shelves as twins, over stores that are
related in whatever way belongs to the collection. -/
structure Hosting {ι : Type} (S : ι → Backend → Backend → Prop) (A : DatabaseConfig → Prop)
    (R : Server → Server → Prop) : Prop where
  indistinct (i : ι) : Indistinct (S i)
  rest {s t : Server} (h : R s t) : t = { s with shelf := t.shelf }
  idle {s t : Server} (h : R s t) (active nextId : Nat) (isShutDown : Bool) :
    R { s with active, nextId, isShutDown } { t with active, nextId, isShutDown }
  working {s t : Server} {name : String} {α : Type} (h : Handle)
    {f : CollectionAction Backend α} {Q : α → α → Prop}
    (hf : ∀ i, Relates (Collection.Twins (S i)) f f Q) :
    Relates (Placed R s t name) (Database.onCollection h f) (Database.onCollection h f) Q
  creating {s t : Server} {name : String} {a b : Database × Shelf} (h : Placed R s t name a b)
    {collection : String} (hnone : a.1.live.get? collection = none) {schema : Option Schema}
    (hschema : ∀ s, schema = some s → s.WellFormed) :
    SameOutcome Eq (Database.create collection schema a).1
        (Database.create collection schema b).1 ∧
      Placed R s t name (Database.create collection schema a).2
        (Database.create collection schema b).2
  dropping {s t : Server} {name : String} (collection : String) :
    Relates (Placed R s t name) (Database.dropCollection collection)
      (Database.dropCollection collection) Eq
  opening {c : DatabaseConfig} (hc : A c) :
    Relates R (openDatabase c) (openDatabase c) Eq
  closing (name : String) : Relates R (closeDatabase name) (closeDatabase name) Eq

namespace Hosting
variable {ι : Type} {S : ι → Backend → Backend → Prop} {A : DatabaseConfig → Prop}
  {R : Server → Server → Prop} (H : Hosting S A R) {s t : Server} {name : String}
include H

/-! ## Databases -/

theorem same {a b : Database × Shelf} (h : Placed R s t name a b) : b.1 = a.1 :=
  database_eq (H.rest h)

omit H in
theorem database_bind {α : Type} (f : Database → DatabaseAction α) (a : Database × Shelf) :
    (Database.database >>= f) a = f a.1 a := rfl

/-- The database is looked at, and then what it says is done. -/
theorem relates_database {α : Type} {Q : α → α → Prop} {f : Database → DatabaseAction α}
    (hf : ∀ a b, Placed R s t name a b →
      SameOutcome Q (f a.1 a).1 (f a.1 b).1 ∧ Placed R s t name (f a.1 a).2 (f a.1 b).2) :
    Relates (Placed R s t name) (Database.database >>= f) (Database.database >>= f) Q := by
  intro a b h
  rw [database_bind, database_bind, H.same h]
  exact hf a b h

theorem relates_collection (collection : String) :
    Relates (Placed R s t name) (Database.collection collection)
      (Database.collection collection) Eq := by
  refine H.relates_database fun a b h => ?_
  cases a.1.ensureOpen with
  | error e => exact ⟨rfl, h⟩
  | ok _ =>
    cases hget : a.1.live.get? collection with
    | some handle => exact ⟨rfl, h⟩
    | none => exact H.creating h hget fun _ hs => nomatch hs

theorem relates_existingCollection (collection : String) :
    Relates (Placed R s t name) (Database.existingCollection collection)
      (Database.existingCollection collection) Eq := by
  refine H.relates_database fun a b h => ?_
  cases a.1.ensureOpen with
  | error e => exact ⟨rfl, h⟩
  | ok _ =>
    cases a.1.live.get? collection with
    | some handle => exact ⟨rfl, h⟩
    | none => exact ⟨rfl, h⟩

theorem relates_collectionWithSchema (collection : String) {schema : Schema}
    (hschema : schema.WellFormed) :
    Relates (Placed R s t name) (Database.collectionWithSchema collection schema)
      (Database.collectionWithSchema collection schema) Eq := by
  have hsome : ∀ s, some schema = some s → s.WellFormed := by rintro _ ⟨⟩; exact hschema
  refine H.relates_database fun a b h => ?_
  cases a.1.ensureOpen with
  | error e => exact ⟨rfl, h⟩
  | ok _ =>
    cases hget : a.1.live.get? collection with
    | some handle =>
      have hattach : Relates (Placed R s t name)
          (do
            Database.onCollection handle (Collection.attachSchema (some schema))
            return handle : DatabaseAction Handle)
          (do
            Database.onCollection handle (Collection.attachSchema (some schema))
            return handle) Eq :=
        (H.working handle fun i =>
          Collection.relates_attachSchema (H.indistinct i) hsome).bind fun _ _ _ => .pure rfl
      exact hattach a b h
    | none => exact H.creating h hget hsome

/-- What is said of a collection that was made or found. -/
theorem relates_describe (handle : Handle) :
    Relates (Placed R s t name) (describe handle) (describe handle)
      fun a b => a = b ∧ a.Sound := by
  refine H.working handle fun i => ?_
  refine Relates.get.bind fun c d h => ?_
  have hsize : d.size = c.size := by
    rw [Collection.size, Collection.size, (H.indistinct i).size h.store]
  rw [h.indexes_eq, h.name_eq, hsize]
  refine (Relates.lift (.refl _)).bind ?_
  rintro n _ rfl
  refine Relates.pure ⟨rfl, Json.sound_obj ?_ ?_⟩
  · simp [Ascending]
    decide
  · simp [sound_countJson, sound_names, Json.sound_str]

/-! ## Requests -/

theorem databases_eq (h : R s t) : t.databases = s.databases := by rw [H.rest h]

theorem relates_onDatabase {α : Type} {f : DatabaseAction α} {Q : α → α → Prop}
    (hf : ∀ s t, Relates (Placed R s t name) f f Q) :
    Relates R (onDatabase name f) (onDatabase name f) Q := by
  intro s t h
  rw [onDatabase, onDatabase, H.databases_eq h]
  cases hdb : s.databases.get? name with
  | none => exact ⟨rfl, h⟩
  | some db =>
    have hplaced : Placed R s t name (db, s.shelf) (db, t.shelf) := by
      rw [Placed, place_self hdb, place_self (H.databases_eq h ▸ hdb)]
      exact h
    obtain ⟨hout, hstates⟩ := hf s t _ _ hplaced
    refine ⟨hout.mapError _, ?_⟩
    rw [Placed, place, place, H.databases_eq h] at hstates
    exact hstates

theorem relates_onCollection {α : Type} {collection : String} {f : CollectionAction Backend α}
    {Q : α → α → Prop} (hf : ∀ i, Relates (Collection.Twins (S i)) f f Q) :
    Relates R (onCollection name collection f) (onCollection name collection f) Q := by
  refine H.relates_onDatabase fun s t => ?_
  refine (H.relates_collection collection).bind ?_
  rintro handle _ rfl
  exact H.working handle hf

theorem relates_handleCollection (stamps : Nat → Stamp) (collection : String)
    {op : CollectionRequest} (hop : op.WellFormed) :
    Relates R (handleCollection stamps name collection op)
      (handleCollection stamps name collection op) fun a b => a = b ∧ a.Sound := by
  have hS := H.indistinct
  cases op with
  | insert d =>
    refine (H.relates_onCollection fun i => Collection.relates_insert (hS i) _ hop).bind ?_
    rintro w _ ⟨rfl, hw⟩
    exact .pure ⟨rfl, hw.sound⟩
  | insertMany docs =>
    refine (H.relates_onCollection fun i => Collection.relates_insertMany (hS i) _ _ hop).bind ?_
    rintro ws _ ⟨rfl, hws⟩
    exact .pure ⟨rfl, Json.sound_documents hws⟩
  | get id =>
    refine (H.relates_onCollection fun i => Collection.relates_get? (hS i) id).bind ?_
    rintro found _ ⟨rfl, hfound⟩
    cases found with
    | none => exact .pure ⟨rfl, Json.sound_null⟩
    | some d => exact .pure ⟨rfl, (hfound d rfl).sound⟩
  | update id u =>
    refine (H.relates_onCollection fun i => Collection.relates_update (hS i) _ id hop).bind ?_
    rintro w _ ⟨rfl, hw⟩
    exact .pure ⟨rfl, hw.sound⟩
  | remove id =>
    refine (H.relates_onCollection fun i => Collection.relates_remove (hS i) id).bind ?_
    rintro found _ rfl
    exact .pure ⟨rfl, Json.sound_bool found⟩
  | find q =>
    refine (H.relates_onCollection fun i => Collection.relates_find (hS i) q).bind ?_
    rintro docs _ ⟨rfl, hdocs⟩
    exact .pure ⟨rfl, Json.sound_documents hdocs⟩
  | count f =>
    refine (H.relates_onCollection fun i => Collection.relates_countMatching (hS i) f).bind ?_
    rintro n _ rfl
    exact .pure ⟨rfl, sound_countJson n⟩
  | explain q =>
    have hexplain : ∀ i, Relates (Collection.Twins (S i))
        (do (← get).explain q : CollectionAction Backend String)
        (do (← get).explain q) Eq := by
      intro i
      refine Relates.get.bind fun c d h => ?_
      rw [Collection.explain, Collection.explain, h.plan_eq]
      exact Relates.lift (.refl _)
    refine (H.relates_onCollection hexplain).bind ?_
    rintro text _ rfl
    exact .pure ⟨rfl, Json.sound_str text⟩
  | declare schema =>
    cases schema with
    | none =>
      refine H.relates_onDatabase fun s t => ?_
      refine (H.relates_collection collection).bind ?_
      rintro handle _ rfl
      exact H.relates_describe handle
    | some schema =>
      refine H.relates_onDatabase fun s t => ?_
      refine (H.relates_collectionWithSchema collection (hop schema rfl)).bind ?_
      rintro handle _ rfl
      exact H.relates_describe handle
  | drop =>
    refine (H.relates_onDatabase fun s t => H.dropping collection).bind ?_
    rintro found _ rfl
    exact .pure ⟨rfl, Json.sound_bool found⟩
  | createIndex field kind =>
    refine (H.relates_onCollection fun i =>
      Collection.relates_createIndex (hS i) field kind).bind fun _ _ _ => ?_
    exact .pure ⟨rfl, Json.sound_null⟩
  | dropIndex field =>
    refine H.relates_onDatabase fun s t => ?_
    refine (H.relates_existingCollection collection).bind ?_
    rintro handle _ rfl
    refine H.working handle fun i c d h => ?_
    rw [Collection.dropIndex, Collection.dropIndex]
    refine ⟨⟨by rw [h.indexes_eq], Json.sound_bool _⟩, ?_⟩
    exact h.withIndexes fun ixs => ixs.erase field

theorem relates_handle (stamps : Nat → Stamp) {r : Request} (hr : r.WellFormed) :
    Relates R (handle stamps r) (handle stamps r) fun a b => a = b ∧ a.Sound := by
  refine (relates_ensureRunning H.rest).bind fun _ _ _ => ?_
  obtain ⟨database, operation⟩ := r
  cases operation with
  | listCollections =>
    refine H.relates_onDatabase fun s t => ?_
    exact H.relates_database fun a b h => ⟨⟨rfl, sound_names _⟩, h⟩
  | on collection op => exact H.relates_handleCollection stamps collection hr

theorem relates_dispatch (stamps : Nat → Stamp) (c : Connection) {r : Request}
    (hr : r.WellFormed) : Relates R (c.dispatch stamps r) (c.dispatch stamps r)
      fun a b => a = b ∧ a.Sound := by
  rw [Connection.dispatch]
  split
  · exact Relates.throw _
  · exact H.relates_handle stamps hr

/-- Whatever the line is, the response is the same and can be read back. -/
theorem respond (stamps : Nat → Stamp) (line : String) (c : Connection) (h : R s t) :
    (c.respond stamps line s).1 = (c.respond stamps line t).1 ∧
      (c.respond stamps line s).1.Sound ∧
      R (c.respond stamps line s).2.2 (c.respond stamps line t).2.2 := by
  rw [Connection.respond, Connection.respond]
  cases hdecode : Request.decode line with
  | none => exact ⟨rfl, trivial, h⟩
  | some r =>
    obtain ⟨hout, hstates⟩ :=
      H.relates_dispatch stamps c (Request.wellFormed_of_decode hdecode) s t h
    refine ⟨congrArg Response.ofResult (hout.mono fun _ _ h => h.1).eq, ?_, hstates⟩
    change (Response.ofResult (c.dispatch stamps r s).1).Sound
    cases hresult : (c.dispatch stamps r s).1 with
    | ok value => exact hout.post hresult
    | error e => trivial

/-! ## Events -/

theorem relates_connect : Relates R Connection.connect Connection.connect Eq := by
  refine (relates_ensureRunning H.rest).bind fun _ _ _ => ?_
  refine Relates.get.bind fun s t h => ?_
  have hidle := H.idle h (s.active + 1) (s.nextId + 1) s.isShutDown
  rw [H.rest h] at hidle ⊢
  split
  · exact Relates.throw _
  · exact (Relates.set hidle).bind fun _ _ _ => .pure rfl

theorem relates_closeDatabases (names : List String) :
    Relates R (closeDatabases names) (closeDatabases names) Eq := by
  let closeOne (name : String) : ServerAction PUnit :=
    fun s => ((closeDatabase name s).1.map fun _ => (), (closeDatabase name s).2)
  refine Relates.inTurn (f := closeOne) (g := closeOne) (fun name s t h => ?_) names
  obtain ⟨hout, hstates⟩ := H.closing name s t h
  refine ⟨?_, hstates⟩
  simp only [closeOne, hout.eq]
  exact .refl _

theorem relates_shutDown : Relates R shutDown shutDown Eq := by
  refine Relates.get.bind fun s t h => ?_
  have hidle := H.idle h s.active s.nextId true
  rw [H.rest h] at hidle ⊢
  split
  · exact Relates.pure rfl
  · exact (Relates.set hidle).bind fun _ _ _ => H.relates_closeDatabases _

/-- What a server is from the start. -/
theorem start {c : ServerConfig} (hc : ∀ d ∈ c.databases, A d) {shelf : Shelf}
    (hbefore : R { config := c, shelf } { config := c, shelf })
    (hstart : Server.start c shelf = .ok s) : R s s := by
  have hopen : Relates R (c.databases.forM openDatabase : ServerAction Unit)
      (c.databases.forM openDatabase) Eq := by
    generalize c.databases = ds at hc
    induction ds with
    | nil => exact Relates.pure rfl
    | cons d rest ih =>
      rw [List.forall_mem_cons] at hc
      exact (H.opening hc.1).bind fun _ _ _ => ih hc.2
  have hafter := (hopen _ _ hbefore).2
  rw [Server.start] at hstart
  obtain ⟨_, -, hstart⟩ := bind_eq_ok hstart
  cases hrun : (c.databases.forM openDatabase : ServerAction Unit) { config := c, shelf } with
  | mk r t =>
    rw [hrun] at hafter hstart
    cases r with
    | error e => cases hstart
    | ok _ => cases hstart; exact hafter

/-- One event. -/
theorem run {e : Event} (he : e.Admits A) (h : R s t) :
    (e.run s).1 = (e.run t).1 ∧ R (e.run s).2 (e.run t).2 := by
  have hreply {α : Type} {x : ServerAction α} (hx : Relates R x x Eq) (f : α → Json) :
      (reply x f s).1 = (reply x f t).1 ∧ R (reply x f s).2 (reply x f t).2 := by
    obtain ⟨hout, hstates⟩ := hx s t h
    exact ⟨by rw [reply, reply, hout.eq], hstates⟩
  cases e with
  | line stamps c text =>
    obtain ⟨hresponse, -, hstates⟩ := H.respond stamps text c h
    dsimp only [Event.run]
    exact ⟨hresponse, hstates⟩
  | connect => exact hreply H.relates_connect _
  | close c =>
    have hidle := H.idle h (s.active - 1) s.nextId s.isShutDown
    dsimp only [Event.run, Connection.close]
    have hactive : t.active = s.active := by rw [H.rest h]
    have hnextId : t.nextId = s.nextId := by rw [H.rest h]
    have hshut : t.isShutDown = s.isShutDown := by rw [H.rest h]
    rw [hactive, hnextId, hshut]
    split
    · exact ⟨rfl, h⟩
    · exact ⟨rfl, hidle⟩
  | openDatabase c => exact hreply (H.opening he) _
  | closeDatabase name => exact hreply (H.closing name) _
  | shutDown => exact hreply H.relates_shutDown _

/-- Related servers answer alike whatever happens to both, and stay related. -/
theorem runAll {events : List Event} (hevents : ∀ e ∈ events, e.Admits A) (h : R s t) :
    R (Server.runAll events s) (Server.runAll events t) := by
  induction events generalizing s t with
  | nil => exact h
  | cons e rest ih =>
    rw [List.forall_mem_cons] at hevents
    exact ih hevents.2 (H.run hevents.1 h).2

end Hosting
end Server
end DocBase
