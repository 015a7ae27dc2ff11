import DocBase.Proofs.Database.Lifecycle

/-! What holds of a database at any time. Its collections have names that they may have, and are no
more than there is room for; each has a handle of its own, and the open logs are theirs. -/
namespace DocBase
open Keyed Disk

namespace Shelf
variable {a : Shelf} {h : Handle}

theorem get?_ne_none_iff : a.get? h ≠ none ↔ h < a.opened.size := by
  rw [get?, ne_eq, Array.getElem?_eq_none_iff, Nat.not_le]

end Shelf

namespace Database

/-- A database in order, over a shelf on which nothing else is open. -/
structure Orderly (db : Database) (a : Shelf) : Prop where
  ascending : Ascending db.live
  room : db.live.length ≤ db.config.maxCollections
  shut (hclosed : db.closed = true) : db.live = []
  named {name : String} {h : Handle} (hlive : db.live.get? name = some h) : isCollectionName name
  distinct {name name' : String} {h : Handle} (hlive : db.live.get? name = some h)
    (hlive' : db.live.get? name' = some h) : name = name'
  there {name : String} {h : Handle} (hlive : db.live.get? name = some h) : h < a.opened.size
  located {name : String} {h : Handle} (hlive : db.live.get? name = some h)
    (hdriver : db.driver = .log) : db.config.Reaches name a.disk
  alike : a.Alike a
  owned {h : Handle} {path : String} {file : FileId} (ho : a.HasOpen h path file) :
    ∃ name, db.live.get? name = some h ∧ db.driver = .log ∧ db.config.logOf name = .ok path

/-- A database without collections is in order. -/
theorem orderly_of_empty {db : Database} {a : Shelf} (hempty : db.live = []) (halike : a.Alike a)
    (hnot : ∀ h path file, ¬ a.HasOpen h path file) : db.Orderly a := by
  have hnone {name : String} {h : Handle} : db.live.get? name ≠ some h := by
    rw [hempty]
    exact Option.some_ne_none h |>.symm
  exact {
    ascending := hempty ▸ ascending_nil
    room := hempty ▸ Nat.zero_le _
    shut := fun _ => hempty
    named := fun hlive => absurd hlive hnone
    distinct := fun hlive => absurd hlive hnone
    there := fun hlive => absurd hlive hnone
    located := fun hlive => absurd hlive hnone
    alike := halike
    owned := fun ho => absurd ho (hnot _ _ _) }

theorem orderly_open {c : DatabaseConfig} {db : Database} {d : Disk}
    (hopen : open_ c .bundled = .ok db) (hd : d.Sound) :
    db.config = c ∧ db.closed = false ∧ db.live = [] ∧ db.Orderly { disk := d } := by
  obtain ⟨_, -, hopen⟩ := bind_eq_ok hopen
  obtain ⟨driver, -, hopen⟩ := bind_eq_ok hopen
  cases hopen
  have hnone (h : Handle) : Shelf.get? { disk := d } h = none := rfl
  have hnot : ∀ h path file, ¬ Shelf.HasOpen { disk := d } h path file := by
    rintro h path file ⟨c, s, hget, -⟩
    rw [hnone] at hget
    cases hget
  refine ⟨rfl, rfl, rfl, orderly_of_empty rfl ?_ hnot⟩
  refine ⟨rfl, rfl, hd, fun {h c} hget => ?_, fun ho => absurd ho (hnot _ _ _),
    fun ho => absurd ho (hnot _ _ _)⟩
  rw [hnone] at hget
  cases hget

namespace Orderly
variable {db : Database} {a : Shelf} {h : Handle} {name path p : String} {file : FileId} {e : Disk}

theorem on {α : Type} (hdb : db.Orderly a) {f : CollectionAction Backend α} {Q : α → α → Prop}
    (hf : ∀ p, Relates (Collection.Twins (Backend.Alike p)) f f Q) (h : Handle) :
    db.Orderly (a.on h f).2 := by
  have hkeeps := hdb.alike.keeps_on hf h
  obtain ⟨-, halike, hopen⟩ := hdb.alike.on hf h
  refine ⟨hdb.ascending, hdb.room, hdb.shut, hdb.named, hdb.distinct, fun hlive => ?_,
    fun hlive hdriver => (hdb.located hlive hdriver).leads hkeeps.leads, halike, fun ho => ?_⟩
  · rw [hkeeps.size]
    exact hdb.there hlive
  · obtain ⟨file', ho'⟩ := hopen _ _ _ ho
    exact hdb.owned ho'

/-- Another disk is in order too if it has all open logs and the ways that there were. -/
theorem withDisk (hdb : db.Orderly a) (he : e.Sound)
    (hspares : ∀ h path file, a.HasOpen h path file → Spares (key (wayOf path)) a.disk e)
    (hleads : Leads a.disk e) : db.Orderly { a with disk := e } :=
  ⟨hdb.ascending, hdb.room, hdb.shut, hdb.named, hdb.distinct, hdb.there,
    fun hlive hdriver => (hdb.located hlive hdriver).leads hleads,
    hdb.alike.withDisk he hspares, hdb.owned⟩

/-- No open log lies where that of a collection does that is not there. -/
theorem apart (hdb : db.Orderly a) (hnone : db.live.get? name = none)
    (hname : isCollectionName name) (hp : db.config.logOf name = .ok p)
    (ho : a.HasOpen h path file) : Log.Apart path p := by
  obtain ⟨name', hlive, -, hp'⟩ := hdb.owned ho
  refine DatabaseConfig.logs_apart_of_ne (hdb.named hlive) hname hp' hp ?_
  rintro rfl
  rw [hnone] at hlive
  cases hlive

/-- What opening does to the disk. -/
theorem openStore (hdb : db.Orderly a) (hnone : db.live.get? name = none)
    (hname : isCollectionName name) {opened : Except DriverError Backend}
    (hstore : db.driver.openStore (db.location name) db.config.store a.disk = (opened, e)) :
    (∀ h path file, a.HasOpen h path file → Spares (key (wayOf path)) a.disk e) ∧
      db.Orderly { a with disk := e } := by
  obtain ⟨he, hspares, -⟩ := StoreDriver.openStore_spec hdb.alike.sound hstore
  obtain ⟨hleads, -⟩ := StoreDriver.leads_openStore hstore
  have hother : ∀ h path file, a.HasOpen h path file → Spares (key (wayOf path)) a.disk e :=
    fun h path file ho => hspares _ fun p _ hp => (hdb.apart hnone hname hp ho).log
  exact ⟨hother, hdb.withDisk he hother hleads⟩

/-- A collection comes up that was not there. -/
theorem created (hdb : db.Orderly a) (hopen : db.closed = false)
    (hnone : db.live.get? name = none) (hname : isCollectionName name)
    (hroom : db.live.length < db.config.maxCollections) {schema : Option Schema}
    (hschema : ∀ s, schema = some s → s.WellFormed) {store : Backend}
    (hstore : db.driver.openStore (db.location name) db.config.store a.disk = (.ok store, e)) :
    Orderly { db with live := db.live.insert name a.opened.size }
      (Shelf.add { a with disk := e }
        { name, store, schema, maxDocumentSize := db.config.maxDocumentSize }).2 := by
  obtain ⟨-, hdisk⟩ := hdb.openStore hnone hname hstore
  obtain ⟨-, -, hopened⟩ := StoreDriver.openStore_spec hdb.alike.sound hstore
  obtain ⟨hpaired, hlog⟩ := hopened store rfl
  have hkept {name' : String} {h : Handle} (hget : db.live.get? name' = some h) :
      (db.live.insert name a.opened.size).get? name' = some h := by
    refine (get?_insert_ne ?_ _).trans hget
    rintro rfl
    rw [hnone] at hget
    cases hget
  refine ⟨hdb.ascending.insert _ _, ?_, fun hclosed => ?_, fun hget => ?_, fun hget hget' => ?_,
    fun hget => ?_, fun hget hdriver => ?_, ?_, fun ho => ?_⟩
  · rw [length_insert, hnone]
    exact hroom
  · rw [hopen] at hclosed
    cases hclosed
  · rcases get?_insert_eq_some.mp hget with ⟨rfl, -⟩ | ⟨-, hget⟩
    · exact hname
    · exact hdb.named hget
  · rcases get?_insert_eq_some.mp hget with ⟨rfl, hsize⟩ | ⟨-, hbefore⟩ <;>
      rcases get?_insert_eq_some.mp hget' with ⟨rfl, hsize'⟩ | ⟨-, hbefore'⟩
    · rfl
    · exact absurd (hsize ▸ hdb.there hbefore') (Nat.lt_irrefl _)
    · exact absurd (hsize' ▸ hdb.there hbefore) (Nat.lt_irrefl _)
    · exact hdb.distinct hbefore hbefore'
  · rw [Shelf.add, Array.size_push]
    rcases get?_insert_eq_some.mp hget with ⟨-, rfl⟩ | ⟨-, hget⟩
    · exact Nat.lt_succ_self _
    · exact Nat.lt_succ_of_lt (hdb.there hget)
  · rcases get?_insert_eq_some.mp hget with ⟨rfl, -⟩ | ⟨-, hget⟩
    · exact StoreDriver.reaches_of_openStore hdriver hstore
    · exact hdisk.located hget hdriver
  · refine hdisk.alike.add ⟨hpaired, rfl, hschema⟩ fun path file s hs _ => ?_
    obtain ⟨-, hp, hlinked⟩ := hlog path file s hs
    exact ⟨hlinked, fun h path' file' ho => (hdisk.apart hnone hname hp ho).log⟩
  · rcases ho.of_add with ho | ⟨rfl, s, hs, -⟩
    · obtain ⟨name', hget, hdriver, hp⟩ := hdb.owned ho
      exact ⟨name', hkept hget, hdriver, hp⟩
    · obtain ⟨hdriver, hp, -⟩ := hlog _ _ s hs
      exact ⟨name, get?_insert_same _ _ _, hdriver, hp⟩

/-- A collection is forgotten whose log is not open any more. -/
theorem forget (hdb : db.Orderly a) (hgone : ∀ h, db.live.get? name = some h →
    ∀ path file, ¬ a.HasOpen h path file) : Orderly { db with live := db.live.erase name } a := by
  have hlive {name' : String} {h : Handle} (hget : (db.live.erase name).get? name' = some h) :
      db.live.get? name' = some h := ((get?_erase_eq_some hdb.ascending).mp hget).2
  refine ⟨hdb.ascending.erase _, ?_, fun hclosed => ?_, fun hget => hdb.named (hlive hget),
    fun hget hget' => hdb.distinct (hlive hget) (hlive hget'), fun hget => hdb.there (hlive hget),
    fun hget => hdb.located (hlive hget), hdb.alike, fun {h path file} ho => ?_⟩
  · exact Nat.le_trans (erase_sublist _ _).length_le hdb.room
  · change db.live.erase name = []
    rw [hdb.shut hclosed]
    rfl
  · obtain ⟨name', hget, hdriver, hp⟩ := hdb.owned ho
    refine ⟨name', (get?_erase_ne hdb.ascending ?_).trans hget, hdriver, hp⟩
    rintro rfl
    exact hgone h hget path file ho

/-- A collection is dropped: it is closed if it is there, and what is stored is removed. -/
theorem shut_one (hdb : db.Orderly a) (name : String) :
    Orderly { db with live := db.live.erase name } (a.shut (db.live.get? name).toList) := by
  cases hlive : db.live.get? name with
  | none => exact hdb.forget fun h hget => by rw [hlive] at hget; cases hget
  | some h =>
    have hclosed := hdb.on (fun p => Collection.relates_close (Backend.indistinct_alike p)) h
    refine hclosed.forget fun h' hget path file => ?_
    rw [hlive] at hget
    cases hget
    exact Shelf.not_hasOpen_close a h path file

theorem destroy (hdb : db.Orderly a) (hnone : db.live.get? name = none)
    (hname : isCollectionName name) {removed : Except DriverError Unit}
    (hdestroy : db.driver.destroy (db.location name) db.config.store a.disk = (removed, e)) :
    (∀ h path file, a.HasOpen h path file → Spares (key (wayOf path)) a.disk e) ∧
      db.Orderly { a with disk := e } := by
  obtain ⟨he, hspares⟩ := StoreDriver.destroy_spec hdb.alike.sound hdestroy
  obtain ⟨hleads, -⟩ := StoreDriver.leads_destroy hdb.alike.sound hdestroy
  have hother : ∀ h path file, a.HasOpen h path file → Spares (key (wayOf path)) a.disk e :=
    fun h path file ho => hspares _ fun p _ hp =>
      have hapart := hdb.apart hnone hname hp ho
      ⟨hapart.log, hapart.compact⟩
  exact ⟨hother, hdb.withDisk he hother hleads⟩

theorem closed (hdb : db.Orderly a) :
    Orderly { db with live := [], closed := true } (a.shut db.live.values) := by
  obtain ⟨halike, -, hopen⟩ := hdb.alike.shut db.live.values
  refine orderly_of_empty rfl halike fun h path file ho => ?_
  obtain ⟨hnot, file', ho'⟩ := hopen h path file ho
  obtain ⟨name, hlive, -⟩ := hdb.owned ho'
  exact absurd (List.mem_map.mpr ⟨_, mem_of_get? hlive, rfl⟩) hnot

end Orderly

theorem Step.orderly {db db' : Database} {a a' : Shelf} {call : DatabaseCall}
    {r : Except DatabaseError DatabaseAnswer} (h : Step db a call r db' a') (hdb : db.Orderly a)
    (hcall : call.WellFormed) :
    db'.Orderly a' ∧ db'.config = db.config ∧ db'.driver = db.driver := by
  cases h with
  | refused e hcause => exact ⟨hdb, rfl, rfl⟩
  | found hname hlive => exact ⟨hdb, rfl, rfl⟩
  | @attached name schema h r a' hlive hattach =>
    have hafter := hdb.on (fun p => Collection.relates_attachSchema (Backend.indistinct_alike p)
      (s := some schema) fun t ht => by cases ht; exact hcall) h
    rw [hattach] at hafter
    exact ⟨hafter, rfl, rfl⟩
  | unopened hmakes hopen hnone hname hstore =>
    exact ⟨(hdb.openStore hnone hname hstore).2, rfl, rfl⟩
  | @created call name schema store e hmakes hopen hnone hname hroom hstore =>
    refine ⟨hdb.created hopen hnone hname hroom (fun s hs => ?_) hstore, rfl, rfl⟩
    rcases DatabaseCall.makes?_cases hmakes with ⟨rfl, rfl⟩ | ⟨s, rfl, rfl⟩
    · cases hs
    · cases hs
      exact hcall
  | dropped hopen hname hdestroy =>
    exact ⟨((hdb.shut_one _).destroy (get?_erase_self hdb.ascending _) hname hdestroy).2, rfl, rfl⟩
  | closed hopen => exact ⟨hdb.closed, rfl, rfl⟩
  | again hclosed => exact ⟨hdb, rfl, rfl⟩

end Database
end DocBase
