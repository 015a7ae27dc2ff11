import DocBase.Proofs.Database.Orderly

/-! What one call does to the collections of a database. A call that fails changes nothing; one
that succeeds makes or drops the collection that it names, and leaves the others alone. Under a
name that was dropped nothing is left. -/
namespace DocBase
open Keyed Disk

/-- The collections that there are, by name, after a call that succeeded. -/
def DatabaseCall.effect (call : DatabaseCall) (before : String → Prop) (name : String) : Prop :=
  match call with
  | collection made | collectionWithSchema made _ => made = name ∨ before name
  | existingCollection _ => before name
  | dropCollection gone => gone ≠ name ∧ before name
  | close => False

/-! ## One call -/

namespace Database.Step
variable {db db' : Database} {a a' : Shelf} {call : DatabaseCall} {name : String} {h : Handle}
  {r : Except DatabaseError DatabaseAnswer} {e : DatabaseError}

/-- A call that fails leaves all there is as it was, unless the disk has failed. -/
theorem failed (hstep : Step db a call (.error e) db' a') (hdb : db.Orderly a)
    (hquiet : e.kind ≠ .ioFailure) : db' = db ∧ a'.disk = a.disk ∧
      ∀ h, a'.documents h = a.documents h := by
  generalize hr : Except.error e = r at hstep
  cases hstep with
  | refused e' hcause => exact ⟨rfl, rfl, fun _ => rfl⟩
  | found hname hlive => cases hr
  | @attached name schema h r a' hlive hattach =>
    have hstill := hdb.alike.still_on (Collection.store_attachSchema (some schema)) h
    rw [hattach] at hstill
    exact ⟨rfl, hstill⟩
  | unopened hmakes hopen hnone hname hstore =>
    cases hr
    obtain ⟨hsame, -⟩ := (StoreDriver.openStore_error hstore).resolve_right hquiet
    subst hsame
    exact ⟨rfl, rfl, fun _ => rfl⟩
  | created hmakes hopen hnone hname hroom hstore => cases hr
  | @dropped name removed d hopen hname hdestroy =>
    cases removed with
    | ok _ => cases hr
    | error fault =>
      cases hr
      obtain ⟨hsame, hdriver, hlog⟩ :=
        (StoreDriver.destroy_error hdestroy).resolve_right hquiet
      cases hlive : db.live.get? name with
      | none =>
        rw [hlive] at hsame
        subst hsame
        rw [erase_of_get?_none hlive]
        exact ⟨rfl, rfl, fun _ => rfl⟩
      | some h =>
        obtain ⟨p, way, hp, -⟩ := hdb.located hlive hdriver
        rw [hlog] at hp
        cases hp
  | closed hopen => cases hr
  | again hclosed => cases hr

theorem succeeded {answer : DatabaseAnswer} (hstep : Step db a call (.ok answer) db' a')
    (hdb : db.Orderly a) (name : String) : db'.live.get? name ≠ none ↔
      call.effect (fun name => db.live.get? name ≠ none) name := by
  generalize hr : Except.ok answer = r at hstep
  have hthere {made : String} {h : Handle} (hlive : db.live.get? made = some h) :
      db.live.get? name ≠ none ↔ made = name ∨ db.live.get? name ≠ none := by
    refine ⟨Or.inr, fun hor => hor.elim (fun hsame => ?_) id⟩
    rw [← hsame, hlive]
    exact Option.some_ne_none h
  cases hstep with
  | refused e hcause => cases hr
  | @found call made h hname hlive =>
    cases call with
    | collection n => cases hname; exact hthere hlive
    | collectionWithSchema n schema => cases hname; exact hthere hlive
    | existingCollection n => exact Iff.rfl
    | dropCollection n => cases hname
    | close => cases hname
  | attached hlive hattach => exact hthere hlive
  | unopened hmakes hopen hnone hname hstore => cases hr
  | @created call made schema store d hmakes hopen hnone hname hroom hstore =>
    have hmade : (db.live.insert made a.opened.size).get? name ≠ none ↔
        made = name ∨ db.live.get? name ≠ none := by
      by_cases hsame : name = made
      · rw [hsame, get?_insert_same]
        simp
      · rw [get?_insert_ne hsame]
        simp [Ne.symm hsame]
    rcases DatabaseCall.makes?_cases hmakes with ⟨rfl, rfl⟩ | ⟨s, rfl, rfl⟩
    · exact hmade
    · exact hmade
  | @dropped gone removed d hopen hname hdestroy =>
    change (db.live.erase gone).get? name ≠ none ↔ gone ≠ name ∧ db.live.get? name ≠ none
    by_cases hsame : name = gone
    · rw [hsame, get?_erase_self hdb.ascending]
      simp
    · rw [get?_erase_ne hdb.ascending hsame]
      simp [Ne.symm hsame]
  | closed hopen => exact iff_of_false (fun hlive => hlive rfl) id
  | again hclosed =>
    refine iff_of_false (fun hlive => hlive ?_) id
    rw [hdb.shut hclosed]
    rfl

/-- No call brings a collection back to life. -/
theorem dead (hstep : Step db a call r db' a') (hcall : call.WellFormed) (hdead : a.Dead h) :
    a'.Dead h := by
  cases hstep with
  | refused e hcause => exact hdead
  | found hname hlive => exact hdead
  | @attached made schema h' r a' hlive hattach =>
    have hafter := hdead.on (Collection.relates_attachSchema Backend.indistinct_shut
      (s := some schema) fun t ht => by cases ht; exact hcall) h'
    rwa [hattach] at hafter
  | unopened hmakes hopen hnone hname hstore => exact hdead
  | @created call made schema store d hmakes hopen hnone hname hroom hstore =>
    obtain ⟨c, hget, htwins⟩ := hdead
    have hbound : h < a.opened.size := Shelf.get?_ne_none_iff.mp (by rw [hget]; simp)
    refine ⟨c, ?_, htwins⟩
    rw [Shelf.get?_add]
    exact (if_neg (Nat.ne_of_lt hbound)).trans hget
  | @dropped gone removed d hopen hname hdestroy =>
    have hshut : (a.shut (db.live.get? gone).toList).Dead h := hdead.shut _
    exact hshut
  | closed hopen => exact hdead.shut _
  | again hclosed => exact hdead

/-- A collection goes on under its handle, or is dead. -/
theorem given (hstep : Step db a call r db' a') (hdb : db.Orderly a)
    (hlive : db.live.get? name = some h) : db'.live.get? name = some h ∨ a'.Dead h := by
  have hthere : a.get? h ≠ none := Shelf.get?_ne_none_iff.mpr (hdb.there hlive)
  cases hstep with
  | refused e hcause => exact Or.inl hlive
  | found hname hfound => exact Or.inl hlive
  | attached hfound hattach => exact Or.inl hlive
  | unopened hmakes hopen hnone hname hstore => exact Or.inl hlive
  | @created call made schema store d hmakes hopen hnone hname hroom hstore =>
    refine Or.inl ((get?_insert_ne ?_ _).trans hlive)
    rintro rfl
    rw [hnone] at hlive
    cases hlive
  | @dropped gone removed d hopen hname hdestroy =>
    by_cases hsame : name = gone
    · subst hsame
      obtain ⟨-, hdead, -⟩ := hdb.alike.shut (db.live.get? name).toList
      have hshut := hdead h (by rw [hlive]; simp) hthere
      exact Or.inr hshut
    · exact Or.inl ((get?_erase_ne hdb.ascending hsame).trans hlive)
  | closed hopen =>
    obtain ⟨-, hdead, -⟩ := hdb.alike.shut db.live.values
    exact Or.inr (hdead h (List.mem_map.mpr ⟨_, mem_of_get? hlive, rfl⟩) hthere)
  | again hclosed => exact Or.inl hlive

/-- The handle that is given out is that of the collection that was asked for. -/
theorem live_of_handle (hstep : Step db a call (.ok (.handle h)) db' a')
    (hname : call.name? = some name) : db'.live.get? name = some h := by
  generalize hr : Except.ok (DatabaseAnswer.handle h) = r at hstep
  cases hstep with
  | refused e hcause => cases hr
  | found hfound hlive =>
    cases hr
    rw [hname] at hfound
    cases hfound
    exact hlive
  | @attached made schema h' r a' hlive hattach =>
    cases r with
    | error e => cases hr
    | ok _ =>
      cases hr
      cases hname
      exact hlive
  | unopened hmakes hopen hnone hvalid hstore => cases hr
  | @created call made schema store d hmakes hopen hnone hvalid hroom hstore =>
    cases hr
    have hlive := get?_insert_same made a.opened.size db.live
    rcases DatabaseCall.makes?_cases hmakes with ⟨rfl, rfl⟩ | ⟨s, rfl, rfl⟩
    · cases hname
      exact hlive
    · cases hname
      exact hlive
  | @dropped gone removed d hopen hvalid hdestroy => cases hname
  | closed hopen => cases hr
  | again hclosed => cases hr

end Database.Step

/-! ## What is left of a name -/

namespace Database

/-- Nothing is stored under a name: it can only come up empty. -/
def Vacant (db : Database) (a : Shelf) (name : String) : Prop :=
  db.closed = true ∨ db.live.get? name ≠ none ∨
    (db.driver = .log → ∃ p, db.config.logOf name = .ok p ∧ a.disk.linked p = none)

variable {db db' : Database} {a a' : Shelf} {call : DatabaseCall} {name : String} {h : Handle}
  {r : Except DatabaseError DatabaseAnswer}

theorem Vacant.of_linked (hvacant : Vacant db a name) {db' : Database}
    (hclosed : db.closed = true → db'.closed = true)
    (hlive : db.live.get? name ≠ none → db'.live.get? name ≠ none)
    (hdriver : db'.driver = db.driver) (hconfig : db'.config = db.config)
    (hlinked : ∀ p, db.driver = .log → db.config.logOf name = .ok p →
      a'.disk.linked p ≠ none → a.disk.linked p ≠ none) : Vacant db' a' name := by
  refine hvacant.imp hclosed fun hrest => hrest.imp hlive fun hnone hlog => ?_
  rw [hdriver] at hlog
  obtain ⟨p, hp, hbefore⟩ := hnone hlog
  refine ⟨p, hconfig ▸ hp, ?_⟩
  by_contra hafter
  exact hlinked p hlog hp hafter hbefore

theorem Vacant.on {α : Type} (hvacant : Vacant db a name) (hdb : db.Orderly a)
    {f : CollectionAction Backend α} {Q : α → α → Prop}
    (hf : ∀ p, Relates (Collection.Twins (Backend.Alike p)) f f Q) (h : Handle) :
    Vacant db (a.on h f).2 name :=
  hvacant.of_linked id id rfl rfl fun _ _ _ hafter =>
    (hdb.alike.keeps_on hf h).linked hdb.alike hafter

/-- Under a vacant name there is no log to be found, but for that of a collection that is there. -/
theorem Vacant.finds (hvacant : Vacant db a name) (hdb : db.Orderly a) (hopen : db.closed = false)
    (hdriver : db.driver = .log) : db.config.Finds name a.disk := by
  rcases hvacant with hclosed | hlive | hnone
  · rw [hopen] at hclosed
    cases hclosed
  · obtain ⟨h, hlive⟩ := Option.ne_none_iff_exists'.mp hlive
    exact (hdb.located hlive hdriver).finds
  · obtain ⟨p, hp, hlinked⟩ := hnone hdriver
    intro p' hp' hthere
    rw [hp] at hp'
    cases hp'
    exact absurd hlinked hthere

/-- When a collection is closed, all others stay as they were, and so do the logs of other names. -/
theorem Orderly.spared_by_shut (hdb : db.Orderly a) {other : String} (hne : other ≠ name) :
    (∀ h, db.live.get? other = some h →
      (a.shut (db.live.get? name).toList).documents h = a.documents h) ∧
      ∀ p, isCollectionName other → db.config.logOf other = .ok p →
        Spares (key (wayOf p)) a.disk (a.shut (db.live.get? name).toList).disk := by
  cases hlive : db.live.get? name with
  | none => exact ⟨fun _ _ => rfl, fun _ _ _ => .refl _ a.disk⟩
  | some closing =>
    have hkeeps := hdb.alike.keeps_on
      (fun p => Collection.relates_close (Backend.indistinct_alike p)) closing
    refine ⟨fun h hother => hkeeps.documents hdb.alike ?_, fun p hother hp => hkeeps.spares ?_⟩
    · rintro rfl
      exact hne (hdb.distinct hother hlive)
    · intro path file ho
      obtain ⟨owner, howner, -, hp'⟩ := hdb.owned ho
      obtain rfl := hdb.distinct howner hlive
      exact (DatabaseConfig.logs_apart_of_ne hother (hdb.named hlive) hp hp' hne).log

/-- The log of another name is where it was after opening. -/
theorem linked_of_openStore (hdb : db.Orderly a) {other p : String} {e : Disk}
    (hname : isCollectionName name) (hother : isCollectionName other) (hne : name ≠ other)
    {opened : Except DriverError Backend}
    (hstore : db.driver.openStore (db.location other) db.config.store a.disk = (opened, e))
    (hp : db.config.logOf name = .ok p) : e.linked p = a.disk.linked p := by
  obtain ⟨-, hspares, -⟩ := StoreDriver.openStore_spec hdb.alike.sound hstore
  exact (hspares (key (wayOf p)) fun p' _ hp' =>
    (DatabaseConfig.logs_apart_of_ne hname hother hp hp' hne).log).link

namespace Step

/-- A drop is refused before it does anything, or goes as far as removing what is stored. -/
theorem drop_cases (hstep : Step db a (.dropCollection name) r db' a') :
    (∃ e, r = .error e ∧ db' = db ∧ a' = a) ∨
      ∃ removed d, db.closed = false ∧ isCollectionName name ∧
        db.driver.destroy (db.location name) db.config.store
          (a.shut (db.live.get? name).toList).disk = (removed, d) ∧
        r = (removed.mapError .driver).map (fun _ => .dropped (db.live.get? name).isSome) ∧
        db' = { db with live := db.live.erase name } ∧
        a' = { a.shut (db.live.get? name).toList with disk := d } := by
  cases hstep with
  | refused e hcause => exact Or.inl ⟨e, rfl, rfl, rfl⟩
  | found hfound hlive => cases hfound
  | unopened hmakes hopen hnone hname hstore => cases hmakes
  | created hmakes hopen hnone hname hroom hstore => cases hmakes
  | dropped hopen hname hdestroy => exact Or.inr ⟨_, _, hopen, hname, hdestroy, rfl, rfl, rfl⟩

/-- A call keeps the ways there are on the disk. -/
theorem leads (hstep : Step db a call r db' a') (hdb : db.Orderly a) : Leads a.disk a'.disk := by
  have hsound := hdb.alike.sound
  cases hstep with
  | refused e hcause => exact .refl a.disk
  | found hfound hlive => exact .refl a.disk
  | @attached made schema h r a' hlive hattach =>
    obtain ⟨hdisk, -⟩ := hdb.alike.still_on (Collection.store_attachSchema (some schema)) h
    rw [hattach] at hdisk
    exact hdisk ▸ .refl a.disk
  | unopened hmakes hopen hnone hname hstore => exact (StoreDriver.leads_openStore hstore).1
  | created hmakes hopen hnone hname hroom hstore =>
    exact (StoreDriver.leads_openStore hstore).1
  | @dropped gone removed d hopen hname hdestroy =>
    obtain ⟨hleads, -⟩ := hdb.alike.disk_shut (db.live.get? gone).toList
    exact hleads.trans (StoreDriver.leads_destroy (hdb.shut_one gone).alike.sound hdestroy).1
  | closed hopen => exact (hdb.alike.disk_shut db.live.values).1
  | again hclosed => exact .refl a.disk

/-- If there is a log of a name, there goes on to be a way to it. -/
theorem finds (hstep : Step db a call r db' a') (hdb : db.Orderly a) (hname : isCollectionName name)
    (hfinds : db.driver = .log → db.config.Finds name a.disk) :
    db'.driver = .log → db'.config.Finds name a'.disk := by
  have hleads := hstep.leads hdb
  have hopened {other : String} (hother : isCollectionName other) {d : Disk}
      {opened : Except DriverError Backend} (hkept : Leads a.disk d)
      (hstore : db.driver.openStore (db.location other) db.config.store a.disk = (opened, d)) :
      db.driver = .log → db.config.Finds name d := by
    refine fun hdriver => (hfinds hdriver).leads hkept fun p hp hafter => ?_
    by_cases hsame : name = other
    · subst hsame
      exact (StoreDriver.leads_openStore hstore).2 p hp hafter
    · rw [linked_of_openStore hdb hname hother hsame hstore hp] at hafter
      exact Or.inl hafter
  cases hstep with
  | refused e hcause => exact hfinds
  | found hfound hlive => exact hfinds
  | @attached made schema h r a' hlive hattach =>
    obtain ⟨hdisk, -⟩ := hdb.alike.still_on (Collection.store_attachSchema (some schema)) h
    rw [hattach] at hdisk
    exact hdisk ▸ hfinds
  | unopened hmakes hopen hnone hother hstore => exact hopened hother hleads hstore
  | created hmakes hopen hnone hother hroom hstore => exact hopened hother hleads hstore
  | @dropped gone removed d hopen hgone hdestroy =>
    obtain ⟨-, hlinked⟩ := hdb.alike.disk_shut (db.live.get? gone).toList
    obtain ⟨-, hshrinks⟩ := StoreDriver.leads_destroy (hdb.shut_one gone).alike.sound hdestroy
    exact fun hdriver => (hfinds hdriver).leads hleads fun p _ hafter =>
      Or.inl (hlinked p fun hbefore => hafter (hshrinks _ hbefore))
  | closed hopen =>
    obtain ⟨-, hlinked⟩ := hdb.alike.disk_shut db.live.values
    exact fun hdriver => (hfinds hdriver).leads hleads fun p _ hafter => Or.inl (hlinked p hafter)
  | again hclosed => exact hfinds

/-- A name that was dropped is vacant. -/
theorem vacated {answer : DatabaseAnswer}
    (hstep : Step db a (.dropCollection name) (.ok answer) db' a') (hdb : db.Orderly a)
    (hfinds : db.driver = .log → db.config.Finds name a.disk) : Vacant db' a' name := by
  rcases hstep.drop_cases with ⟨e, he, -, -⟩ | ⟨removed, d, hopen, hname, hdestroy, hr, rfl, rfl⟩
  · cases he
  · cases removed with
    | error fault => cases hr
    | ok _ =>
      obtain ⟨hleads, hlinked⟩ := hdb.alike.disk_shut (db.live.get? name).toList
      have hsound := (hdb.shut_one name).alike.sound
      refine Or.inr (Or.inr
        (StoreDriver.linked_of_destroy hsound (fun hdriver => ?_) hdestroy))
      exact (hfinds hdriver).leads hleads fun p _ hafter => Or.inl (hlinked p hafter)

/-- A vacant name stays vacant until a collection comes up under it. -/
theorem vacant (hstep : Step db a call r db' a') (hdb : db.Orderly a)
    (hquiet : ∀ e, r = .error e → e.kind ≠ .ioFailure) (hname : isCollectionName name)
    (hvacant : Vacant db a name) : Vacant db' a' name := by
  cases hstep with
  | refused e hcause => exact hvacant
  | found hfound hlive => exact hvacant
  | @attached made schema h r a' hlive hattach =>
    obtain ⟨hdisk, -⟩ := hdb.alike.still_on (Collection.store_attachSchema (some schema)) h
    rw [hattach] at hdisk
    exact hvacant.of_linked id id rfl rfl fun p _ _ hafter => hdisk ▸ hafter
  | @unopened call other schema fault d hmakes hopen hnone hother hstore =>
    refine hvacant.of_linked id id rfl rfl fun p _ hp hafter => ?_
    by_cases hsame : name = other
    · obtain ⟨hdisk, -⟩ := (StoreDriver.openStore_error hstore).resolve_right (hquiet _ rfl)
      rwa [hdisk] at hafter
    · rwa [linked_of_openStore hdb hname hother hsame hstore hp] at hafter
  | @created call other schema store d hmakes hopen hnone hother hroom hstore =>
    by_cases hsame : name = other
    · refine Or.inr (Or.inl ?_)
      rw [hsame]
      change (db.live.insert other a.opened.size).get? other ≠ none
      rw [get?_insert_same]
      exact Option.some_ne_none _
    · refine hvacant.of_linked id (fun hlive => ?_) rfl rfl fun p _ hp hafter => ?_
      · change (db.live.insert other a.opened.size).get? name ≠ none
        rwa [get?_insert_ne hsame]
      · rwa [← linked_of_openStore hdb hname hother hsame hstore hp]
  | @dropped gone removed d hopen hgone hdestroy =>
    by_cases hsame : name = gone
    · subst hsame
      cases removed with
      | ok _ => exact (Step.dropped hopen hgone hdestroy).vacated hdb (hvacant.finds hdb hopen)
      | error fault =>
        have hsame := ((Step.dropped hopen hgone hdestroy).failed hdb (hquiet _ rfl))
        refine hvacant.of_linked id (fun hlive => ?_) rfl rfl fun p _ hp hafter => ?_
        · rwa [hsame.1]
        · rwa [hsame.2.1] at hafter
    · obtain ⟨-, hshrinks⟩ := StoreDriver.leads_destroy (hdb.shut_one gone).alike.sound hdestroy
      refine hvacant.of_linked id (fun hlive => ?_) rfl rfl fun p _ _ hafter => ?_
      · change (db.live.erase gone).get? name ≠ none
        rwa [get?_erase_ne hdb.ascending hsame]
      · exact (hdb.alike.disk_shut _).2 p fun hbefore => hafter (hshrinks _ hbefore)
  | closed hopen => exact Or.inl rfl
  | again hclosed => exact hvacant

/-- What comes up under a vacant name is empty, and it does come up, unless the database is closed,
there is no room, or the disk fails. -/
theorem of_vacant {schema : Option Schema} (hstep : Step db a call r db' a')
    (hmakes : call.makes? = some (name, schema)) (hname : isCollectionName name)
    (hnone : db.live.get? name = none) (hvacant : Vacant db a name) :
    (∃ h, r = .ok (.handle h) ∧ a'.documents h = some []) ∨ db.closed = true ∨
      db.config.maxCollections ≤ db.live.length ∨ ∃ e, r = .error e ∧ e.kind = .ioFailure := by
  have hasked : call.name? = some name := by
    rcases DatabaseCall.makes?_cases hmakes with ⟨rfl, -⟩ | ⟨s, rfl, -⟩ <;> rfl
  have hunlinked (hopen : db.closed = false) :=
    (hvacant.resolve_left (by simp [hopen])).resolve_left fun hlive => hlive hnone
  cases hstep with
  | refused e hcause =>
    rcases hcause name schema hmakes with hclosed | hinvalid | hroom
    · exact Or.inr (Or.inl hclosed)
    · rw [hname] at hinvalid
      cases hinvalid
    · exact Or.inr (Or.inr (Or.inl hroom))
  | @found call other h hfound hlive =>
    rw [hasked] at hfound
    cases hfound
    rw [hnone] at hlive
    cases hlive
  | attached hlive hattach =>
    cases hasked
    rw [hnone] at hlive
    cases hlive
  | @unopened call other schema fault d hmakes' hopen hnone' hother hstore =>
    rw [hmakes] at hmakes'
    cases hmakes'
    refine Or.inr (Or.inr (Or.inr ⟨_, rfl, ?_⟩))
    refine (StoreDriver.openStore_error hstore).resolve_left fun hpath => ?_
    obtain ⟨-, hdriver, hfault⟩ := hpath
    obtain ⟨p, hp, -⟩ := hunlinked hopen hdriver
    rw [hfault] at hp
    cases hp
  | @created call other schema store d hmakes' hopen hnone' hother hroom hstore =>
    rw [hmakes] at hmakes'
    cases hmakes'
    refine Or.inl ⟨_, rfl, ?_⟩
    rw [Shelf.documents, Shelf.get?_add, if_pos rfl]
    exact StoreDriver.stored_of_openStore (hunlinked hopen) hstore
  | dropped hopen hother hdestroy => cases hasked
  | closed hopen => cases hasked
  | again hclosed => cases hasked

/-- All other collections stay as they were when one is dropped, and so do the logs of other names,
whether they are open or not. -/
theorem spared (hstep : Step db a (.dropCollection name) r db' a') (hdb : db.Orderly a)
    {other : String} (hne : other ≠ name) :
    (∀ h, db.live.get? other = some h → a'.documents h = a.documents h) ∧
      ∀ p, isCollectionName other → db.config.logOf other = .ok p →
        Spares (key (wayOf p)) a.disk a'.disk := by
  rcases hstep.drop_cases with ⟨e, -, rfl, rfl⟩ | ⟨removed, d, hopen, hname, hdestroy, -, rfl, rfl⟩
  · exact ⟨fun _ _ => rfl, fun _ _ _ => .refl _ _⟩
  · have hshut := hdb.shut_one name
    obtain ⟨hopened, -⟩ := hshut.destroy (get?_erase_self hdb.ascending name) hname hdestroy
    obtain ⟨-, hspares⟩ := StoreDriver.destroy_spec hshut.alike.sound hdestroy
    obtain ⟨hdocuments, hdisk⟩ := hdb.spared_by_shut hne
    refine ⟨fun h hlive => ?_, fun p hother hp => (hdisk p hother hp).trans ?_⟩
    · have hkept : Shelf.documents { a.shut (db.live.get? name).toList with disk := d } h =
          (a.shut (db.live.get? name).toList).documents h :=
        hshut.alike.documents_eq rfl (hopened h)
      exact hkept.trans (hdocuments h hlive)
    · refine hspares _ fun p' _ hp' => ?_
      have hapart := DatabaseConfig.logs_apart_of_ne hother hname hp hp' hne
      exact ⟨hapart.log, hapart.compact⟩

end Step
end Database
end DocBase
