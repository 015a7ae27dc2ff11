import DocBase.Proofs.Database.Effects

/-! Whole histories of a database. At any time its collections are those that were materialized and
not dropped since, and all handles that were ever given out lead to one of them or to one that is
closed for good. -/
namespace DocBase
open Keyed Disk

/-! ## Dead collections -/

/-- All that is left to do with a collection that was closed is to be refused. -/
structure Shelf.Refuses (a : Shelf) (h : Handle) : Prop where
  get (id : String) : (a.on h (Collection.get? id)).1 = .error (.store .closed)
  remove (id : String) : (a.on h (Collection.remove id)).1 = .error (.store .closed)
  size : ∃ c, a.get? h = some c ∧ c.size = .error (.store .closed)
  insert {c : Collection Backend} {stamp : Stamp} {d : Document}
    {prepared : String × Document × Bytes} (hget : a.get? h = some c)
    (hvalid : c.prepareInsert stamp d = .ok prepared) :
    (a.on h (Collection.insert stamp d)).1 = .error (.store .closed)
  update {now : Int64} {id : String} {u : Update} (hvalid : u.check = .ok ()) :
    (a.on h (Collection.update now id u)).1 = .error (.store .closed)

theorem Shelf.Dead.refuses {a : Shelf} {h : Handle} (hdead : a.Dead h) : a.Refuses h := by
  obtain ⟨c, hget, htwins⟩ := hdead
  obtain ⟨hreads, hdeletes, hsize⟩ := Backend.refused htwins.store.2
  have hloaded : loaded a.disk c = c := by rw [loaded, Backend.load_of_closed htwins.store.2]
  have hon {α : Type} {f : CollectionAction Backend α} (hf : f c = (.error (.store .closed), c)) :
      (a.on h f).1 = .error (.store .closed) := by
    rw [← hloaded] at hf
    rw [Shelf.on_of_some hget f hf]
  have hread (id : String) : Collection.readRecord id c = (.error (.store .closed), c) :=
    Collection.onStore_apply (hreads id)
  refine ⟨fun id => hon ?_, fun id => hon ?_, ⟨c, hget, ?_⟩, fun hget' hvalid => hon ?_,
    fun {_ _ u} hvalid => hon ?_⟩
  · rw [Collection.get?, bind_of_error (hread id)]
  · have hdelete : (Collection.onStore (RecordStore.delete id) : CollectionAction Backend Bool) c =
        (.error (.store .closed), c) := Collection.onStore_apply (hdeletes id)
    rw [Collection.remove, bind_of_error hdelete]
  · rw [Collection.size, hsize]
    rfl
  · rw [hget] at hget'
    cases hget'
    rw [Collection.insert, Collection.get_bind, hvalid, bind_of_ok (Collection.lift_apply _)]
    exact bind_of_error (hread _) _
  · have hchecked : (liftM (u.check.mapError CollectionError.validation) :
        CollectionAction Backend Unit) c = (.ok (), c) := by
      rw [hvalid]
      rfl
    rw [Collection.update, bind_of_ok hchecked, bind_of_error (hread _)]

/-! ## Histories -/

/-- A call on the database, or an operation on a collection of it. -/
inductive DatabaseEvent
  | call (c : DatabaseCall)
  | operate (h : Handle) (op : Operation)

def DatabaseEvent.WellFormed : DatabaseEvent → Prop
  | call c => c.WellFormed
  | operate _ op => op.WellFormed

/-- A database, with the calls so far, the latest first, and what they answered. -/
structure Chronicle where
  database : Database
  shelf : Shelf
  calls : List (DatabaseCall × Except DatabaseError DatabaseAnswer) := []

/-- Materialized and not dropped since. Calls that fail count for nothing. -/
def Materialized : List (DatabaseCall × Except DatabaseError DatabaseAnswer) → String → Prop
  | [] => fun _ => False
  | (call, .ok _) :: earlier => call.effect (Materialized earlier)
  | (_, .error _) :: earlier => Materialized earlier

theorem Database.length_list (db : Database) : db.list.length = db.live.length :=
  List.length_map _

namespace Chronicle

/-- What a call answers now. -/
def answer (l : Chronicle) (call : DatabaseCall) : Except DatabaseError DatabaseAnswer :=
  (call.run (l.database, l.shelf)).1

def call (l : Chronicle) (call : DatabaseCall) : Chronicle where
  database := (call.run (l.database, l.shelf)).2.1
  shelf := (call.run (l.database, l.shelf)).2.2
  calls := (call, l.answer call) :: l.calls

def event (l : Chronicle) : DatabaseEvent → Chronicle
  | .call call => l.call call
  | .operate h op => { l with shelf := (l.shelf.on h op.run).2 }

def run (events : List DatabaseEvent) (l : Chronicle) : Chronicle := events.foldl event l

/-- The handle was given out for the collection of that name. -/
def Gave (l : Chronicle) (name : String) (h : Handle) : Prop :=
  ∃ call, call.name? = some name ∧ (call, .ok (.handle h)) ∈ l.calls

/-- No call has met with a failure of the disk. -/
def Undisturbed (l : Chronicle) : Prop :=
  ∀ call e, (call, .error e) ∈ l.calls → e.kind ≠ .ioFailure

/-- The database is in order, its collections are what the history says, and so are the handles. -/
structure Kept (c : DatabaseConfig) (l : Chronicle) : Prop where
  config : l.database.config = c
  orderly : l.database.Orderly l.shelf
  listed (name : String) : l.database.live.get? name ≠ none ↔ Materialized l.calls name
  given {name : String} {h : Handle} (hgave : l.Gave name h) :
    l.database.live.get? name = some h ∨ l.shelf.Dead h
  reached {name : String} {h : Handle} (hgave : l.Gave name h)
    (hdriver : l.database.driver = .log) : c.Reaches name l.shelf.disk
  closed {r : Except DatabaseError DatabaseAnswer} (hclose : (.close, r) ∈ l.calls) :
    r = .ok .closed ∧ l.database.closed = true

variable {c : DatabaseConfig} {l : Chronicle}

theorem step (l : Chronicle) (call : DatabaseCall) :
    Database.Step l.database l.shelf call (l.answer call) (l.call call).database
      (l.call call).shelf := Database.step_run l.database l.shelf call

/-- The calls of a history are all remembered. -/
theorem mem_calls_run {entry : DatabaseCall × Except DatabaseError DatabaseAnswer}
    (h : entry ∈ l.calls) (events : List DatabaseEvent) : entry ∈ (l.run events).calls := by
  induction events generalizing l with
  | nil => exact h
  | cons event rest ih =>
    refine ih ?_
    cases event with
    | call c => exact List.mem_cons_of_mem _ h
    | operate h' op => exact h

theorem Undisturbed.of_run {events : List DatabaseEvent} (h : (l.run events).Undisturbed) :
    l.Undisturbed := fun call e hmem => h call e (mem_calls_run hmem events)

theorem Undisturbed.error {call : DatabaseCall} (h : (l.call call).Undisturbed)
    {e : DatabaseError} (he : l.answer call = .error e) : e.kind ≠ .ioFailure :=
  h call e (he ▸ List.mem_cons_self)

theorem Undisturbed.call (h : l.Undisturbed) {call : DatabaseCall} {answer : DatabaseAnswer}
    (hanswer : l.answer call = .ok answer) : (l.call call).Undisturbed := by
  intro call' e hmem
  rcases List.mem_cons.mp hmem with hsame | hmem
  · rw [hanswer] at hsame
    cases hsame
  · exact h call' e hmem

/-- Closing always succeeds, and leaves the database closed. -/
theorem close_eq (l : Chronicle) :
    l.answer .close = .ok .closed ∧ (l.call .close).database.closed = true := by
  rw [answer, Chronicle.call]
  cases hclosed : l.database.closed with
  | true =>
    rw [Database.refuses_when_closed hclosed]
    exact ⟨rfl, hclosed⟩
  | false =>
    rw [DatabaseCall.run, Database.close_eq hclosed, Database.closeAll_eq]
    exact ⟨rfl, rfl⟩

theorem isCollectionName_of_drop (l : Chronicle) {name : String} {answer : DatabaseAnswer}
    (hdrop : l.answer (.dropCollection name) = .ok answer) : Database.isCollectionName name := by
  rcases (l.step (.dropCollection name)).drop_cases with ⟨e, he, -⟩ | ⟨_, _, -, hname, -⟩
  · rw [hdrop] at he
    cases he
  · exact hname

namespace Kept

theorem listed_call (hl : l.Kept c) {call : DatabaseCall} (hquiet : (l.call call).Undisturbed)
    (name : String) :
    (l.call call).database.live.get? name ≠ none ↔ Materialized (l.call call).calls name := by
  have hstep := l.step call
  have hlisted : (fun name => l.database.live.get? name ≠ none) = Materialized l.calls :=
    funext fun name => propext (hl.listed name)
  have hcalls : (l.call call).calls = (call, l.answer call) :: l.calls := rfl
  cases hanswer : l.answer call with
  | ok answer =>
    rw [hanswer] at hstep hcalls
    rw [hstep.succeeded hl.orderly name, hlisted, hcalls]
    rfl
  | error e =>
    rw [hanswer] at hstep hcalls
    rw [(hstep.failed hl.orderly (hquiet.error hanswer)).1, hcalls]
    exact hl.listed name

/-- A handle that was given out is the one that was just asked for, or was given out before. -/
theorem live_or_gave {call : DatabaseCall} {name : String} {h : Handle}
    (hgave : (l.call call).Gave name h) :
    (l.call call).database.live.get? name = some h ∨ l.Gave name h := by
  obtain ⟨call', hname, hmem⟩ := hgave
  rcases List.mem_cons.mp hmem with hlast | hmem
  · obtain ⟨rfl, hr⟩ := Prod.mk.inj hlast
    have hstep := l.step call'
    rw [← hr] at hstep
    exact Or.inl (hstep.live_of_handle hname)
  · exact Or.inr ⟨call', hname, hmem⟩

/-- One call: what it answers, what the collections are then, and where the handles lead. -/
theorem call (hl : l.Kept c) {call : DatabaseCall} (hcall : call.WellFormed)
    (hquiet : (l.call call).Undisturbed) : (l.call call).Kept c := by
  have hstep := l.step call
  obtain ⟨horderly, hconfig, hdriver⟩ := hstep.orderly hl.orderly hcall
  refine ⟨hconfig.trans hl.config, horderly, hl.listed_call hquiet, fun hgave => ?_,
    fun hgave hlog => ?_, fun hclose => ?_⟩
  · rcases live_or_gave hgave with hlive | hgave
    · exact Or.inl hlive
    · rcases hl.given hgave with hlive | hdead
      · exact hstep.given hl.orderly hlive
      · exact Or.inr (hstep.dead hcall hdead)
  · rcases live_or_gave hgave with hlive | hgave
    · have hreached := horderly.located hlive hlog
      rwa [hconfig, hl.config] at hreached
    · exact (hl.reached hgave (hdriver ▸ hlog)).leads (hstep.leads hl.orderly)
  · rcases List.mem_cons.mp hclose with hlast | hmem
    · obtain ⟨rfl, rfl⟩ := Prod.mk.inj hlast
      exact l.close_eq
    · obtain ⟨hr, hclosed⟩ := hl.closed hmem
      rw [Chronicle.call, Database.refuses_when_closed hclosed]
      exact ⟨hr, hclosed⟩

theorem operate (hl : l.Kept c) {op : Operation} (hop : op.WellFormed) (h : Handle) :
    (l.event (.operate h op)).Kept c := by
  have hrun (p : Backend.Place) := Operation.relates_run hop (Backend.indistinct_alike p)
  have hkeeps := hl.orderly.alike.keeps_on hrun h
  exact ⟨hl.config, hl.orderly.on hrun h, hl.listed,
    fun hgave => (hl.given hgave).imp_right fun hdead =>
      hdead.on (Operation.relates_run hop Backend.indistinct_shut) h,
    fun hgave hdriver => (hl.reached hgave hdriver).leads hkeeps.leads, hl.closed⟩

theorem event (hl : l.Kept c) {event : DatabaseEvent} (hevent : event.WellFormed)
    (hquiet : (l.event event).Undisturbed) : (l.event event).Kept c := by
  cases event with
  | call c => exact hl.call hevent hquiet
  | operate h op => exact hl.operate hevent h

/-- What every event keeps, a whole history keeps. -/
theorem run_with (hl : l.Kept c) {events : List DatabaseEvent}
    (hevents : ∀ event ∈ events, event.WellFormed) (hquiet : (l.run events).Undisturbed)
    {P : Chronicle → Prop} (hP : P l)
    (hkeep : ∀ l event, l.Kept c → event.WellFormed → (l.event event).Undisturbed → P l →
      P (l.event event)) : (l.run events).Kept c ∧ P (l.run events) := by
  induction events generalizing l with
  | nil => exact ⟨hl, hP⟩
  | cons event rest ih =>
    have hevent := hevents event List.mem_cons_self
    have hnext : (l.event event).Undisturbed := Undisturbed.of_run hquiet
    exact ih (hl.event hevent hnext) (fun event hmem => hevents event (List.mem_cons_of_mem _ hmem))
      hquiet (hkeep l event hl hevent hnext hP)

theorem run (hl : l.Kept c) {events : List DatabaseEvent}
    (hevents : ∀ event ∈ events, event.WellFormed) (hquiet : (l.run events).Undisturbed) :
    (l.run events).Kept c :=
  (hl.run_with (P := fun _ => True) hevents hquiet trivial fun _ _ _ _ _ _ => trivial).1

/-- The dead stay dead. -/
theorem dead_run (hl : l.Kept c) {events : List DatabaseEvent}
    (hevents : ∀ event ∈ events, event.WellFormed) (hquiet : (l.run events).Undisturbed)
    {h : Handle} (hdead : l.shelf.Dead h) : (l.run events).shelf.Dead h := by
  refine (hl.run_with (P := fun l => l.shelf.Dead h) hevents hquiet hdead ?_).2
  intro l event hl hevent hquiet hdead
  cases event with
  | call call => exact (l.step call).dead hevent hdead
  | operate h' op => exact hdead.on (Operation.relates_run hevent Backend.indistinct_shut) h'

/-- If there is a log of a name, there goes on to be a way to it. -/
theorem finds_run (hl : l.Kept c) {events : List DatabaseEvent}
    (hevents : ∀ event ∈ events, event.WellFormed) (hquiet : (l.run events).Undisturbed)
    {name : String} (hname : Database.isCollectionName name)
    (hfinds : l.database.driver = .log → l.database.config.Finds name l.shelf.disk) :
    (l.run events).database.driver = .log →
      (l.run events).database.config.Finds name (l.run events).shelf.disk := by
  refine (hl.run_with (P := fun l => l.database.driver = .log →
    l.database.config.Finds name l.shelf.disk) hevents hquiet hfinds ?_).2
  intro l event hl hevent hquiet hfinds
  cases event with
  | call call => exact (l.step call).finds hl.orderly hname hfinds
  | operate h op =>
    have hkeeps := hl.orderly.alike.keeps_on
      (fun p => Operation.relates_run hevent (Backend.indistinct_alike p)) h
    exact fun hdriver => (hfinds hdriver).leads hkeeps.leads fun p _ hafter =>
      Or.inl (hkeeps.linked hl.orderly.alike hafter)

/-- A name that was dropped stays vacant until a collection comes up under it. -/
theorem vacant_run (hl : l.Kept c) {events : List DatabaseEvent}
    (hevents : ∀ event ∈ events, event.WellFormed) (hquiet : (l.run events).Undisturbed)
    {name : String} (hname : Database.isCollectionName name)
    (hvacant : l.database.Vacant l.shelf name) :
    (l.run events).database.Vacant (l.run events).shelf name := by
  refine (hl.run_with (P := fun l => l.database.Vacant l.shelf name) hevents hquiet hvacant ?_).2
  intro l event hl hevent hquiet hvacant
  cases event with
  | call call =>
    exact (l.step call).vacant hl.orderly (fun e he => hquiet.error he) hname hvacant
  | operate h op =>
    exact hvacant.on hl.orderly
      (fun p => Operation.relates_run hevent (Backend.indistinct_alike p)) h

theorem mem_list (hl : l.Kept c) (name : String) :
    name ∈ l.database.list ↔ l.database.live.get? name ≠ none := by
  rw [Database.list, mem_keys_iff_get? hl.orderly.ascending, Option.ne_none_iff_isSome]

theorem room (hl : l.Kept c) : l.database.list.length ≤ c.maxCollections := by
  rw [Database.length_list, ← hl.config]
  exact hl.orderly.room

/-- A call that fails leaves all there is as it was, unless the disk has failed. -/
theorem failed (hl : l.Kept c) {call : DatabaseCall} {e : DatabaseError}
    (he : l.answer call = .error e) (hfault : e.kind ≠ .ioFailure) :
    (l.call call).database = l.database ∧ (l.call call).shelf.disk = l.shelf.disk ∧
      ∀ h, (l.call call).shelf.documents h = l.shelf.documents h := by
  have hstep := l.step call
  rw [he] at hstep
  exact hstep.failed hl.orderly hfault

/-- After a drop all that had been given out for the name is dead, and nothing is left under it, if
what was there could be found. -/
theorem dropped (hl : l.Kept c) (hquiet : l.Undisturbed) {name : String} {answer : DatabaseAnswer}
    (hdrop : l.answer (.dropCollection name) = .ok answer) :
    (l.call (.dropCollection name)).Kept c ∧
      ((l.database.driver = .log → l.database.config.Finds name l.shelf.disk) →
        (l.call (.dropCollection name)).database.Vacant
          (l.call (.dropCollection name)).shelf name) ∧
      ∀ h, l.Gave name h → (l.call (.dropCollection name)).shelf.Dead h := by
  have hstep := l.step (.dropCollection name)
  rw [hdrop] at hstep
  refine ⟨hl.call trivial (hquiet.call hdrop), hstep.vacated hl.orderly, fun h hgave => ?_⟩
  rcases hl.given hgave with hlive | hdead
  · refine (hstep.given hl.orderly hlive).resolve_left fun hlive => ?_
    have hgone := (hstep.succeeded hl.orderly name).mp (by rw [hlive]; exact Option.some_ne_none h)
    exact hgone.1 rfl
  · exact hstep.dead trivial hdead

/-- A drop leaves the documents alone that were given out under another name. -/
theorem documents_of_drop (hl : l.Kept c) {name other : String} {h : Handle} (hne : other ≠ name)
    (hgave : l.Gave other h) :
    (l.call (.dropCollection name)).shelf.documents h = l.shelf.documents h := by
  have hstep := l.step (.dropCollection name)
  rcases hl.given hgave with hlive | hdead
  · exact (hstep.spared hl.orderly hne).1 h hlive
  · rw [hdead.documents, (hstep.dead trivial hdead).documents]

section
variable {name : String} {answer : DatabaseAnswer} {later : List DatabaseEvent}

/-- What was given out for a name is dead for good once that was dropped. -/
theorem refuses_after_drop (hl : l.Kept c) (hquiet : l.Undisturbed)
    (hdrop : l.answer (.dropCollection name) = .ok answer)
    (hlater : ∀ event ∈ later, event.WellFormed)
    (hquiet' : ((l.call (.dropCollection name)).run later).Undisturbed) {h : Handle}
    (hgave : l.Gave name h) : ((l.call (.dropCollection name)).run later).shelf.Refuses h := by
  obtain ⟨hnext, -, hdead⟩ := hl.dropped hquiet hdrop
  exact (hnext.dead_run hlater hquiet' (hdead h hgave)).refuses

/-- What comes up next under a name that was dropped is empty, if what was there could be found. -/
theorem empty_after_drop (hl : l.Kept c) (hquiet : l.Undisturbed)
    (hdrop : l.answer (.dropCollection name) = .ok answer)
    (hfinds : l.database.driver = .log → l.database.config.Finds name l.shelf.disk)
    (hlater : ∀ event ∈ later, event.WellFormed)
    (hquiet' : ((l.call (.dropCollection name)).run later).Undisturbed) {call : DatabaseCall}
    {schema : Option Schema} (hmakes : call.makes? = some (name, schema))
    (hnone : name ∉ ((l.call (.dropCollection name)).run later).database.list) :
    let l' := (l.call (.dropCollection name)).run later
    (∃ h, l'.answer call = .ok (.handle h) ∧ (l'.call call).shelf.documents h = some []) ∨
      l'.database.closed = true ∨ c.maxCollections ≤ l'.database.list.length ∨
      ∃ e, l'.answer call = .error e ∧ e.kind = .ioFailure := by
  intro l'
  obtain ⟨hnext, hvacant, -⟩ := hl.dropped hquiet hdrop
  have hname := l.isCollectionName_of_drop hdrop
  have hlast : l'.Kept c := hnext.run hlater hquiet'
  have hempty := (l'.step call).of_vacant hmakes hname
    (not_ne_iff.mp fun hlive => hnone ((hlast.mem_list name).mpr hlive))
    (hnext.vacant_run hlater hquiet' hname (hvacant hfinds))
  rwa [hlast.config, ← Database.length_list] at hempty

end

theorem after_close (hl : l.Kept c) {r : Except DatabaseError DatabaseAnswer}
    (hclose : (.close, r) ∈ l.calls) :
    r = .ok .closed ∧ l.database.list = [] ∧ l.answer .close = .ok .closed ∧
      ∀ call : DatabaseCall, call ≠ .close → l.answer call = .error (.closed c.name) := by
  obtain ⟨hr, hclosed⟩ := hl.closed hclose
  refine ⟨hr, ?_, l.close_eq.1, fun call hcall => ?_⟩
  · rw [Database.list, hl.orderly.shut hclosed]
    rfl
  · rw [answer, Database.refuses_when_closed hclosed, hl.config]
    cases call with
    | close => exact absurd rfl hcall
    | collection name => rfl
    | collectionWithSchema name schema => rfl
    | existingCollection name => rfl
    | dropCollection name => rfl

end Kept

theorem kept_start {db : Database} {d : Disk} (hopen : Database.open_ c .bundled = .ok db)
    (hd : d.Sound) :
    Kept c { database := db, shelf := { disk := d } } := by
  obtain ⟨hconfig, -, hlive, horderly⟩ := Database.orderly_open hopen hd
  have hnone {name : String} {h : Handle} :
      ¬ Gave { database := db, shelf := { disk := d } } name h := by
    rintro ⟨call, -, hmem⟩
    cases hmem
  refine ⟨hconfig, horderly, fun name => iff_of_false (fun hthere => hthere ?_) id,
    fun hgave => absurd hgave hnone, fun hgave => absurd hgave hnone, fun hclose => ?_⟩
  · rw [hlive]
    rfl
  · cases hclose

/-- A database is its live collections. Its list is in order and never too long, and names what was
materialized and not dropped since. A call that fails changes nothing, unless the disk fails. A
drop touches no other collection and no log of another; all handles that were given out for the
name are dead for good. What comes up under it next is empty, and also under a name that was never
asked for, provided there is a way to its log if there is one from before. After it was closed a
database has no collections, and every call is refused but to close it again. -/
theorem live_collections_over_history {db : Database} {d : Disk}
    (hopen : Database.open_ c .bundled = .ok db) (hd : d.Sound) {events : List DatabaseEvent}
    (hevents : ∀ event ∈ events, event.WellFormed)
    (hrun : run events { database := db, shelf := { disk := d } } = l) (hquiet : l.Undisturbed) :
    (l.database.list.Pairwise (fun a b => compare a b = .lt) ∧
      (∀ name, name ∈ l.database.list ↔ Materialized l.calls name) ∧
      l.database.list.length ≤ c.maxCollections) ∧
    (∀ (call : DatabaseCall) (e : DatabaseError), l.answer call = .error e →
      e.kind ≠ .ioFailure → (l.call call).database = l.database ∧
        (l.call call).shelf.disk = l.shelf.disk ∧
        ∀ h, (l.call call).shelf.documents h = l.shelf.documents h) ∧
    (∀ (name : String) (found : DatabaseAnswer) (l' : Chronicle),
      l.answer (.dropCollection name) = .ok found → l.call (.dropCollection name) = l' →
      (∀ other h, other ≠ name → l.Gave other h →
        l'.shelf.documents h = l.shelf.documents h) ∧
      (∀ other p, other ≠ name → Database.isCollectionName other → c.logOf other = .ok p →
        Spares (key (wayOf p)) l.shelf.disk l'.shelf.disk) ∧
      ∀ (later : List DatabaseEvent) (l'' : Chronicle), (∀ event ∈ later, event.WellFormed) →
        l'.run later = l'' → l''.Undisturbed →
        (∀ h, l.Gave name h → l''.shelf.Refuses h) ∧
        ((∃ h, l.Gave name h) ∨ (db.driver = .log → c.Finds name d) →
          ∀ (call : DatabaseCall) (schema : Option Schema), call.makes? = some (name, schema) →
            name ∉ l''.database.list →
            (∃ h, l''.answer call = .ok (.handle h) ∧
              (l''.call call).shelf.documents h = some []) ∨
            l''.database.closed = true ∨ c.maxCollections ≤ l''.database.list.length ∨
            ∃ e, l''.answer call = .error e ∧ e.kind = .ioFailure)) ∧
    ∀ r, (.close, r) ∈ l.calls → r = .ok .closed ∧ l.database.list = [] ∧
      l.answer .close = .ok .closed ∧
      ∀ call : DatabaseCall, call ≠ .close → l.answer call = .error (.closed c.name) := by
  have hstart := kept_start hopen hd
  have hl : l.Kept c := hrun ▸ hstart.run hevents (hrun ▸ hquiet)
  refine ⟨⟨pairwise_keys hl.orderly.ascending,
    fun name => (hl.mem_list name).trans (hl.listed name), hl.room⟩,
    fun call e he hfault => hl.failed he hfault, fun name found l' hdrop hl' => ?_,
    fun r hclose => hl.after_close hclose⟩
  subst hl'
  refine ⟨fun other h hne hgave => hl.documents_of_drop hne hgave,
    fun other p hne hother hp => ?_, fun later l'' hlater hl'' hquiet' => ?_⟩
  · rw [← hl.config] at hp
    exact ((l.step _).spared hl.orderly hne).2 p hother hp
  · subst hl''
    have hfinds (hway : (∃ h, l.Gave name h) ∨ (db.driver = .log → c.Finds name d)) :
        l.database.driver = .log → l.database.config.Finds name l.shelf.disk := by
      rcases hway with ⟨h, hgave⟩ | hway
      · intro hdriver
        rw [hl.config]
        exact (hl.reached hgave hdriver).finds
      · have hname := l.isCollectionName_of_drop hdrop
        subst hrun
        exact hstart.finds_run hevents hquiet hname (hstart.config ▸ hway)
    exact ⟨fun h hgave => hl.refuses_after_drop hquiet hdrop hlater hquiet' hgave,
      fun hway call schema hmakes hnone =>
        hl.empty_after_drop hquiet hdrop (hfinds hway) hlater hquiet' hmakes hnone⟩

/-- A collection that holds a document is dropped and asked for again. -/
theorem live_collections_of_dropped :
    let config := DatabaseConfig.onDisk "db" "root"
    let start : Chronicle := { database := { config, driver := .log }, shelf := {} }
    let insert := Operation.insert { now := 5, freshId := "" } { id := some "x" }
    let l := start.run [.call (.collection "a"), .operate 0 insert, .call (.collection "b")]
    let l' := l.call (.dropCollection "a")
    l.database.list = ["a", "b"] ∧ l'.shelf.Refuses 0 ∧
      l'.shelf.documents 1 = l.shelf.documents 1 ∧
      ∃ h, l'.answer (.collection "a") = .ok (.handle h) ∧
        (l'.call (.collection "a")).shelf.documents h = some [] := by
  intro config start insert l l'
  have hopen : Database.open_ (.onDisk "db" "root") .bundled =
      .ok { config := .onDisk "db" "root", driver := .log } := rfl
  have hevents : ∀ event ∈ [DatabaseEvent.call (.collection "a"), .operate 0 insert,
      .call (.collection "b")], event.WellFormed := by
    intro event hevent
    rcases List.mem_cons.mp hevent with rfl | hevent
    · trivial
    rcases List.mem_cons.mp hevent with rfl | hevent
    · exact ⟨ascending_nil, trivial⟩
    · rw [List.mem_singleton.mp hevent]
      trivial
  -- the calls so far, the later one first
  have hcalls : l.calls =
      [(.collection "b", .ok (.handle 1)), (.collection "a", .ok (.handle 0))] := by
    have hfirst : start.answer (.collection "a") = .ok (.handle 0) :=
      eq_ok_of_toOption (by decide +kernel)
    have hsecond : ((start.call (.collection "a")).event (.operate 0 insert)).answer
        (.collection "b") = .ok (.handle 1) := eq_ok_of_toOption (by decide +kernel)
    rw [← hfirst, ← hsecond]
    rfl
  have hquiet : l.Undisturbed := by
    intro call e hmem
    rw [hcalls] at hmem
    simp at hmem
  have hgave (name : String) (h : Handle)
      (hmem : (DatabaseCall.collection name, .ok (.handle h)) ∈ l.calls) : l.Gave name h :=
    ⟨_, rfl, hmem⟩
  have hdropped : l.answer (.dropCollection "a") = .ok (.dropped true) :=
    eq_ok_of_toOption (by decide +kernel)
  obtain ⟨-, -, hdrop, -⟩ :=
    live_collections_over_history hopen sound_empty hevents (l := l) rfl hquiet
  obtain ⟨hothers, -, hafter⟩ := hdrop "a" _ l' hdropped rfl
  obtain ⟨hrefuses, hempty⟩ := hafter [] l' (by simp) rfl (hquiet.call hdropped)
  have hgaveA : l.Gave "a" 0 := hgave "a" 0 (by simp [hcalls])
  refine ⟨by decide +kernel, hrefuses 0 hgaveA,
    hothers "b" 1 (by decide) (hgave "b" 1 (by simp [hcalls])), ?_⟩
  rcases hempty (.inl ⟨0, hgaveA⟩) (.collection "a") none rfl (by decide +kernel) with
    hmade | hclosed | hfull | ⟨e, herror, -⟩
  · exact hmade
  · exact absurd hclosed (by decide +kernel)
  · exact absurd hfull (by decide +kernel)
  · have hmade : l'.answer (.collection "a") = .ok (.handle 2) := eq_ok_of_toOption (by decide +kernel)
    rw [hmade] at herror
    cases herror

end Chronicle
end DocBase
