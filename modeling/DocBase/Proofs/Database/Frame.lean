import DocBase.Proofs.Database.Logs
import DocBase.Proofs.Store.Paths

/-! What an operation on one collection of a shelf leaves alone: every other collection with what
it holds, and the ways to other logs. A collection that was closed refuses all that comes after. -/
namespace DocBase
open Keyed Disk

namespace Backend
variable {b : Backend}

/-! ## Closed stores -/

theorem closed_cases (h : b.stored = none) :
    (∃ s, b = memory s ∧ s.closed = true) ∨
      ∃ path file s, b = log path file s ∧ s.isOpen = false := by
  cases b with
  | memory s =>
    refine Or.inl ⟨s, rfl, ?_⟩
    unfold stored at h
    dsimp only at h
    split at h
    next hclosed => exact hclosed
    next => cases h
  | log path file s =>
    refine Or.inr ⟨path, file, s, rfl, ?_⟩
    unfold stored at h
    dsimp only at h
    split at h
    next => cases h
    next hclosed => simpa using hclosed

theorem load_of_closed (h : b.stored = none) (d : Disk) : b.load d = b := by
  rcases closed_cases h with ⟨s, rfl, -⟩ | ⟨path, file, s, rfl, hclosed⟩
  · rfl
  · exact load_closed d path file hclosed

theorem flush_of_closed (h : b.stored = none) (d : Disk) : b.flush d = (b, d) := by
  rcases closed_cases h with ⟨s, rfl, -⟩ | ⟨path, file, s, rfl, hclosed⟩
  · rfl
  · exact flush_closed d path file hclosed

/-- A closed store refuses to read, to delete and to count. -/
theorem refused (h : b.stored = none) :
    (∀ id, RecordStore.get id b = (.error .closed, b)) ∧
      (∀ id, RecordStore.delete id b = (.error .closed, b)) ∧
      RecordStore.size b = .error .closed := by
  rcases closed_cases h with ⟨s, rfl, hclosed⟩ | ⟨path, file, s, rfl, hclosed⟩
  · have hrefused {α : Type} (f : Except StoreError α × MemoryStore) :
        s.whenOpen f = (.error .closed, s) := if_pos hclosed
    refine ⟨fun id => ?_, fun id => ?_, if_pos hclosed⟩
    · change lift (MemoryStore.get id) (LogStore.get id) (memory s) = _
      rw [lift, MemoryStore.get, hrefused]
    · change lift (MemoryStore.delete id) (LogStore.delete id) (memory s) = _
      rw [lift, MemoryStore.delete, hrefused]
  · refine ⟨fun id => ?_, fun id => ?_, if_neg (by simp [hclosed])⟩
    · change lift (MemoryStore.get id) (LogStore.get id) (log path file s) = _
      rw [lift, LogStore.get, LogStore.whenOpen_of_closed hclosed]
    · change lift (MemoryStore.delete id) (LogStore.delete id) (log path file s) = _
      rw [lift, LogStore.delete, LogStore.whenOpen_of_closed hclosed]

/-- It takes no record and tells no identifiers, and stays as it is. -/
theorem unchanged_of_closed (h : b.stored = none) :
    (∀ range, (RecordStore.scan range b).2 = b) ∧
      ∀ id record, (RecordStore.put id record b).2 = b := by
  rcases closed_cases h with ⟨s, rfl, hclosed⟩ | ⟨path, file, s, rfl, hclosed⟩
  · have hrefuses := MemoryStore.refusesAll hclosed
    refine ⟨fun range => ?_, fun id record => ?_⟩
    · obtain ⟨e, hscan⟩ := hrefuses.scan range
      exact congrArg memory (congrArg Prod.snd hscan)
    · obtain ⟨e, hput⟩ := hrefuses.put id record
      exact congrArg memory (congrArg Prod.snd hput)
  · have hrefuses := LogStore.refusesAll hclosed
    refine ⟨fun range => ?_, fun id record => ?_⟩
    · obtain ⟨e, hscan⟩ := hrefuses.scan range
      exact congrArg (log path file) (congrArg Prod.snd hscan)
    · obtain ⟨e, hput⟩ := hrefuses.put id record
      exact congrArg (log path file) (congrArg Prod.snd hput)

/-- Closing always succeeds, and leaves nothing that could be read. -/
theorem close_spec (b : Backend) :
    (RecordStore.close b).1 = .ok () ∧ (RecordStore.close b).2.stored = none := by
  cases b with
  | memory s => exact ⟨rfl, rfl⟩
  | log path file s =>
    have hclosed : s.close.2.isOpen = false := isOpen_of_close (b := log path file s) rfl
    have hok : s.close.1 = .ok () := by
      rw [LogStore.close]
      split <;> rfl
    have hnone : (log path file s.close.2).stored = none := if_neg (by rw [hclosed]; simp)
    exact ⟨hok, hnone⟩

/-- One and the same store, which is closed. -/
def Shut (b c : Backend) : Prop := b = c ∧ b.stored = none

theorem indistinct_shut : Indistinct Shut := by
  have hcall {α : Type} {call : Backend → Except StoreError α × Backend}
      (hclosed : ∀ b, b.stored = none → (call b).2.stored = none) {b c : Backend} (h : Shut b c) :
      ∃ r b' c', call b = (r, b') ∧ call c = (r, c') ∧ Shut b' c' := by
    obtain ⟨rfl, hb⟩ := h
    exact ⟨_, _, _, rfl, rfl, rfl, hclosed b hb⟩
  refine ⟨fun h id => hcall (fun b hb => ?_) h, fun h range => hcall (fun b hb => ?_) h,
    fun h id record => hcall (fun b hb => ?_) h, fun h id => hcall (fun b hb => ?_) h,
    fun h => hcall (fun b hb => ?_) h, fun h => by rw [h.1]⟩
  · rw [(refused hb).1 id]
    exact hb
  · rw [(unchanged_of_closed hb).1 range]
    exact hb
  · rw [(unchanged_of_closed hb).2 id record]
    exact hb
  · rw [(refused hb).2.1 id]
    exact hb
  · exact (close_spec b).2

end Backend

/-! ## Shelves -/

namespace Collection
variable {σ : Type} [RecordStore σ] {c : Collection σ}

/-- A schema that is attached, or refused, has nothing to do with what is stored. -/
theorem store_attachSchema (s : Option Schema) (c : Collection σ) :
    (attachSchema s c).2.store = c.store := by
  rw [attachSchema, get_bind]
  split
  · rfl
  cases c.isEmpty with
  | error e => rfl
  | ok empty => cases empty <;> rfl

end Collection

namespace Shelf
variable {a a' : Shelf} {h h' : Handle} {c : Collection Backend} {e : Disk}

/-- What the collection behind a handle holds, unless it is closed. -/
def documents (a : Shelf) (h : Handle) : Option (Keyed String Bytes) :=
  (a.get? h).bind fun c => (loaded a.disk c).store.stored

/-- What is kept of a collection is kept of what it holds. -/
theorem Alike.documents_eq (hab : Alike a a) (hget : a'.get? h = a.get? h)
    (hspares : ∀ path file, a.HasOpen h path file →
      Spares (key (wayOf path)) a.disk a'.disk) : a'.documents h = a.documents h := by
  rw [documents, documents, hget]
  cases hc : a.get? h with
  | none => rfl
  | some c =>
    refine Backend.stored_load fun path file s hstore hs => ?_
    have ho : a.HasOpen h path file := ⟨c, s, hc, hstore, hs⟩
    exact (hspares path file ho).bytes (hab.linked ho)

/-- What an operation on one collection leaves alone. -/
structure Keeps (h : Handle) (a a' : Shelf) : Prop where
  size : a'.opened.size = a.opened.size
  others {h' : Handle} (hne : h' ≠ h) : a'.get? h' = a.get? h'
  spares {k : String} (hk : ∀ path file, a.HasOpen h path file → k ≠ key (wayOf path)) :
    Spares k a.disk a'.disk
  leads : Leads a.disk a'.disk

theorem Keeps.refl (h : Handle) (a : Shelf) : Keeps h a a :=
  ⟨rfl, fun _ => rfl, fun _ => .refl _ a.disk, .refl a.disk⟩

theorem Keeps.documents (hkeeps : Keeps h a a') (hab : Alike a a) (hne : h' ≠ h) :
    a'.documents h' = a.documents h' :=
  hab.documents_eq (hkeeps.others hne) fun _ _ ho =>
    hkeeps.spares fun _ _ ho' => hab.apart ho ho' hne

/-- A log that is there after the operation was there before. -/
theorem Keeps.linked (hkeeps : Keeps h a a') (hab : Alike a a) {path : String}
    (hlinked : a'.disk.linked path ≠ none) : a.disk.linked path ≠ none := by
  by_cases hown : ∃ path' file, a.HasOpen h path' file ∧ key (wayOf path) = key (wayOf path')
  · obtain ⟨path', file, ho, hkey⟩ := hown
    rw [Disk.linked, hkey, ← Disk.linked, hab.linked ho]
    exact Option.some_ne_none file
  · have hspares := hkeeps.spares (k := key (wayOf path)) fun path' file ho hkey =>
      hown ⟨path', file, ho, hkey⟩
    rwa [Disk.linked, hspares.link] at hlinked

theorem Alike.keeps_on {α : Type} (hab : Alike a a) {f : CollectionAction Backend α}
    {Q : α → α → Prop} (hf : ∀ p, Relates (Collection.Twins (Backend.Alike p)) f f Q)
    (h : Handle) : Keeps h a (a.on h f).2 := by
  cases hget : a.get? h with
  | none =>
    rw [on_of_none hget]
    exact .refl h a
  | some c =>
    have htwins := hab.twins_self hget
    obtain ⟨-, hafter⟩ := hf (loaded a.disk c).store.place (loaded a.disk c) (loaded a.disk c)
      (htwins.withStore htwins.store)
    cases hrun : f (loaded a.disk c) with
    | mk r c₁ =>
      rw [hrun] at hafter
      have hleads := Backend.leads_flush (d := a.disk) hafter.store
        fun path file obstacle hplace hnone =>
          clear_of_canReplace ((Backend.cases_of_place_load hplace).2 hnone)
      obtain ⟨b₁, b₂, e, hflush, -, -, -, hspares, -⟩ :=
        hafter.store.flush hab.sound fun path file obstacle hplace => by
          obtain ⟨ho, hlocate⟩ := open_of_place hget hplace
          exact ⟨hab.linked ho, hlocate⟩
      rw [hflush] at hleads
      rw [on_of_some hget f hrun, hflush]
      refine ⟨Array.size_setIfInBounds .., fun hne => (get?_put hget _).trans (if_neg hne),
        fun hk => hspares _ fun path file obstacle hplace => ?_, hleads⟩
      exact hk path file (open_of_place hget hplace).1

/-- An operation that leaves the store alone leaves everything that is held as it is. -/
theorem Alike.still_on {α : Type} (hab : Alike a a) {f : CollectionAction Backend α}
    (hf : ∀ c, (f c).2.store = c.store) (h : Handle) :
    (a.on h f).2.disk = a.disk ∧ ∀ h', (a.on h f).2.documents h' = a.documents h' := by
  cases hget : a.get? h with
  | none =>
    rw [on_of_none hget]
    exact ⟨rfl, fun _ => rfl⟩
  | some c =>
    have htwins := hab.twins_self hget
    cases hrun : f (loaded a.disk c) with
    | mk r c₁ =>
      have hstore : c₁.store = c.store.load a.disk := by
        have hsame := hf (loaded a.disk c)
        rw [hrun] at hsame
        exact hsame
      obtain ⟨b₁, hflush, hpaired, -⟩ := Backend.Alike.flush_read (d := a.disk) htwins.store
      rw [on_of_some hget f hrun, hstore]
      change (c.store.load a.disk).flush a.disk = _ at hflush
      rw [hflush]
      refine ⟨rfl, fun h' => ?_⟩
      rw [documents, documents, get?_put hget]
      by_cases hsame : h' = h
      · rw [if_pos hsame, hsame, hget]
        exact hpaired.stored_eq
      · rw [if_neg hsame]

/-! ## Dead handles -/

/-- The collection behind the handle is closed. -/
def Dead (a : Shelf) (h : Handle) : Prop :=
  ∃ c, a.get? h = some c ∧ Collection.Twins Backend.Shut c c

theorem Dead.documents (hdead : Dead a h) : a.documents h = none := by
  obtain ⟨c, hget, htwins⟩ := hdead
  rw [Shelf.documents, hget]
  change (c.store.load a.disk).stored = none
  rw [Backend.load_of_closed htwins.store.2, htwins.store.2]

/-- No operation brings a collection back to life. -/
theorem Dead.on {α : Type} (hdead : Dead a h') {f : CollectionAction Backend α} {Q : α → α → Prop}
    (hf : Relates (Collection.Twins Backend.Shut) f f Q) (h : Handle) :
    Dead (a.on h f).2 h' := by
  obtain ⟨c, hget', htwins⟩ := hdead
  cases hget : a.get? h with
  | none =>
    rw [on_of_none hget]
    exact ⟨c, hget', htwins⟩
  | some d =>
    cases hrun : f (loaded a.disk d) with
    | mk r d₁ =>
      rw [on_of_some hget f hrun]
      by_cases hsame : h' = h
      · rw [hsame, hget] at hget'
        cases hget'
        have hloaded : loaded a.disk c = c := by
          rw [loaded, Backend.load_of_closed htwins.store.2]
        rw [hloaded] at hrun
        have hafter := (hf c c htwins).2
        rw [hrun] at hafter
        refine ⟨{ d₁ with store := (d₁.store.flush a.disk).1 },
          (get?_put hget h').trans (if_pos hsame), ?_⟩
        rw [Backend.flush_of_closed hafter.store.2]
        exact hafter
      · exact ⟨c, ((get?_put hget h').trans (if_neg hsame)).trans hget', htwins⟩

theorem close_ok (a : Shelf) (h : Handle) : (a.on h Collection.close).1 = .ok () := by
  have hclose (c : Collection Backend) : (Collection.close c).1 = .ok () := by
    have hstore := (Backend.close_spec c.store).1
    cases hrun : RecordStore.close c.store with
    | mk r s =>
      rw [hrun] at hstore
      dsimp only at hstore
      rw [Collection.close, bind_of_ok (by rw [Collection.onStore_apply hrun, hstore]; rfl)]
      rfl
  cases hget : a.get? h with
  | none =>
    rw [on_of_none hget]
    exact hclose nowhere
  | some c =>
    have hok := hclose (loaded a.disk c)
    cases hrun : Collection.close (loaded a.disk c) with
    | mk r c₁ =>
      rw [hrun] at hok
      rw [on_of_some hget _ hrun]
      exact hok

theorem Alike.dead_close (hab : Alike a a) (hthere : a.get? h ≠ none) :
    Dead (a.on h Collection.close).2 h := by
  obtain ⟨c, hget⟩ := Option.ne_none_iff_exists'.mp hthere
  have htwins := hab.twins_self hget
  have hafter := (Collection.relates_close (Backend.indistinct_alike _) (loaded a.disk c)
    (loaded a.disk c) (htwins.withStore htwins.store)).2
  have hstore := Collection.store_close (loaded a.disk c)
  cases hrun : Collection.close (loaded a.disk c) with
  | mk r c₁ =>
    rw [hrun] at hafter hstore
    have hclosed : c₁.store.stored = none := by
      dsimp only at hstore
      rw [hstore]
      exact (Backend.close_spec _).2
    rw [on_of_some hget _ hrun, Backend.flush_of_closed hclosed]
    exact ⟨c₁, (get?_put hget h).trans (if_pos rfl), ⟨rfl, hclosed⟩, rfl, hafter.schema⟩

/-- The collections behind some handles are closed one after the other. -/
def shut (hs : List Handle) (a : Shelf) : Shelf :=
  hs.foldl (fun a h => (a.on h Collection.close).2) a

theorem Dead.shut (hdead : Dead a h) (hs : List Handle) : Dead (a.shut hs) h := by
  induction hs generalizing a with
  | nil => exact hdead
  | cons first rest ih =>
    exact ih (hdead.on (Collection.relates_close Backend.indistinct_shut) first)

/-- All of them are dead then and have no log open, and the shelf is as sound as before. -/
theorem Alike.shut (hab : Alike a a) (hs : List Handle) :
    Alike (a.shut hs) (a.shut hs) ∧ (∀ h ∈ hs, a.get? h ≠ none → Dead (a.shut hs) h) ∧
      ∀ h path file, (a.shut hs).HasOpen h path file →
        h ∉ hs ∧ ∃ file', a.HasOpen h path file' := by
  induction hs generalizing a with
  | nil => exact ⟨hab, fun h hmem => absurd hmem List.not_mem_nil,
      fun h path file ho => ⟨List.not_mem_nil, file, ho⟩⟩
  | cons first rest ih =>
    have hclose (p : Backend.Place) := Collection.relates_close (Backend.indistinct_alike p)
    obtain ⟨-, hafter, hopen⟩ := hab.on hclose first
    obtain ⟨hlast, hdead, hlastOpen⟩ := ih hafter
    refine ⟨hlast, fun h hmem hthere => ?_, fun h path file ho => ?_⟩
    · by_cases hfirst : h = first
      · subst hfirst
        exact (hab.dead_close hthere).shut rest
      · refine hdead h ((List.mem_cons.mp hmem).resolve_left hfirst) ?_
        rwa [(hab.keeps_on hclose first).others hfirst]
    · obtain ⟨hrest, file', ho'⟩ := hlastOpen h path file ho
      refine ⟨fun hmem => ?_, hopen h path file' ho'⟩
      rcases List.mem_cons.mp hmem with rfl | hmem
      · exact not_hasOpen_close a h path file' ho'
      · exact hrest hmem

/-- Closing keeps the ways there are, and makes no log. -/
theorem Alike.disk_shut (hab : Alike a a) (hs : List Handle) :
    Leads a.disk (a.shut hs).disk ∧
      ∀ path, (a.shut hs).disk.linked path ≠ none → a.disk.linked path ≠ none := by
  induction hs generalizing a with
  | nil => exact ⟨.refl a.disk, fun _ hlinked => hlinked⟩
  | cons first rest ih =>
    have hclose (p : Backend.Place) := Collection.relates_close (Backend.indistinct_alike p)
    have hkeeps := hab.keeps_on hclose first
    obtain ⟨-, hafter, -⟩ := hab.on hclose first
    obtain ⟨hleads, hlinked⟩ := ih hafter
    exact ⟨hkeeps.leads.trans hleads, fun path hlast => hkeeps.linked hab (hlinked path hlast)⟩

end Shelf

/-! ## Opening and removing -/

namespace DatabaseConfig

variable {c : DatabaseConfig} {name : String} {d e : Disk}

/-- There is a way to the place of the log of a collection, through directories that are there. -/
def Reaches (c : DatabaseConfig) (name : String) (d : Disk) : Prop :=
  ∃ p way, c.logOf name = .ok p ∧ d.locate p = .ok way

/-- If there is a log of a collection, there is a way to it. -/
def Finds (c : DatabaseConfig) (name : String) (d : Disk) : Prop :=
  ∀ p, c.logOf name = .ok p → d.linked p ≠ none → ∃ way, d.locate p = .ok way

theorem Reaches.leads (h : c.Reaches name d) (hleads : Leads d e) : c.Reaches name e := by
  obtain ⟨p, way, hp, hlocate⟩ := h
  exact ⟨p, way, hp, hleads.locate hlocate⟩

theorem Reaches.finds (h : c.Reaches name d) : c.Finds name d := by
  intro p hp _
  obtain ⟨p', way, hp', hlocate⟩ := h
  rw [hp] at hp'
  cases hp'
  exact ⟨way, hlocate⟩

theorem Finds.leads (h : c.Finds name d) (hleads : Leads d e)
    (hlinked : ∀ p, c.logOf name = .ok p → e.linked p ≠ none →
      d.linked p ≠ none ∨ ∃ way, e.locate p = .ok way) : c.Finds name e := by
  intro p hp hafter
  rcases hlinked p hp hafter with hbefore | hway
  · obtain ⟨way, hlocate⟩ := h p hp hbefore
    exact ⟨way, hleads.locate hlocate⟩
  · exact hway

end DatabaseConfig

namespace StoreDriver
variable {d e : Disk} {driver : StoreDriver} {c : DatabaseConfig} {name : String}

theorem onLog_eq {α : Type} {f : String → Disk → Except PathFault α × Disk}
    {r : Except DriverError α} (h : onLog (c.name ++ "/" ++ name) c.store f d = (r, e)) :
    (∃ fault, c.logOf name = .error fault ∧ r = .error fault ∧ e = d) ∨
      ∃ p r', c.logOf name = .ok p ∧ f p d = (r', e) ∧
        r = r'.mapError fun fault => .store fault.toStoreError := by
  rw [onLog] at h
  rw [DatabaseConfig.logOf]
  cases hp : Log.path c.store (c.name ++ "/" ++ name) with
  | error fault =>
    rw [hp] at h
    cases h
    exact Or.inl ⟨fault, rfl, rfl, rfl⟩
  | ok p =>
    rw [hp] at h
    cases hrun : f p d with
    | mk r' e' =>
      simp only [hrun] at h
      cases h
      exact Or.inr ⟨p, r', rfl, hrun, rfl⟩

theorem onLog_ok {α : Type} {f : String → Disk → Except PathFault α × Disk} {a : α}
    (h : onLog (c.name ++ "/" ++ name) c.store f d = (.ok a, e)) :
    ∃ p, c.logOf name = .ok p ∧ f p d = (.ok a, e) := by
  rcases onLog_eq h with ⟨fault, -, hr, -⟩ | ⟨p, r, hp, hrun, hr⟩
  · cases hr
  · cases r with
    | error fault => cases hr
    | ok b =>
      cases hr
      exact ⟨p, hp, hrun⟩

/-- What a log is asked for fails because its path cannot be taken, or because the disk fails. -/
theorem onLog_error {α : Type} {f : String → Disk → Except PathFault α × Disk} {fault : DriverError}
    (h : onLog (c.name ++ "/" ++ name) c.store f d = (.error fault, e)) :
    (e = d ∧ c.logOf name = .error fault) ∨ fault.kind = .ioFailure := by
  rcases onLog_eq h with ⟨_, hp, hr, rfl⟩ | ⟨p, r', -, -, hr⟩
  · cases hr
    exact Or.inl ⟨rfl, hp⟩
  · cases r' with
    | error cause =>
      cases hr
      exact Or.inr rfl
    | ok _ => cases hr

/-- Opening keeps the ways there were. The log that it may make is found by its path. -/
theorem leads_openStore {opened : Except DriverError Backend}
    (hopen : driver.openStore (c.name ++ "/" ++ name) c.store d = (opened, e)) :
    Leads d e ∧ ∀ p, c.logOf name = .ok p → e.linked p ≠ none →
      d.linked p ≠ none ∨ ∃ way, e.locate p = .ok way := by
  cases driver with
  | memory =>
    cases hopen
    exact ⟨.refl d, fun _ _ h => Or.inl h⟩
  | log =>
    rw [openStore] at hopen
    rcases onLog_eq hopen with ⟨fault, -, -, rfl⟩ | ⟨p, r, hp, hrun, -⟩
    · exact ⟨.refl e, fun p _ h => Or.inl h⟩
    · have hleads := leads_openLog (d := d) p c.store
      have hlinked := linked_of_openLog (d := d) p c.store
      rw [hrun] at hleads hlinked
      refine ⟨hleads, fun p' hp' h => ?_⟩
      rw [hp] at hp'
      cases hp'
      exact hlinked h

/-- A log that was opened is reached. -/
theorem reaches_of_openStore {b : Backend} (hdriver : driver = .log)
    (hopen : driver.openStore (c.name ++ "/" ++ name) c.store d = (.ok b, e)) :
    c.Reaches name e := by
  subst hdriver
  rw [openStore] at hopen
  obtain ⟨p, hp, hrun⟩ := onLog_ok hopen
  obtain ⟨way, hlocate⟩ := locate_of_openLog hrun
  exact ⟨p, way, hp, hlocate⟩

/-- A store that is opened where nothing was holds nothing. -/
theorem stored_of_openStore {b : Backend}
    (hnone : driver = .log → ∃ p, c.logOf name = .ok p ∧ d.linked p = none)
    (hopen : driver.openStore (c.name ++ "/" ++ name) c.store d = (.ok b, e)) :
    (b.load e).stored = some [] := by
  cases driver with
  | memory =>
    cases hopen
    rfl
  | log =>
    rw [openStore] at hopen
    obtain ⟨p, hp, hrun⟩ := onLog_ok hopen
    obtain ⟨p', hp', hlinked⟩ := hnone rfl
    rw [hp] at hp'
    cases hp'
    exact stored_of_openLog hlinked hrun

/-- A collection is not opened because its path cannot be taken, or because the disk fails. -/
theorem openStore_error {fault : DriverError}
    (hopen : driver.openStore (c.name ++ "/" ++ name) c.store d = (.error fault, e)) :
    (e = d ∧ driver = .log ∧ c.logOf name = .error fault) ∨ fault.kind = .ioFailure := by
  cases driver with
  | memory => cases hopen
  | log =>
    rw [openStore] at hopen
    exact (onLog_error hopen).imp_left fun hpath => ⟨hpath.1, rfl, hpath.2⟩

theorem leads_destroy (hd : d.Sound) {removed : Except DriverError Unit}
    (hdestroy : driver.destroy (c.name ++ "/" ++ name) c.store d = (removed, e)) :
    Leads d e ∧ ∀ k, d.links.get? k = none → e.links.get? k = none := by
  cases driver with
  | memory =>
    cases hdestroy
    exact ⟨.refl d, fun _ h => h⟩
  | log =>
    rw [destroy] at hdestroy
    rcases onLog_eq hdestroy with ⟨fault, -, -, rfl⟩ | ⟨p, r, -, hrun, -⟩
    · exact ⟨.refl e, fun _ h => h⟩
    · have hleads := leads_removeLog hd p
      rw [hrun] at hleads
      refine ⟨hleads, fun k hk => ?_⟩
      have hnone := get?_removeLog_of_none hd hk p
      rwa [hrun] at hnone

/-- What was removed had its place, and nothing is left there. -/
theorem linked_of_destroy (hd : d.Sound) (hfinds : driver = .log → c.Finds name d)
    (hdestroy : driver.destroy (c.name ++ "/" ++ name) c.store d = (.ok (), e)) :
    driver = .log → ∃ p, c.logOf name = .ok p ∧ e.linked p = none := by
  rintro rfl
  rw [destroy] at hdestroy
  obtain ⟨p, hp, hrun⟩ := onLog_ok hdestroy
  exact ⟨p, hp, linked_of_removeLog hd (hfinds rfl p hp) hrun⟩

/-- What is stored is not removed because its path cannot be taken, or because the disk fails. -/
theorem destroy_error {fault : DriverError}
    (hdestroy : driver.destroy (c.name ++ "/" ++ name) c.store d = (.error fault, e)) :
    (e = d ∧ driver = .log ∧ c.logOf name = .error fault) ∨ fault.kind = .ioFailure := by
  cases driver with
  | memory => cases hdestroy
  | log =>
    rw [destroy] at hdestroy
    exact (onLog_error hdestroy).imp_left fun hpath => ⟨hpath.1, rfl, hpath.2⟩

end StoreDriver
end DocBase
