import DocBase.Proofs.Query.Access
import DocBase.Proofs.Query.Cursor
import DocBase.Proofs.Store.Faults
import DocBase.Collection.Query

/-! What the operations of a collection do over a store of which any call may fail. Each either
fails and leaves the collection as it was, or does all that it is meant to do. -/
namespace DocBase.Collection
open Keyed

/-! ## Actions -/

section
variable {σ α β : Type} {c t : Collection σ}

theorem get_bind (f : Collection σ → CollectionAction σ β) : (get >>= f) c = f c c := rfl

theorem lift_apply (r : Except CollectionError α) :
    (liftM r : CollectionAction σ α) c = (r, c) := rfl

theorem onStore_apply {f : σ → Except StoreError α × σ} {r : Except StoreError α} {s : σ}
    (h : f c.store = (r, s)) : onStore f c = (r.mapError .store, { c with store := s }) := by
  rw [onStore, h]

theorem decode_eq_ok {id : String} {record : Bytes} {d : Document} :
    decode id record = .ok d ↔ Document.decode record = .ok d := by
  rw [decode]
  constructor
  · cases Document.decode record with
    | error e => intro h; cases h
    | ok w => intro h; cases h; rfl
  · intro h
    rw [h]
    rfl

end

variable {σ α β : Type} [RecordStore σ] [FallibleStore σ] {c d t u : Collection σ}

/-- The first collection is the second with these records, up to what its store has counted
and cached. -/
structure Resembles (t c : Collection σ) (records : Keyed String Bytes) : Prop where
  ready : FallibleStore.Ready t.store
  records : FallibleStore.records t.store = records
  rest : t = { c with store := t.store }

/-- Only what its store has counted and cached sets the one collection off from the other. -/
def Untouched (t c : Collection σ) : Prop := t.Resembles c (FallibleStore.records c.store)

theorem Untouched.refl (h : FallibleStore.Ready c.store) : c.Untouched c := ⟨h, rfl, rfl⟩

theorem Resembles.trans {m : Keyed String Bytes} (h : u.Untouched t) (ht : t.Resembles c m) :
    u.Resembles c m :=
  ⟨h.ready, h.records.trans ht.records, h.rest.trans (by rw [ht.rest])⟩

theorem Untouched.trans (h : u.Untouched t) (ht : t.Untouched c) : u.Untouched c :=
  Resembles.trans h ht

/-- What was done to a collection that had only been read was done to the one before. -/
theorem Resembles.congr {f : Collection σ → Collection σ} {m : Keyed String Bytes}
    (h : u.Resembles (f t) m) (ht : t.Untouched c)
    (hf : ∀ s, { f { c with store := s } with store := u.store } = { f c with store := u.store }) :
    u.Resembles (f c) m := by
  refine ⟨h.ready, h.records, h.rest.trans ?_⟩
  rw [ht.rest]
  exact hf t.store

/-- A failure leaves the collection untouched, and a success is as described. -/
def AllOrNothing (c : Collection σ) (outcome : Except CollectionError α × Collection σ)
    (done : α → Collection σ → Prop) : Prop :=
  match outcome with
  | (.ok a, t) => done a t
  | (.error _, t) => t.Untouched c

namespace AllOrNothing
variable {done : α → Collection σ → Prop} {after : β → Collection σ → Prop}
  {outcome : Except CollectionError α × Collection σ} {x : CollectionAction σ α}

theorem cases (h : AllOrNothing c outcome done) :
    (∃ e t, outcome = (.error e, t) ∧ t.Untouched c) ∨
      ∃ a t, outcome = (.ok a, t) ∧ done a t := by
  obtain ⟨r, t⟩ := outcome
  cases r with
  | error e => exact Or.inl ⟨e, t, rfl, h⟩
  | ok a => exact Or.inr ⟨a, t, rfl, h⟩

theorem mono {done' : α → Collection σ → Prop} (h : AllOrNothing c outcome done)
    (hdone : ∀ a t, done a t → done' a t) : AllOrNothing c outcome done' := by
  obtain ⟨r, t⟩ := outcome
  cases r with
  | error e => exact h
  | ok a => exact hdone a t h

/-- A collection that had only been read was left untouched before and after. -/
theorem after_read (h : AllOrNothing t outcome done) (ht : t.Untouched c) :
    AllOrNothing c outcome done := by
  obtain ⟨r, u⟩ := outcome
  cases r with
  | error e => exact Untouched.trans h ht
  | ok a => exact h

theorem bind {f : α → CollectionAction σ β} (h : AllOrNothing c (x d) done)
    (hf : ∀ a t, done a t → AllOrNothing c (f a t) after) : AllOrNothing c ((x >>= f) d) after := by
  rcases h.cases with ⟨e, t, hx, ht⟩ | ⟨a, t, hx, ht⟩
  · rw [bind_of_error hx]; exact ht
  · rw [bind_of_ok hx]; exact hf a t ht

/-- A step that touches no collection. -/
theorem lift_bind {r : Except CollectionError α} {f : α → CollectionAction σ β}
    (h : FallibleStore.Ready c.store) (hf : ∀ a, r = .ok a → AllOrNothing c (f a c) after) :
    AllOrNothing c (((liftM r : CollectionAction σ α) >>= f) c) after := by
  cases hr : r with
  | error e => rw [bind_of_error (lift_apply _)]; exact Untouched.refl h
  | ok a => rw [bind_of_ok (lift_apply _)]; exact hf a hr

end AllOrNothing

/-! ## Calls of the store -/

theorem allOrNothing_readRecord (h : FallibleStore.Ready c.store) (id : String) :
    AllOrNothing c (readRecord id c) fun found t =>
      found = (FallibleStore.records c.store).get? id ∧ t.Untouched c := by
  obtain ⟨r, s, hget, hs, hrecords, hr⟩ := FallibleStore.get h id
  have hsame : Untouched { c with store := s } c := ⟨hs, hrecords, rfl⟩
  rw [readRecord, onStore_apply hget]
  rcases hr with rfl | ⟨e, rfl⟩
  · exact ⟨rfl, hsame⟩
  · exact hsame

theorem walk_all (ids : List String) : ScanRange.all.walk ids = ids := by
  have hdrop : ids.dropWhile (fun id => !ScanRange.all.lowerBound.admitsAbove id) = ids := by
    cases ids <;> rfl
  rw [ScanRange.walk, hdrop]
  induction ids with
  | nil => rfl
  | cons id rest ih => exact congrArg (id :: ·) (ih (by cases rest <;> rfl))

theorem allOrNothing_scanAll (h : FallibleStore.Ready c.store) :
    AllOrNothing c (scanAll c) fun ids t =>
      ids = (FallibleStore.records c.store).keys ∧ t.Untouched c := by
  obtain ⟨r, s, hscan, hs, hrecords, hr⟩ := FallibleStore.scan h .all
  have hsame : Untouched { c with store := s } c := ⟨hs, hrecords, rfl⟩
  rw [scanAll, onStore_apply hscan]
  rw [walk_all] at hr
  rcases hr with rfl | ⟨e, rfl⟩
  · exact ⟨rfl, hsame⟩
  · exact hsame

theorem allOrNothing_writeRecord (h : FallibleStore.Ready c.store) (id : String) (record : Bytes) :
    AllOrNothing c (writeRecord id record c) fun _ t =>
      t.Resembles c ((FallibleStore.records c.store).insert id record) := by
  obtain ⟨r, s, hput, hs, hr⟩ := FallibleStore.put h id record
  rw [writeRecord, onStore_apply hput]
  rcases hr with ⟨rfl, hrecords⟩ | ⟨⟨e, rfl⟩, hrecords⟩
  · exact ⟨hs, hrecords, rfl⟩
  · exact ⟨hs, hrecords, rfl⟩

theorem allOrNothing_deleteRecord (h : FallibleStore.Ready c.store) (id : String) :
    AllOrNothing c (onStore (RecordStore.delete id) c) fun found t =>
      found = (FallibleStore.records c.store).contains id ∧
        t.Resembles c ((FallibleStore.records c.store).erase id) := by
  obtain ⟨r, s, hdelete, hs, hr⟩ := FallibleStore.delete h id
  rw [onStore_apply hdelete]
  rcases hr with ⟨rfl, hrecords⟩ | ⟨⟨e, rfl⟩, hrecords⟩
  · exact ⟨rfl, hs, hrecords, rfl⟩
  · exact ⟨hs, hrecords, rfl⟩

/-! ## Writes -/

section
variable {σ : Type}

def countInsert (c : Collection σ) : Collection σ :=
  c.count fun n => { n with inserts := n.inserts + 1 }

def countUpdate (c : Collection σ) : Collection σ :=
  c.count fun n => { n with updates := n.updates + 1 }

def countRemove (c : Collection σ) : Collection σ :=
  c.count fun n => { n with removes := n.removes + 1 }

theorem prepareUpdate_congr {c t : Collection σ} (hschema : t.schema = c.schema)
    (hlimit : t.maxDocumentSize = c.maxDocumentSize) (now : Int64) (id : String) (upd : Update)
    (d : Document) : t.prepareUpdate now id upd d = c.prepareUpdate now id upd d := by
  simp only [prepareUpdate, fitSchema, hschema, hlimit]

end

theorem Untouched.prepareUpdate (h : t.Untouched c) (now : Int64) (id : String) (upd : Update)
    (d : Document) : t.prepareUpdate now id upd d = c.prepareUpdate now id upd d :=
  prepareUpdate_congr (by rw [h.rest]) (by rw [h.rest]) now id upd d

/-- A document is put in place. -/
theorem allOrNothing_commit (h : FallibleStore.Ready c.store) (id : String) (w : Document)
    (record : Bytes) (f : CollectionCounts → CollectionCounts) :
    let commit : CollectionAction σ Document := do
      writeRecord id record
      modify fun c => (c.reindex id w).count f
      return w
    AllOrNothing c (commit c) fun d t => d = w ∧
      t.Resembles ((c.reindex id w).count f)
        ((FallibleStore.records c.store).insert id record) := by
  refine (allOrNothing_writeRecord h id record).bind fun _ t ht => ?_
  refine ⟨rfl, ht.ready, ht.records, ?_⟩
  rw [ht.rest]
  rfl

theorem allOrNothing_insert (h : FallibleStore.Ready c.store) (stamp : Stamp) (d : Document) :
    AllOrNothing c (insert stamp d c) fun w t => ∃ id record,
      c.prepareInsert stamp d = .ok (id, w, record) ∧
      (FallibleStore.records c.store).get? id = none ∧
      t.Resembles (c.reindex id w).countInsert
        ((FallibleStore.records c.store).insert id record) := by
  rw [insert, get_bind]
  refine AllOrNothing.lift_bind h fun prepared hprepare => ?_
  obtain ⟨id, w, record⟩ := prepared
  refine (allOrNothing_readRecord h id).bind ?_
  rintro _ t ⟨rfl, ht⟩
  cases hold : (FallibleStore.records c.store).get? id with
  | some old => exact ht
  | none =>
    rw [Option.isSome_none, if_neg (by simp)]
    refine ((allOrNothing_commit ht.ready id w record _).after_read ht).mono ?_
    rintro d u ⟨rfl, hu⟩
    rw [ht.records] at hu
    exact ⟨id, record, hprepare, hold, Resembles.congr
      (f := fun c => (c.reindex id d).countInsert) hu ht fun _ => rfl⟩

theorem allOrNothing_update (h : FallibleStore.Ready c.store) (now : Int64) (id : String)
    (upd : Update) :
    AllOrNothing c (update now id upd c) fun w t => ∃ old current record,
      upd.check = .ok () ∧ (FallibleStore.records c.store).get? id = some old ∧
      decode id old = .ok current ∧ c.prepareUpdate now id upd current = .ok (w, record) ∧
      t.Resembles (c.reindex id w).countUpdate
        ((FallibleStore.records c.store).insert id record) := by
  rw [update]
  refine AllOrNothing.lift_bind h fun _ hcheck => ?_
  refine (allOrNothing_readRecord h id).bind ?_
  rintro _ t ⟨rfl, ht⟩
  cases hold : (FallibleStore.records c.store).get? id with
  | none => exact ht
  | some old =>
    refine AllOrNothing.after_read ?_ ht
    refine AllOrNothing.lift_bind ht.ready fun current hdecode => ?_
    -- the collection is looked at again after the read, which has changed nothing that counts
    rw [get_bind, ht.prepareUpdate]
    refine AllOrNothing.lift_bind ht.ready fun prepared hprepare => ?_
    obtain ⟨w, record⟩ := prepared
    refine (allOrNothing_commit ht.ready id w record _).mono ?_
    rintro d u ⟨rfl, hu⟩
    rw [ht.records] at hu
    refine ⟨old, current, record, ?_, rfl, hdecode, hprepare, Resembles.congr
      (f := fun c => (c.reindex id d).countUpdate) hu ht fun _ => rfl⟩
    cases hok : upd.check with
    | error e => rw [hok] at hcheck; cases hcheck
    | ok _ => rfl

theorem allOrNothing_remove (h : FallibleStore.Ready c.store) (id : String) :
    AllOrNothing c (remove id c) fun found t =>
      found = (FallibleStore.records c.store).contains id ∧
      t.Resembles (if found then (c.unindex id).countRemove else c)
        ((FallibleStore.records c.store).erase id) := by
  rw [remove]
  refine (allOrNothing_deleteRecord h id).bind ?_
  rintro found t ⟨hfound, ht⟩
  cases found with
  | false => exact ⟨hfound, ht⟩
  | true =>
    refine ⟨hfound, ht.ready, ht.records, ?_⟩
    rw [ht.rest]
    rfl

/-! ## Indexes and the schema -/

/-- All documents at these identifiers, of which none can be unreadable. -/
theorem allOrNothing_readAll (h : FallibleStore.Ready c.store) (ids : List String) :
    AllOrNothing c (readAll ids c) fun docs t =>
      docs = (ids.filterMap fun id =>
        (documentAt (FallibleStore.records c.store) id).map (id, ·)) ∧
      Readable (FallibleStore.records c.store) ids ∧ t.Untouched c := by
  induction ids generalizing c with
  | nil => exact ⟨rfl, by simp [Readable], Untouched.refl h⟩
  | cons id rest ih =>
    rw [readAll]
    refine (allOrNothing_readRecord h id).bind ?_
    rintro _ t ⟨rfl, ht⟩
    have hrest := ih ht.ready
    rw [ht.records] at hrest
    refine AllOrNothing.after_read ?_ ht
    cases hrecord : (FallibleStore.records c.store).get? id with
    | none =>
      have hnone : documentAt (FallibleStore.records c.store) id = none := by
        rw [documentAt, hrecord]; rfl
      refine hrest.mono ?_
      rintro _ u ⟨rfl, hread, hu⟩
      refine ⟨?_, ?_, hu.trans ht⟩
      · rw [List.filterMap_cons, hnone, Option.map_none]
      · refine List.forall_mem_cons.mpr ⟨fun record hr => ?_, hread⟩
        rw [hrecord] at hr; cases hr
    | some record =>
      refine AllOrNothing.lift_bind ht.ready fun d hdecode => ?_
      have hd := decode_eq_ok.mp hdecode
      have hsome : documentAt (FallibleStore.records c.store) id = some d := by
        rw [documentAt, hrecord, Option.bind_some, hd]; rfl
      refine hrest.bind ?_
      rintro _ u ⟨rfl, hread, hu⟩
      refine ⟨?_, ?_, hu.trans ht⟩
      · rw [List.filterMap_cons, hsome]
        rfl
      · refine List.forall_mem_cons.mpr ⟨fun r hr => ?_, hread⟩
        rw [hrecord] at hr; cases hr; exact ⟨d, hd⟩

/-- An operation that begins with all documents that are stored. -/
theorem AllOrNothing.all_bind {f : List (String × Document) → CollectionAction σ β}
    {after : β → Collection σ → Prop} (h : FallibleStore.Ready c.store)
    (hf : ∀ t, Readable (FallibleStore.records c.store) (FallibleStore.records c.store).keys →
      t.Untouched c → AllOrNothing c (f ((FallibleStore.records c.store).keys.filterMap fun id =>
        (documentAt (FallibleStore.records c.store) id).map (id, ·)) t) after) :
    AllOrNothing c ((scanAll >>= fun ids => readAll ids >>= f) c) after := by
  refine (allOrNothing_scanAll h).bind ?_
  rintro _ t ⟨rfl, ht⟩
  have hall := allOrNothing_readAll ht.ready (FallibleStore.records c.store).keys
  rw [ht.records] at hall
  refine (hall.after_read ht).bind ?_
  rintro _ u ⟨rfl, hread, hu⟩
  exact hf u hread (hu.trans ht)

/-- An index over all documents that are stored. -/
def indexOver (m : Keyed String Bytes) (field : String) (kind : IndexKind) : Index :=
  (m.keys.filterMap fun id => (documentAt m id).map (id, ·)).foldl
    (fun ix e => ix.add e.1 e.2) { field, kind : Index }

def putIndex (field : String) (ix : Index) (c : Collection σ) : Collection σ :=
  { c with indexes := c.indexes.insert field ix }

/-- There is an index of this kind already, or a new one holds all documents. -/
theorem allOrNothing_createIndex (h : FallibleStore.Ready c.store) (field : String)
    (kind : IndexKind) :
    AllOrNothing c (createIndex field kind c) fun _ t =>
      (c.indexes.get? field).map (·.kind) = some kind ∧ t.Untouched c ∨
      (Path.segments field).any (·.isEmpty) = false ∧
        Readable (FallibleStore.records c.store) (FallibleStore.records c.store).keys ∧
        t.Resembles (c.putIndex field (indexOver (FallibleStore.records c.store) field kind))
          (FallibleStore.records c.store) := by
  rw [createIndex]
  split
  next => exact Untouched.refl h
  next hsegments =>
    simp only [get_bind]
    split
    next hkind => exact Or.inl ⟨hkind, Untouched.refl h⟩
    next =>
      refine AllOrNothing.all_bind h fun t hread ht => ?_
      refine Or.inr ⟨(Bool.not_eq_true _).mp hsegments, hread, ht.ready, ht.records, ?_⟩
      rw [ht.rest]
      rfl

theorem allOrNothing_attachSchema (h : FallibleStore.Ready c.store) (s : Option Schema) :
    AllOrNothing c (attachSchema s c) fun _ t =>
      sameSchema c.schema s ∧ t.Untouched c ∨ c.isEmpty = .ok true ∧ t = { c with schema := s } := by
  rw [attachSchema, get_bind]
  split
  next hsame => exact Or.inl ⟨hsame, Untouched.refl h⟩
  next =>
    refine AllOrNothing.lift_bind h fun empty hempty => ?_
    cases empty with
    | false => exact Untouched.refl h
    | true => exact Or.inr ⟨hempty, rfl⟩

end DocBase.Collection
