import DocBase.Proofs.Collection.Outcome

/-! The calls that change a collection, and what those leave behind that fail: single calls
nothing at all, insertions of many documents those before the one that failed. -/
namespace DocBase
open Keyed

/-- A call that puts a document under its identifier. -/
inductive Write
  | insert (stamp : Stamp) (d : Document)
  | update (now : Int64) (id : String) (u : Update)

def Write.run {σ : Type} [RecordStore σ] : Write → CollectionAction σ Document
  | insert stamp d => Collection.insert stamp d
  | update now id u => Collection.update now id u

inductive Call
  | write (w : Write)
  | insertMany (stamps : Nat → Stamp) (docs : List Document)
  | remove (id : String)
  | createIndex (field : String) (kind : IndexKind)
  | dropIndex (field : String)
  | attachSchema (s : Option Schema)

/-- The call without its answer. -/
def Call.run {σ : Type} [RecordStore σ] : Call → CollectionAction σ Unit
  | write w => do let _ ← w.run
  | insertMany stamps docs => do let _ ← Collection.insertMany stamps 0 docs
  | remove id => do let _ ← Collection.remove id
  | createIndex field kind => Collection.createIndex field kind
  | dropIndex field => modify fun c => (c.dropIndex field).2
  | attachSchema s => Collection.attachSchema s

theorem snd_discard {σ α : Type} (x : CollectionAction σ α) (c : Collection σ) :
    ((do let _ ← x : CollectionAction σ Unit) c).2 = (x c).2 := by
  cases hx : x c with
  | mk r t =>
    cases r with
    | error e => rw [bind_of_error hx]
    | ok a => rw [bind_of_ok hx]; rfl

namespace Collection

/-! ## Many insertions -/

section
variable {σ : Type} {c t : Collection σ}

/-- A document with the identifier that it goes under and its record. -/
abbrev Prepared := String × Document × Bytes

/-- The records that are put in place one after another. -/
def putAll (prepared : List Prepared) (m : Keyed String Bytes) : Keyed String Bytes :=
  prepared.foldl (fun m p => m.insert p.1 p.2.2) m

/-- The documents are indexed and counted one after another. -/
def placeAll (prepared : List Prepared) (c : Collection σ) : Collection σ :=
  prepared.foldl (fun c p => (c.reindex p.1 p.2.1).countInsert) c

theorem placeAll_withStore (prepared : List Prepared) (c : Collection σ) (s : σ) :
    placeAll prepared { c with store := s } = { placeAll prepared c with store := s } := by
  induction prepared generalizing c with
  | nil => rfl
  | cons p rest ih => exact ih (c.reindex p.1 p.2.1).countInsert

theorem prepareInsert_congr (hschema : t.schema = c.schema)
    (hlimit : t.maxDocumentSize = c.maxDocumentSize) (stamp : Stamp) (d : Document) :
    t.prepareInsert stamp d = c.prepareInsert stamp d := by
  simp only [prepareInsert, fitSchema, hschema, hlimit]

/-- What is written is the document with its defaults, under its identifier and stamped. -/
theorem prepareInsert_eq_ok {stamp : Stamp} {d w : Document} {id : String} {record : Bytes}
    (h : c.prepareInsert stamp d = .ok (id, w, record)) :
    ∃ fitted, c.fitSchema { d.stripReserved with id := none } = .ok fitted ∧
      w = { fitted with
        id := some id, createdAt := some stamp.now, updatedAt := some stamp.now } ∧
      encode c.maxDocumentSize w = .ok record := by
  rw [prepareInsert] at h
  obtain ⟨_, -, h⟩ := bind_eq_ok h
  obtain ⟨fitted, hfit, h⟩ := bind_eq_ok h
  obtain ⟨r, hr, h⟩ := bind_eq_ok h
  cases h
  exact ⟨fitted, hfit, rfl, hr⟩

/-- The identifier and the time of creation stay, and the time of the last change never goes
back. -/
theorem prepareUpdate_eq_ok {now : Int64} {id : String} {upd : Update} {d w : Document}
    {record : Bytes} (h : c.prepareUpdate now id upd d = .ok (w, record)) :
    ∃ applied fitted, upd.apply d = .ok applied ∧ c.fitSchema applied = .ok fitted ∧
      w = { fitted with
        id := some id
        createdAt := d.createdAt
        updatedAt := some (if now < d.updatedAt.getD 0 then d.updatedAt.getD 0 else now) } ∧
      encode c.maxDocumentSize w = .ok record := by
  rw [prepareUpdate] at h
  obtain ⟨applied, happly, h⟩ := bind_eq_ok h
  obtain ⟨fitted, hfit, h⟩ := bind_eq_ok h
  obtain ⟨r, hr, h⟩ := bind_eq_ok h
  cases h
  cases hok : upd.apply d with
  | error e => rw [hok] at happly; cases happly
  | ok a =>
    rw [hok] at happly
    cases happly
    exact ⟨applied, fitted, rfl, hfit, rfl, hr⟩

end

variable {σ : Type} [RecordStore σ] [FallibleStore σ] {c d t : Collection σ}

/-- The first collection is the second with all of these documents inserted and indexed, under
new identifiers. -/
structure Inserted (t c : Collection σ) (stamps : Nat → Stamp) (i : Nat) (docs : List Document)
    (prepared : List Prepared) : Prop where
  accepted : List.Forall₂ (fun e p => c.prepareInsert (stamps e.2) e.1 = .ok p)
    (docs.zipIdx i) prepared
  fresh : ∀ p ∈ prepared, (FallibleStore.records c.store).get? p.1 = none
  distinct : prepared.Pairwise fun p q => p.1 ≠ q.1
  left : t.Resembles (placeAll prepared c) (putAll prepared (FallibleStore.records c.store))

theorem Inserted.nil (h : t.Untouched c) (stamps : Nat → Stamp) (i : Nat) :
    Inserted t c stamps i [] [] :=
  ⟨List.Forall₂.nil, fun _ hp => absurd hp List.not_mem_nil, List.Pairwise.nil, h⟩

theorem Inserted.cons {u : Collection σ} {stamps : Nat → Stamp} {i : Nat} {doc w : Document}
    {docs : List Document} {id : String} {record : Bytes} {prepared : List Prepared}
    (hprepare : c.prepareInsert (stamps i) doc = .ok (id, w, record))
    (hnew : (FallibleStore.records c.store).get? id = none)
    (ht : t.Resembles (c.reindex id w).countInsert
      ((FallibleStore.records c.store).insert id record))
    (hu : Inserted u t stamps (i + 1) docs prepared) :
    Inserted u c stamps i (doc :: docs) ((id, w, record) :: prepared) := by
  -- the store has the first record by then, and the others are new to it
  have hother : ∀ p ∈ prepared, p.1 ≠ id ∧
      (FallibleStore.records c.store).get? p.1 = none := by
    intro p hp
    have hfresh := hu.fresh p hp
    rw [ht.records] at hfresh
    by_cases hid : p.1 = id
    · rw [hid, get?_insert_same] at hfresh
      cases hfresh
    · rw [get?_insert_ne hid] at hfresh
      exact ⟨hid, hfresh⟩
  refine ⟨?_, ?_, ?_, hu.left.ready, ?_, ?_⟩
  · rw [List.zipIdx_cons]
    refine List.Forall₂.cons hprepare (hu.accepted.imp fun e p he => ?_)
    rwa [prepareInsert_congr (by rw [ht.rest]) (by rw [ht.rest])] at he
  · exact List.forall_mem_cons.mpr ⟨hnew, fun p hp => (hother p hp).2⟩
  · exact List.pairwise_cons.mpr ⟨fun p hp => (hother p hp).1.symm, hu.distinct⟩
  · rw [hu.left.records, ht.records]; rfl
  · rw [hu.left.rest, ht.rest, placeAll_withStore]; rfl

/-- All documents are inserted, or those before one of them whose insertion fails. -/
theorem insertMany_cases (h : FallibleStore.Ready c.store) (stamps : Nat → Stamp) (i : Nat)
    (docs : List Document) :
    (∃ prepared t, insertMany stamps i docs c = (.ok (prepared.map (·.2.1)), t) ∧
      Inserted t c stamps i docs prepared) ∨
    ∃ e t before doc after prepared m, docs = before ++ doc :: after ∧
      insertMany stamps i docs c = (.error e, t) ∧
      insertMany stamps i before c = (.ok (prepared.map (·.2.1)), m) ∧
      insert (stamps (i + before.length)) doc m = (.error e, t) ∧
      Inserted t c stamps i before prepared := by
  -- each insertion leaves another collection, and so the rest is inserted into that one
  induction docs generalizing c i with
  | nil => exact Or.inl ⟨[], c, rfl, Inserted.nil (Untouched.refl h) stamps i⟩
  | cons doc rest ih =>
    rcases (allOrNothing_insert h (stamps i) doc).cases with
      ⟨e, t, hinsert, ht⟩ | ⟨w, t, hinsert, id, record, hprepare, hnew, ht⟩
    · refine Or.inr ⟨e, t, [], doc, rest, [], c, rfl, ?_, rfl, hinsert, Inserted.nil ht stamps i⟩
      rw [insertMany, bind_of_error hinsert]
    · rcases ih ht.ready (i + 1) with
        ⟨prepared, u, hrest, hu⟩ | ⟨e, u, before, doc', after, prepared, m, rfl, hrest, hbefore,
          hfailed, hu⟩
      · refine Or.inl ⟨(id, w, record) :: prepared, u, ?_, hu.cons hprepare hnew ht⟩
        rw [insertMany, bind_of_ok hinsert, bind_of_ok hrest]
        rfl
      · refine Or.inr ⟨e, u, doc :: before, doc', after, (id, w, record) :: prepared, m, rfl, ?_, ?_,
          ?_, hu.cons hprepare hnew ht⟩
        · rw [insertMany, bind_of_ok hinsert, bind_of_error hrest]
        · rw [insertMany, bind_of_ok hinsert, bind_of_ok hbefore]
          rfl
        · rw [List.length_cons, Nat.add_comm before.length, ← Nat.add_assoc]; exact hfailed

/-! ## Calls that fail -/

theorem AllOrNothing.discard {α : Type} {x : CollectionAction σ α} {done : α → Collection σ → Prop}
    (h : AllOrNothing c (x c) done) :
    AllOrNothing c ((do let _ ← x : CollectionAction σ Unit) c) fun _ t => ∃ a, done a t :=
  h.bind fun a _ ht => ⟨a, ht⟩

/-- The document that is answered is the one that was put in place. -/
theorem allOrNothing_write (h : FallibleStore.Ready c.store) (w : Write) :
    AllOrNothing c (w.run c) fun d t => ∃ id record f, d.id = some id ∧
      encode c.maxDocumentSize d = .ok record ∧
      t.Resembles ((c.reindex id d).count f)
        ((FallibleStore.records c.store).insert id record) := by
  cases w with
  | insert stamp d =>
    refine (allOrNothing_insert h stamp d).mono ?_
    rintro w t ⟨id, record, hprepare, -, ht⟩
    obtain ⟨fitted, -, rfl, hencode⟩ := prepareInsert_eq_ok hprepare
    exact ⟨id, record, _, rfl, hencode, ht⟩
  | update now id upd =>
    refine (allOrNothing_update h now id upd).mono ?_
    rintro w t ⟨old, current, record, -, -, -, hprepare, ht⟩
    obtain ⟨applied, fitted, -, -, rfl, hencode⟩ := prepareUpdate_eq_ok hprepare
    exact ⟨id, record, _, rfl, hencode, ht⟩

/-- Records, indexes, schema and counts are after a call that failed what they were before.
Of many insertions those before the one that failed have been made, and nothing else. -/
theorem left_by_failed_call (h : FallibleStore.Ready c.store) {call : Call} {e : CollectionError}
    (hrun : call.run c = (.error e, t)) :
    match call with
    | .insertMany stamps docs => ∃ before doc after prepared m, docs = before ++ doc :: after ∧
        insertMany stamps 0 before c = (.ok (prepared.map (·.2.1)), m) ∧
        insert (stamps before.length) doc m = (.error e, t) ∧
        Inserted t c stamps 0 before prepared
    | _ => t.Untouched c := by
  have huntouched {done : Unit → Collection σ → Prop} (hcall : AllOrNothing c (call.run c) done) :
      t.Untouched c := by rw [hrun] at hcall; exact hcall
  cases call with
  | write w => exact huntouched (allOrNothing_write h w).discard
  | insertMany stamps docs =>
    rcases insertMany_cases h stamps 0 docs with
      ⟨prepared, u, hall, -⟩ | ⟨e', u, before, doc, after, prepared, m, hdocs, hall, hbefore,
        hfailed, hinserted⟩
    · rw [Call.run, bind_of_ok hall] at hrun
      cases hrun
    · rw [Call.run, bind_of_error hall] at hrun
      cases hrun
      rw [Nat.zero_add] at hfailed
      exact ⟨before, doc, after, prepared, m, hdocs, hbefore, hfailed, hinserted⟩
  | remove id => exact huntouched (allOrNothing_remove h id).discard
  | createIndex field kind => exact huntouched (allOrNothing_createIndex h field kind)
  | dropIndex field => cases hrun
  | attachSchema s => exact huntouched (allOrNothing_attachSchema h s)

/-- Of two documents the second cannot be put into the store. -/
theorem left_by_insertMany_of_full_disk :
    let start : Collection (Faulty MemoryStore) := {
      name := "a"
      store := { store := {}, fault := fun n => if n = 3 then some .closed else none }
      indexes := [("x", { field := "x", kind := .hash })] }
    let stamps : Nat → Stamp := fun n => { now := 0, freshId := if n = 0 then "p" else "q" }
    ∃ e t before doc after prepared m,
      (Call.insertMany stamps [{}, {}]).run start = (.error e, t) ∧
      [{}, {}] = before ++ doc :: after ∧
      insertMany stamps 0 before start = (.ok (prepared.map (·.2.1)), m) ∧
      insert (stamps before.length) doc m = (.error e, t) ∧
      Inserted t start stamps 0 before prepared ∧ t.counts.inserts = 1 := by
  intro start stamps
  have hready : FallibleStore.Ready start.store := Or.inl ⟨rfl, ascending_nil⟩
  have hfailed : ((Call.insertMany stamps [{}, {}]).run start).1.toBool = false := by
    decide +kernel
  have hcount : ((Call.insertMany stamps [{}, {}]).run start).2.counts.inserts = 1 := by
    decide +kernel
  cases hrun : (Call.insertMany stamps [{}, {}]).run start with
  | mk r t =>
    rw [hrun] at hfailed hcount
    cases r with
    | ok _ => cases hfailed
    | error e =>
      obtain ⟨before, doc, after, prepared, m, hdocs, hbefore, hinsert, hinserted⟩ :=
        left_by_failed_call hready hrun
      exact ⟨e, t, before, doc, after, prepared, m, rfl, hdocs, hbefore, hinsert, hinserted, hcount⟩

end Collection
end DocBase
