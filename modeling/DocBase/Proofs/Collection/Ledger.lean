import DocBase.Proofs.Collection.Run
import DocBase.Proofs.Schema.Fill

/-! Histories of a collection, with the documents that were written last. What a write puts
in the store is the record of its document; whether this record can be read back is then a
matter of its depth and of the names that the schema fills in. -/
namespace DocBase
open Keyed

/-! ## Changes -/

/-- What callers do to a collection between queries. -/
inductive Change
  | write (w : Write)
  | remove (id : String)
  | createIndex (field : String) (kind : IndexKind)
  | dropIndex (field : String)

/-- A collection, and the documents last written under their identifiers. -/
structure Ledger (σ : Type) where
  collection : Collection σ
  written : String → Option Document := fun _ => none

namespace Ledger
variable {σ : Type} [RecordStore σ]

/-- Also a change that fails leaves a collection. -/
def apply (l : Ledger σ) : Change → Ledger σ
  | .write w =>
    match w.run l.collection with
    | (.ok d, c) =>
      { collection := c, written := fun id => if d.id = some id then some d else l.written id }
    | (.error _, c) => { l with collection := c }
  | .remove id =>
    { collection := (Collection.remove id l.collection).2
      written := fun i => if i = id then none else l.written i }
  | .createIndex field kind =>
    { l with collection := (Collection.createIndex field kind l.collection).2 }
  | .dropIndex field => { l with collection := (l.collection.dropIndex field).2 }

def applyAll (changes : List Change) (l : Ledger σ) : Ledger σ := changes.foldl apply l

theorem apply_write {l : Ledger σ} {w : Write} {d : Document} {c : Collection σ}
    (h : w.run l.collection = (.ok d, c)) :
    l.apply (.write w) =
      { collection := c, written := fun i => if d.id = some i then some d else l.written i } := by
  rw [apply, h]

/-- Up to the first insertion that fails. -/
def insertAll (stamps : Nat → Stamp) : Nat → List Document → Ledger σ → Ledger σ
  | _, [], l => l
  | i, d :: rest, l =>
    let after := l.apply (.write (.insert (stamps i) d))
    match (Collection.insert (stamps i) d l.collection).1 with
    | .ok _ => insertAll stamps (i + 1) rest after
    | .error _ => after

/-- Over a store that may fail, also a removal leaves what was written when it fails. -/
def call (l : Ledger σ) : Call → Ledger σ
  | .write w => l.apply (.write w)
  | .insertMany stamps docs => l.insertAll stamps 0 docs
  | .remove id =>
    match Collection.remove id l.collection with
    | (.ok _, c) =>
      { collection := c, written := fun i => if i = id then none else l.written i }
    | (.error _, c) => { l with collection := c }
  | .createIndex field kind => l.apply (.createIndex field kind)
  | .dropIndex field => l.apply (.dropIndex field)
  | .attachSchema s => { l with collection := (Collection.attachSchema s l.collection).2 }

def callAll (calls : List Call) (l : Ledger σ) : Ledger σ := calls.foldl call l

/-! What was written is noted beside the collection and nothing is done with it. -/

theorem collection_apply_write (l : Ledger σ) (w : Write) :
    (l.apply (.write w)).collection = (w.run l.collection).2 := by
  rw [apply]
  cases w.run l.collection with
  | mk r c => cases r <;> rfl

theorem collection_insertAll (stamps : Nat → Stamp) (i : Nat) (docs : List Document)
    (l : Ledger σ) : (l.insertAll stamps i docs).collection =
      (Collection.insertMany stamps i docs l.collection).2 := by
  induction docs generalizing i l with
  | nil => rfl
  | cons d rest ih =>
    have hafter := l.collection_apply_write (.insert (stamps i) d)
    rw [insertAll, Collection.insertMany]
    cases hinsert : Collection.insert (stamps i) d l.collection with
    | mk r c =>
      rw [Write.run, hinsert] at hafter
      cases r with
      | error e => rw [bind_of_error hinsert]; exact hafter
      | ok w =>
        rw [bind_of_ok hinsert]
        dsimp only
        rw [ih, hafter]
        cases hrest : Collection.insertMany stamps (i + 1) rest c with
        | mk r u =>
          cases r with
          | error e => rw [bind_of_error hrest]
          | ok ws => rw [bind_of_ok hrest]; rfl

theorem collection_call (l : Ledger σ) (call : Call) :
    (l.call call).collection = (call.run l.collection).2 := by
  cases call with
  | write w => exact (l.collection_apply_write w).trans (snd_discard _ _).symm
  | insertMany stamps docs => exact (l.collection_insertAll stamps 0 docs).trans (snd_discard _ _).symm
  | remove id =>
    rw [Call.run, snd_discard, Ledger.call]
    cases Collection.remove id l.collection with
    | mk r c => cases r <;> rfl
  | createIndex field kind => rfl
  | dropIndex field => rfl
  | attachSchema s => rfl

theorem collection_callAll (calls : List Call) (l : Ledger σ) :
    (l.callAll calls).collection = calls.foldl (fun c call => (call.run c).2) l.collection := by
  induction calls generalizing l with
  | nil => rfl
  | cons call rest ih =>
    rw [List.foldl_cons, ← l.collection_call]
    exact ih (l.call call)

/-- What single insertions keep is kept by many. -/
theorem insertAll_induction {P : Ledger σ → Prop} {docs : List Document} {l : Ledger σ}
    (stamps : Nat → Stamp) (i : Nat) (hl : P l)
    (hstep : ∀ l stamp, ∀ d ∈ docs, P l → P (l.apply (.write (.insert stamp d)))) :
    P (l.insertAll stamps i docs) := by
  induction docs generalizing i l with
  | nil => exact hl
  | cons d rest ih =>
    have hafter := hstep l (stamps i) d List.mem_cons_self hl
    rw [insertAll]
    cases (Collection.insert (stamps i) d l.collection).1 with
    | error e => exact hafter
    | ok w =>
      exact ih (i + 1) hafter fun l stamp d hd => hstep l stamp d (List.mem_cons_of_mem _ hd)

end Ledger

/-- Over an open store changes are calls. -/
def Change.toCall : Change → Call
  | write w => .write w
  | remove id => .remove id
  | createIndex field kind => .createIndex field kind
  | dropIndex field => .dropIndex field

theorem Ledger.call_toCall {σ : Type} [RecordStore σ] [LawfulStore σ] {l : Ledger σ}
    (h : LawfulStore.Ready l.collection.store) (change : Change) :
    l.call change.toCall = l.apply change := by
  cases change with
  | remove id =>
    obtain ⟨t, hremove, -⟩ := Collection.remove_spec h id
    rw [Change.toCall, call, apply, hremove]
  | _ => rfl

/-- The values that a write brings along are well-formed, as all are that come from JSON. -/
def Write.WellFormed : Write → Prop
  | insert _ d => (Value.object d.fields).WellFormed
  | update _ _ u => u.WellFormed

def Change.WellFormed : Change → Prop
  | write w => w.WellFormed
  | _ => True

/-- Calls with such values that leave the schema alone. -/
def Call.WellFormed : Call → Prop
  | write w => w.WellFormed
  | insertMany _ docs => ∀ d ∈ docs, (Value.object d.fields).WellFormed
  | attachSchema _ => False
  | _ => True

theorem Change.wellFormed_toCall {change : Change} (h : change.WellFormed) :
    change.toCall.WellFormed := by
  cases change with
  | write w => exact h
  | _ => trivial

/-! ## Single writes -/

theorem Document.wellFormed_congr {d w : Document} (h : w.fields = d.fields) :
    w.WellFormed ↔ d.WellFormed := by
  constructor
  · exact fun hw => ⟨h ▸ hw.ascending, h ▸ hw.values, h ▸ hw.unreserved⟩
  · exact fun hd => ⟨h ▸ hd.ascending, h ▸ hd.values, h ▸ hd.unreserved⟩

namespace Document
variable {schema : Option Schema} {id : String} {w : Document}

/-- What a write under a schema puts in place. No field has a name of the engine unless the
schema has a default for one. -/
structure MadeUnder (schema : Option Schema) (w : Document) : Prop where
  fields : (Value.object w.fields).WellFormed
  finite : w.nonFinitePath = none
  unreserved : w.WellFormed ↔ ∀ s, schema = some s → ¬ s.FillsReserved

/-- What a write makes of a document that has no names of the engine. -/
structure FilledUnder (schema : Option Schema) (id : String) (w : Document) : Prop where
  id : w.id = some id
  finite : w.nonFinitePath = none
  valid : ∀ s, schema = some s → s.validate w = .ok ()
  filled : ∃ d : Document, d.WellFormed ∧ w.fields = (d.withDefaults schema).fields

theorem FilledUnder.ordered (h : w.FilledUnder schema id)
    (hschema : ∀ s, schema = some s → s.WellFormed) : (Value.object w.fields).WellFormed := by
  obtain ⟨d, hd, hfields⟩ := h.filled
  rw [hfields]
  exact wellFormed_fields_withDefaults hschema hd

theorem FilledUnder.madeUnder (h : w.FilledUnder schema id)
    (hschema : ∀ s, schema = some s → s.WellFormed) : w.MadeUnder schema := by
  refine ⟨h.ordered hschema, h.finite, ?_⟩
  obtain ⟨d, hd, hfields⟩ := h.filled
  rw [wellFormed_congr hfields]
  cases schema with
  | none => exact iff_of_true hd nofun
  | some s =>
    rw [withDefaults, Schema.wellFormed_applyDefaults_iff (hschema s rfl) hd]
    exact ⟨fun hfree _ hs => Option.some.inj hs ▸ hfree, fun hfree => hfree s rfl⟩

end Document

namespace Collection

section
variable {σ : Type} {c : Collection σ}

theorem encode_eq_ok {limit : Nat} {w : Document} {record : Bytes}
    (h : encode limit w = .ok record) : w.nonFinitePath = none ∧ record = w.encode := by
  rw [encode] at h
  split at h
  next => cases h
  next hfinite =>
    dsimp only at h
    split at h
    · cases h
    · cases h
      exact ⟨hfinite, rfl⟩

/-- What fits is the document with its defaults, if it is valid then. -/
theorem fitSchema_eq_ok {d fitted : Document} : c.fitSchema d = .ok fitted ↔
    fitted = d.withDefaults c.schema ∧ ∀ s, c.schema = some s → s.validate fitted = .ok () := by
  unfold fitSchema Document.withDefaults
  cases c.schema with
  | none =>
    constructor
    · rintro ⟨⟩
      exact ⟨rfl, nofun⟩
    · rintro ⟨rfl, -⟩
      rfl
  | some s =>
    dsimp only
    constructor
    · intro h
      cases hprepare : s.prepare d with
      | error e => rw [hprepare] at h; cases h
      | ok p =>
        rw [hprepare] at h
        cases h
        refine ⟨Schema.prepare_eq_ok hprepare, ?_⟩
        rintro _ ⟨⟩
        exact Schema.validate_of_prepare hprepare
    · rintro ⟨rfl, hvalid⟩
      rw [Schema.prepare_of_validate (hvalid s rfl)]
      rfl

/-- A document with the fields as the schema wants them, and its record. -/
theorem filledUnder_of_fitSchema {id : String} {d fitted w : Document} (hd : d.WellFormed)
    (hfit : c.fitSchema d = .ok fitted) (hfields : w.fields = fitted.fields)
    (hid : w.id = some id) {limit : Nat} {record : Bytes}
    (hencode : encode limit w = .ok record) :
    w.FilledUnder c.schema id ∧ record = w.encode := by
  obtain ⟨rfl, hvalid⟩ := fitSchema_eq_ok.mp hfit
  obtain ⟨hfinite, hrecord⟩ := encode_eq_ok hencode
  refine ⟨⟨hid, hfinite, fun s hs => ?_, d, hd, hfields⟩, hrecord⟩
  rw [Schema.validate_congr hfields]
  exact hvalid s hs

theorem filledUnder_of_prepareInsert {stamp : Stamp} {d w : Document} {id : String}
    {record : Bytes} (hd : (Value.object d.fields).WellFormed)
    (h : c.prepareInsert stamp d = .ok (id, w, record)) :
    w.FilledUnder c.schema id ∧ record = w.encode := by
  obtain ⟨fitted, hfit, hw, hencode⟩ := prepareInsert_eq_ok h
  have hstripped := Document.wellFormed_stripReserved hd
  have hd : Document.WellFormed { d.stripReserved with id := none } :=
    ⟨hstripped.ascending, hstripped.values, hstripped.unreserved⟩
  exact filledUnder_of_fitSchema hd hfit (by rw [hw]) (by rw [hw]) hencode

theorem filledUnder_of_prepareUpdate {now : Int64} {id : String} {upd : Update}
    {current w : Document} {record : Bytes} (hupd : upd.WellFormed)
    (hcurrent : current.WellFormed) (hcheck : upd.check = .ok ())
    (h : c.prepareUpdate now id upd current = .ok (w, record)) :
    w.FilledUnder c.schema id ∧ record = w.encode := by
  obtain ⟨applied, fitted, happly, hfit, hw, hencode⟩ := prepareUpdate_eq_ok h
  have hd := Update.wellFormed_apply hupd hcurrent hcheck happly
  exact filledUnder_of_fitSchema hd hfit (by rw [hw]) (by rw [hw]) hencode

end

variable {σ : Type} [RecordStore σ] [FallibleStore σ] {c : Collection σ}

/-- What is put in place is the record of the document that is answered. -/
theorem allOrNothing_write_filled (h : FallibleStore.Ready c.store) {write : Write}
    (hwrite : write.WellFormed) :
    AllOrNothing c (write.run c) fun w t => ∃ id f, w.FilledUnder c.schema id ∧
      t.Resembles ((c.reindex id w).count f)
        ((FallibleStore.records c.store).insert id w.encode) := by
  cases write with
  | insert stamp d =>
    refine (allOrNothing_insert h stamp d).mono ?_
    rintro w t ⟨id, record, hprepare, -, ht⟩
    obtain ⟨hfilled, rfl⟩ := filledUnder_of_prepareInsert hwrite hprepare
    exact ⟨id, _, hfilled, ht⟩
  | update now id upd =>
    refine (allOrNothing_update h now id upd).mono ?_
    rintro w t ⟨old, current, record, hcheck, -, hdecode, hprepare, ht⟩
    have hcurrent := Document.wellFormed_of_decode (decode_eq_ok.mp hdecode)
    obtain ⟨hfilled, rfl⟩ := filledUnder_of_prepareUpdate hwrite hcurrent hcheck hprepare
    exact ⟨id, _, hfilled, ht⟩

end Collection

/-! ## What every call keeps -/

/-- Each record is read as the document that was written, if one was. -/
def ReadsBack (m : Keyed String Bytes) (written : String → Option Document) : Prop :=
  ∀ id record, m.get? id = some record →
    ∃ d, Document.decode record = .ok d ∧ ∀ w, written id = some w → w = d

section
variable {σ : Type} [RecordStore σ] [FallibleStore σ]

/-- The documents that were written are in the store as their own records, and the other
records were there at the start. -/
structure Ledger.Filed (schema : Option Schema) (start : Keyed String Bytes) (l : Ledger σ) :
    Prop where
  ready : FallibleStore.Ready l.collection.store
  attached : l.collection.schema = schema
  untouched : ∀ id record, (FallibleStore.records l.collection.store).get? id = some record →
    l.written id = none → start.get? id = some record
  encoded : ∀ id w, l.written id = some w →
    (FallibleStore.records l.collection.store).get? id = some w.encode ∧ w.id = some id ∧
      w.MadeUnder schema

namespace Ledger.Filed
variable {schema : Option Schema} {start : Keyed String Bytes} {l : Ledger σ} {c t : Collection σ}

theorem kept (h : l.Filed schema start)
    (ht : t.Resembles c (FallibleStore.records l.collection.store))
    (hc : c.schema = l.collection.schema) : Filed schema start { l with collection := t } := by
  refine ⟨ht.ready, ?_, fun id record => ?_, fun id w => ?_⟩
  · rw [ht.rest]; exact hc.trans h.attached
  · simp only [ht.records]
    exact h.untouched id record
  · simp only [ht.records]
    exact h.encoded id w

theorem write (h : l.Filed schema start) (hschema : ∀ s, schema = some s → s.WellFormed)
    {w : Write} (hw : w.WellFormed) : (l.apply (.write w)).Filed schema start := by
  rw [Ledger.apply]
  rw [← h.attached] at hschema
  rcases (Collection.allOrNothing_write_filled h.ready hw).cases with
    ⟨e, t, hrun, ht⟩ | ⟨d, t, hrun, id, f, hfilled, ht⟩
  · rw [hrun]
    exact h.kept ht rfl
  · rw [hrun]
    have hascending := FallibleStore.ascending h.ready
    refine ⟨ht.ready, by rw [ht.rest]; exact h.attached, fun i record hi hnone => ?_,
      fun i x hx => ?_⟩
    · simp only [hfilled.id, Option.some.injEq] at hnone
      split at hnone
      · cases hnone
      next hne =>
        simp only [ht.records, get?_insert_ne (Ne.symm hne)] at hi
        exact h.untouched i record hi hnone
    · simp only [hfilled.id, Option.some.injEq] at hx
      simp only [ht.records]
      split at hx
      next hsame =>
        cases hx
        cases hsame
        exact ⟨get?_insert_same _ _ _, hfilled.id,
          h.attached ▸ hfilled.madeUnder hschema⟩
      next hne =>
        rw [get?_insert_ne (Ne.symm hne)]
        exact h.encoded i x hx

theorem remove (h : l.Filed schema start) (id : String) :
    (l.call (.remove id)).Filed schema start := by
  rw [Ledger.call]
  rcases (Collection.allOrNothing_remove h.ready id).cases with
    ⟨e, t, hrun, ht⟩ | ⟨found, t, hrun, -, ht⟩
  · rw [hrun]
    exact h.kept ht rfl
  · rw [hrun]
    have hascending := FallibleStore.ascending h.ready
    refine ⟨ht.ready, ?_, fun i record hi hnone => ?_, fun i w hw => ?_⟩
    · rw [ht.rest]
      cases found <;> exact h.attached
    -- there was a record or not: under the identifier there is none now
    · rw [ht.records, get?_erase_eq_some hascending] at hi
      exact h.untouched i record hi.2 (by simpa only [if_neg hi.1] using hnone)
    · dsimp only at hw
      split at hw
      · cases hw
      next hne =>
        simp only [ht.records, get?_erase_ne hascending hne]
        exact h.encoded i w hw

theorem call (h : l.Filed schema start) (hschema : ∀ s, schema = some s → s.WellFormed)
    {call : Call} (hcall : call.WellFormed) : (l.call call).Filed schema start := by
  cases call with
  | write w => exact h.write hschema hcall
  | insertMany stamps docs =>
    exact insertAll_induction stamps 0 h fun l stamp d hd hl => hl.write hschema (hcall d hd)
  | remove id => exact h.remove id
  | createIndex field kind =>
    rw [Ledger.call, Ledger.apply]
    rcases (Collection.allOrNothing_createIndex h.ready field kind).cases with
      ⟨e, t, hrun, ht⟩ | ⟨_, t, hrun, ⟨-, ht⟩ | ⟨-, -, ht⟩⟩
    · rw [hrun]; exact h.kept ht rfl
    · rw [hrun]; exact h.kept ht rfl
    · rw [hrun]; exact h.kept ht rfl
  | dropIndex field => exact ⟨h.ready, h.attached, h.untouched, h.encoded⟩
  | attachSchema s => exact hcall.elim

theorem callAll (h : l.Filed schema start) (hschema : ∀ s, schema = some s → s.WellFormed)
    {calls : List Call} (hcalls : ∀ call ∈ calls, call.WellFormed) :
    (l.callAll calls).Filed schema start :=
  List.foldlRecOn (motive := fun l : Ledger σ => l.Filed schema start) calls Ledger.call h
    fun _ hl call hcall => hl.call hschema (hcalls call hcall)

/-- Where the schema fills in no names of the engine, records that can be read at all are read
as what was written. -/
theorem readsBack (h : l.Filed schema start) (hfree : ∀ s, schema = some s → ¬ s.FillsReserved)
    (hread : Readable (FallibleStore.records l.collection.store)
      (FallibleStore.records l.collection.store).keys) :
    ReadsBack (FallibleStore.records l.collection.store) l.written := by
  intro id record hrecord
  obtain ⟨d, hd⟩ := hread id (mem_keys_of_get? hrecord) record hrecord
  refine ⟨d, hd, fun w hw => ?_⟩
  obtain ⟨hencoded, -, hmade⟩ := h.encoded id w hw
  rw [hrecord, Option.some.injEq] at hencoded
  rw [hencoded, Document.decode_encode (hmade.unreserved.mpr hfree) hmade.finite] at hd
  split at hd
  · exact Except.ok.inj hd
  · cases hd

end Ledger.Filed

theorem Ledger.filed_start {start : Collection σ} (hready : FallibleStore.Ready start.store) :
    Filed start.schema (FallibleStore.records start.store) { collection := start } := by
  refine ⟨hready, rfl, fun id record h _ => h, fun id w h => ?_⟩
  cases h

end

/-! ## Without a schema -/

variable {σ : Type} [RecordStore σ] [LawfulStore σ]

/-- Each stored record decodes to a document of its own identifier, and to the one that
was written if it was written since. -/
def Ledger.Faithful (l : Ledger σ) : Prop :=
  ∀ id record, (LawfulStore.records l.collection.store).get? id = some record →
    ∃ d, Document.decode record = .ok d ∧ d.id = some id ∧ ∀ w, l.written id = some w → w = d

/-- The documents that were written are in the store as their own records, and the other
records were there at the start. -/
structure Ledger.Accounted (start : Keyed String Bytes) (l : Ledger σ) : Prop where
  ready : LawfulStore.Ready l.collection.store
  schema : l.collection.schema = none
  untouched : ∀ id record, (LawfulStore.records l.collection.store).get? id = some record →
    l.written id = none → start.get? id = some record
  encoded : ∀ id w, l.written id = some w →
    (LawfulStore.records l.collection.store).get? id = some w.encode ∧ w.id = some id ∧
      w.WellFormed ∧ w.nonFinitePath = none

namespace Ledger.Accounted
variable {l : Ledger σ} {start : Keyed String Bytes}

theorem iff_filed : l.Accounted start ↔
    @Filed σ _ (LawfulStore.fallible σ) none start l := by
  let _ := LawfulStore.fallible σ
  constructor
  · refine fun h => ⟨h.ready, h.schema, h.untouched, fun id w hw => ?_⟩
    obtain ⟨hrecord, hid, hwellFormed, hfinite⟩ := h.encoded id w hw
    exact ⟨hrecord, hid, hwellFormed.object, hfinite, iff_of_true hwellFormed (fun _ h => by cases h)⟩
  · refine fun h => ⟨h.ready, h.attached, h.untouched, fun id w hw => ?_⟩
    obtain ⟨hrecord, hid, hmade⟩ := h.encoded id w hw
    exact ⟨hrecord, hid, hmade.unreserved.mpr (fun _ h => by cases h), hmade.finite⟩

theorem apply (h : l.Accounted start) {change : Change} (hchange : change.WellFormed) :
    (l.apply change).Accounted start := by
  let _ := LawfulStore.fallible σ
  rw [← Ledger.call_toCall h.ready]
  exact iff_filed.mpr ((iff_filed.mp h).call (fun _ h => by cases h)
    (Change.wellFormed_toCall hchange))

theorem write (h : l.Accounted start) {w : Write} (hw : w.WellFormed) :
    (l.apply (.write w)).Accounted start := h.apply hw

theorem applyAll (h : l.Accounted start) {changes : List Change}
    (hchanges : ∀ change ∈ changes, change.WellFormed) :
    (l.applyAll changes).Accounted start :=
  List.foldlRecOn (motive := fun l : Ledger σ => l.Accounted start) changes Ledger.apply h
    fun _ hl change hchange => hl.apply (hchanges change hchange)

theorem decode_written (h : l.Accounted start) {id : String} {w : Document}
    (hw : l.written id = some w) :
    ∃ record, (LawfulStore.records l.collection.store).get? id = some record ∧
      Document.decode record =
        if w.nesting ≤ Json.depthLimit then .ok w else .error .invalidJson := by
  obtain ⟨hrecord, -, hwellFormed, hfinite⟩ := h.encoded id w hw
  exact ⟨_, hrecord, Document.decode_encode hwellFormed hfinite⟩

/-- Without a schema, records that can be read at all are read as what was written. -/
theorem faithful (h : l.Accounted start)
    (hown : ∀ id record, (LawfulStore.records l.collection.store).get? id = some record →
      ∃ d, Document.decode record = .ok d ∧ d.id = some id) :
    l.Faithful := by
  let _ := LawfulStore.fallible σ
  have hread : Readable (LawfulStore.records l.collection.store)
      (LawfulStore.records l.collection.store).keys := by
    intro id _ record hrecord
    obtain ⟨d, hd, -⟩ := hown id record hrecord
    exact ⟨d, hd⟩
  have hreads := (iff_filed.mp h).readsBack (fun _ h => by cases h) hread
  intro id record hrecord
  obtain ⟨d, hd, hid⟩ := hown id record hrecord
  obtain ⟨e, he, hwritten⟩ := hreads id record hrecord
  rw [hd] at he
  cases he
  exact ⟨d, hd, hid, hwritten⟩

end Ledger.Accounted

theorem Ledger.accounted_of_changes {start : Collection σ}
    (hready : LawfulStore.Ready start.store) (hschema : start.schema = none)
    {changes : List Change} (hchanges : ∀ change ∈ changes, change.WellFormed) :
    (applyAll changes { collection := start }).Accounted (LawfulStore.records start.store) := by
  let _ := LawfulStore.fallible σ
  have hstart : Filed start.schema (LawfulStore.records start.store) { collection := start } :=
    filed_start hready
  rw [hschema] at hstart
  exact (Accounted.iff_filed.mpr hstart).applyAll hchanges

end DocBase
