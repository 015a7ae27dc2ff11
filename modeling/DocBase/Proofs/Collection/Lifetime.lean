import DocBase.Proofs.Collection.Assigned

/-! Documents over whole histories. From its insertion to its removal a document has one
identifier and one time of creation, the time of its last change never goes back, whatever the
clock says, and there are as many documents as were inserted and not removed. -/
namespace DocBase
open Keyed

/-- When a document was created and when it was last changed. -/
structure Document.Dated (d : Document) (created updated : Int64) : Prop where
  created_eq : d.createdAt = some created
  updated_eq : d.updatedAt = some updated
  le : created ≤ updated

/-- A call that changes a collection, or a look at one of its documents. -/
inductive Turn
  | call (c : Call)
  | get (id : String)

def Turn.WellFormed : Turn → Prop
  | call c => c.WellFormed
  | get _ => True

namespace Ledger

section
variable {σ : Type} [RecordStore σ]

def turn (l : Ledger σ) : Turn → Ledger σ
  | .call c => l.call c
  | .get id => { l with collection := (Collection.get? id l.collection).2 }

def turnAll (turns : List Turn) (l : Ledger σ) : Ledger σ := turns.foldl turn l

end

variable {σ : Type}

/-- A document that was there still is, created when it was and last changed no earlier. -/
def Ages (id : String) (l l' : Ledger σ) : Prop :=
  ∀ w created updated, l.written id = some w → w.Dated created updated →
    ∃ w' updated', l'.written id = some w' ∧ w'.Dated created updated' ∧ updated ≤ updated'

theorem Ages.of_eq {id : String} {l l' : Ledger σ} (h : l'.written id = l.written id) :
    Ages id l l' :=
  fun w _ updated hw hdated => ⟨w, updated, h.trans hw, hdated, Int64.le_refl updated⟩

theorem Ages.trans {id : String} {l l' l'' : Ledger σ} (h : Ages id l l') (h' : Ages id l' l'') :
    Ages id l l'' := by
  intro w created updated hw hdated
  obtain ⟨w', updated', hw', hdated', hle⟩ := h w created updated hw hdated
  obtain ⟨w'', updated'', hw'', hdated'', hle'⟩ := h' w' created updated' hw' hdated'
  exact ⟨w'', updated'', hw'', hdated'', Int64.le_trans hle hle'⟩

end Ledger

section
variable {σ : Type} [RecordStore σ] [FallibleStore σ]

theorem Collection.allOrNothing_get? {c : Collection σ} (h : FallibleStore.Ready c.store)
    (id : String) : AllOrNothing c (get? id c) fun _ t => t.Untouched c := by
  rw [get?]
  refine (allOrNothing_readRecord h id).bind ?_
  rintro found t ⟨-, ht⟩
  refine AllOrNothing.after_read ?_ ht
  cases found with
  | none => exact ht
  | some record => exact AllOrNothing.lift_bind ht.ready fun _ _ => ht

/-- The documents that were written are all that is stored, they are dated, and they are as many
as were inserted and not removed. -/
structure Ledger.Reckoned (l : Ledger σ) : Prop where
  filed : l.Filed none []
  dated : ∀ id w, l.written id = some w → ∃ created updated, w.Dated created updated
  total : (FallibleStore.records l.collection.store).length + l.collection.counts.removes =
    l.collection.counts.inserts

namespace Ledger.Reckoned
variable {l : Ledger σ} {t : Collection σ}

theorem get?_eq (h : l.Reckoned) (id : String) :
    (FallibleStore.records l.collection.store).get? id = (l.written id).map Document.encode := by
  cases hwritten : l.written id with
  | some w => exact (h.filed.encoded id w hwritten).1
  | none =>
    cases hstored : (FallibleStore.records l.collection.store).get? id with
    | none => rfl
    | some record =>
      obtain ⟨w, hw, -⟩ := h.filed.written_of_stored hstored
      rw [hwritten] at hw
      cases hw

/-- What puts no document in place and takes none away. -/
theorem kept (h : l.Reckoned) {c : Collection σ}
    (ht : t.Resembles c (FallibleStore.records l.collection.store))
    (hschema : c.schema = l.collection.schema) (hcounts : c.counts = l.collection.counts) :
    Reckoned { l with collection := t } := by
  refine ⟨h.filed.kept ht hschema, h.dated, ?_⟩
  have htotal := h.total
  rw [← hcounts] at htotal
  rw [ht.records, ht.rest]
  exact htotal

/-- What is read is what was written. -/
theorem written_of_get? (h : l.Reckoned) {id : String} {d : Document}
    (hget : (Collection.get? id l.collection).1 = .ok (some d)) : l.written id = some d := by
  have hread := Collection.allOrNothing_readRecord h.filed.ready id
  rw [Collection.get?] at hget
  rcases hread.cases with ⟨e, t, hrun, -⟩ | ⟨found, t, hrun, hfound, -⟩
  · rw [bind_of_error hrun] at hget
    cases hget
  rw [bind_of_ok hrun] at hget
  cases found with
  | none => cases hget
  | some record =>
    obtain ⟨w, hwritten, rfl, -, hmade⟩ := h.filed.written_of_stored hfound.symm
    have hfree : ∀ s, (none : Option Schema) = some s → ¬ s.FillsReserved := fun _ hs => by cases hs
    have hdecode := Document.decode_encode (hmade.unreserved.mpr hfree) hmade.finite
    dsimp only at hget
    rw [Collection.decode, hdecode] at hget
    split at hget
    next =>
      rw [hwritten]
      exact congrArg some (Option.some.inj (Except.ok.inj hget))
    next => cases hget

/-- A document that is put in place is new there, or takes the place of the one it was made of. -/
theorem write_cases (h : l.Reckoned) (w : Write) :
    (∃ t, l.apply (.write w) = { l with collection := t } ∧ t.Untouched l.collection) ∨
    ∃ id d record t, l.apply (.write w) =
        { collection := t, written := fun i => if id = i then some d else l.written i } ∧
      ((l.written id = none ∧ (∃ now, d.Dated now now) ∧
          t.Resembles (l.collection.reindex id d).countInsert
            ((FallibleStore.records l.collection.store).insert id record)) ∨
        ∃ before now, l.written id = some before ∧ d.createdAt = before.createdAt ∧
          d.updatedAt =
            some (if now < before.updatedAt.getD 0 then before.updatedAt.getD 0 else now) ∧
          t.Resembles (l.collection.reindex id d).countUpdate
            ((FallibleStore.records l.collection.store).insert id record)) := by
  cases w with
  | insert stamp doc =>
    rcases (Collection.allOrNothing_insert h.filed.ready stamp doc).cases with
      ⟨e, t, hrun, ht⟩ | ⟨d, t, hrun, id, record, hprepare, hnew, ht⟩
    · exact Or.inl ⟨t, by rw [Ledger.apply, Write.run, hrun], ht⟩
    · obtain ⟨hcreated, hupdated⟩ := Collection.times_of_insert h.filed.ready hrun
      obtain ⟨fitted, -, hd, -⟩ := Collection.prepareInsert_eq_ok hprepare
      have hid : d.id = some id := by rw [hd]
      rw [h.get?_eq, Option.map_eq_none_iff] at hnew
      refine Or.inr ⟨id, d, record, t, ?_, Or.inl ⟨hnew, ?_, ht⟩⟩
      · simp only [Ledger.apply, Write.run, hrun, hid, Option.some.injEq]
      · exact ⟨stamp.now, hcreated, hupdated, Int64.le_refl _⟩
  | update now id upd =>
    rcases (Collection.allOrNothing_update h.filed.ready now id upd).cases with
      ⟨e, t, hrun, ht⟩ | ⟨d, t, hrun, old, current, record, -, -, -, hprepare, ht⟩
    · exact Or.inl ⟨t, by rw [Ledger.apply, Write.run, hrun], ht⟩
    · obtain ⟨before, hbefore, hcreated, hupdated⟩ :=
        h.filed.times_of_update (fun _ hs => by cases hs) hrun
      obtain ⟨applied, fitted, -, -, hd, -⟩ := Collection.prepareUpdate_eq_ok hprepare
      have hid : d.id = some id := by rw [hd]
      refine Or.inr ⟨id, d, record, t, ?_, Or.inr ⟨before, now, hbefore, hcreated, hupdated, ht⟩⟩
      simp only [Ledger.apply, Write.run, hrun, hid, Option.some.injEq]

/-- An update moves the time of the last change to now, unless that was later. -/
theorem dated_of_update {before d : Document} {created updated now : Int64}
    (hbefore : before.Dated created updated) (hcreated : d.createdAt = before.createdAt)
    (hupdated : d.updatedAt =
      some (if now < before.updatedAt.getD 0 then before.updatedAt.getD 0 else now)) :
    ∃ updated', d.Dated created updated' ∧ updated ≤ updated' := by
  rw [hbefore.updated_eq, Option.getD_some] at hupdated
  have hle : updated ≤ if now < updated then updated else now := by
    split
    · exact Int64.le_refl updated
    next hlater => exact Int64.not_lt.mp hlater
  exact ⟨_, ⟨hcreated.trans hbefore.created_eq, hupdated, Int64.le_trans hbefore.le hle⟩, hle⟩

theorem write (h : l.Reckoned) {w : Write} (hw : w.WellFormed) :
    (l.apply (.write w)).Reckoned ∧ ∀ id, Ages id l (l.apply (.write w)) := by
  have hfiled := h.filed.write (fun _ hs => by cases hs) hw
  rcases h.write_cases w with ⟨t, happly, ht⟩ | ⟨id, d, record, t, happly, hcases⟩
  · rw [happly]
    exact ⟨h.kept ht rfl rfl, fun id => Ages.of_eq rfl⟩
  have hplaced : (∃ created updated, d.Dated created updated) ∧
      (∀ before created updated, l.written id = some before → before.Dated created updated →
        ∃ updated', d.Dated created updated' ∧ updated ≤ updated') ∧
      (FallibleStore.records t.store).length + t.counts.removes = t.counts.inserts := by
    have hstored := h.get?_eq id
    have htotal := h.total
    rcases hcases with ⟨hnew, ⟨now, hdated⟩, ht⟩ | ⟨before, now, hbefore, hcreated, hupdated, ht⟩
    · rw [hnew, Option.map_none] at hstored
      have hcounts : t.counts = (l.collection.reindex id d).countInsert.counts := by rw [ht.rest]
      refine ⟨⟨now, now, hdated⟩, fun before _ _ hbefore => ?_, ?_⟩
      · rw [hnew] at hbefore
        cases hbefore
      · rw [ht.records, length_insert, hstored, hcounts]
        change _ + l.collection.counts.removes = l.collection.counts.inserts + 1
        simp only [Option.isNone_none, if_true]
        omega
    · rw [hbefore, Option.map_some] at hstored
      have hcounts : t.counts = (l.collection.reindex id d).countUpdate.counts := by rw [ht.rest]
      obtain ⟨created, updated, hdated⟩ := h.dated id before hbefore
      obtain ⟨updated', hnow, -⟩ := dated_of_update hdated hcreated hupdated
      refine ⟨⟨created, updated', hnow⟩, fun w _ _ hw hdated => ?_, ?_⟩
      · rw [hbefore] at hw
        cases hw
        exact dated_of_update hdated hcreated hupdated
      · rw [ht.records, length_insert, hstored, hcounts]
        exact htotal
  obtain ⟨hdated, hlater, htotal⟩ := hplaced
  rw [happly] at hfiled ⊢
  refine ⟨⟨hfiled, fun i w hw => ?_, htotal⟩, fun i w created updated hw hwdated => ?_⟩
  · dsimp only at hw
    split at hw
    · cases hw
      exact hdated
    · exact h.dated i w hw
  · by_cases hid : id = i
    · subst hid
      obtain ⟨updated', hd, hle⟩ := hlater w created updated hw hwdated
      exact ⟨d, updated', if_pos rfl, hd, hle⟩
    · exact Ages.of_eq (if_neg hid) w created updated hw hwdated

/-- What is removed is forgotten, and no other document is touched. -/
theorem remove (h : l.Reckoned) (id : String) :
    (l.call (.remove id)).Reckoned ∧ ∀ i, i ≠ id → Ages i l (l.call (.remove id)) := by
  have hfiled := h.filed.remove id
  have htotal := h.total
  rw [Ledger.call] at hfiled ⊢
  rcases (Collection.allOrNothing_remove h.filed.ready id).cases with
    ⟨e, t, hrun, ht⟩ | ⟨found, t, hrun, hfound, ht⟩
  · rw [hrun]
    exact ⟨h.kept ht rfl rfl, fun i _ => Ages.of_eq rfl⟩
  · rw [hrun] at hfiled ⊢
    refine ⟨⟨hfiled, fun i w hw => ?_, ?_⟩, fun i hi => Ages.of_eq (if_neg hi)⟩
    · dsimp only at hw
      split at hw
      · cases hw
      · exact h.dated i w hw
    · have hlength := length_erase id (FallibleStore.records l.collection.store)
      have hcounts : t.counts =
          (if found then (l.collection.unindex id).countRemove else l.collection).counts := by
        rw [ht.rest]
      rw [ht.records, hcounts]
      rw [← hfound] at hlength
      cases found with
      | false =>
        simp only [Bool.false_eq_true, if_false] at hlength ⊢
        omega
      | true =>
        change _ + (l.collection.counts.removes + 1) = l.collection.counts.inserts
        simp only [if_true] at hlength
        omega

/-- One turn: each document that was there is older after it, unless it was removed. -/
theorem turn (h : l.Reckoned) {turn : Turn} (hturn : turn.WellFormed) :
    (l.turn turn).Reckoned ∧ ∀ id, turn ≠ .call (.remove id) → Ages id l (l.turn turn) := by
  cases turn with
  | get id =>
    refine ⟨?_, fun i _ => Ages.of_eq rfl⟩
    rcases (Collection.allOrNothing_get? h.filed.ready id).cases with
      ⟨e, t, hrun, ht⟩ | ⟨_, t, hrun, ht⟩
    · rw [Ledger.turn, hrun]
      exact h.kept ht rfl rfl
    · rw [Ledger.turn, hrun]
      exact h.kept ht rfl rfl
  | call c =>
    cases c with
    | write w =>
      obtain ⟨hafter, hages⟩ := h.write hturn
      exact ⟨hafter, fun id _ => hages id⟩
    | insertMany stamps docs =>
      have hafter : (l.insertAll stamps 0 docs).Reckoned ∧
          ∀ id, Ages id l (l.insertAll stamps 0 docs) := by
        refine insertAll_induction (P := fun l' => l'.Reckoned ∧ ∀ id, Ages id l l') stamps 0
          ⟨h, fun id => Ages.of_eq rfl⟩ fun l' stamp d hd hl' => ?_
        obtain ⟨hnext, hages⟩ := hl'.1.write (w := .insert stamp d) (hturn d hd)
        exact ⟨hnext, fun id => (hl'.2 id).trans (hages id)⟩
      exact ⟨hafter.1, fun id _ => hafter.2 id⟩
    | remove id =>
      obtain ⟨hafter, hages⟩ := h.remove id
      exact ⟨hafter, fun i hi => hages i fun hsame => hi (by rw [hsame])⟩
    | createIndex field kind =>
      refine ⟨?_, fun i _ => Ages.of_eq rfl⟩
      rw [Ledger.turn, Ledger.call, Ledger.apply]
      rcases (Collection.allOrNothing_createIndex h.filed.ready field kind).cases with
        ⟨e, t, hrun, ht⟩ | ⟨_, t, hrun, ⟨-, ht⟩ | ⟨-, -, ht⟩⟩
      · rw [hrun]; exact h.kept ht rfl rfl
      · rw [hrun]; exact h.kept ht rfl rfl
      · rw [hrun]; exact h.kept ht rfl rfl
    | dropIndex field =>
      have hfiled : (l.call (.dropIndex field)).Filed none [] :=
        h.filed.call (fun _ hs => by cases hs) hturn
      exact ⟨⟨hfiled, h.dated, h.total⟩, fun i _ => Ages.of_eq rfl⟩
    | attachSchema s => exact hturn.elim

theorem turnAll (h : l.Reckoned) {turns : List Turn} (hturns : ∀ turn ∈ turns, turn.WellFormed) :
    (l.turnAll turns).Reckoned :=
  List.foldlRecOn (motive := Ledger.Reckoned) turns Ledger.turn h
    fun _ hl turn hturn => (hl.turn (hturns turn hturn)).1

theorem ages_turnAll (h : l.Reckoned) {turns : List Turn}
    (hturns : ∀ turn ∈ turns, turn.WellFormed) {id : String}
    (hkept : Turn.call (.remove id) ∉ turns) : Ages id l (l.turnAll turns) := by
  induction turns generalizing l with
  | nil => exact Ages.of_eq rfl
  | cons turn rest ih =>
    obtain ⟨hnext, hages⟩ := h.turn (hturns turn List.mem_cons_self)
    have hrest := ih hnext (fun turn hturn => hturns turn (List.mem_cons_of_mem _ hturn))
      (fun hmem => hkept (List.mem_cons_of_mem _ hmem))
    exact (hages id fun hremove => hkept (hremove ▸ List.mem_cons_self)).trans hrest

end Ledger.Reckoned

theorem Ledger.reckoned_start {start : Collection σ} (hready : FallibleStore.Ready start.store)
    (hempty : FallibleStore.records start.store = []) (hschema : start.schema = none)
    (hcounts : start.counts = {}) : Reckoned { collection := start } := by
  have hfiled := Ledger.filed_start hready
  rw [hempty, hschema] at hfiled
  refine ⟨hfiled, fun id w hw => (by cases hw), ?_⟩
  rw [hempty, hcounts]
  rfl

end

namespace Collection

section
variable {σ : Type} {c : Collection σ}

theorem exists_validation_of_fitSchema {d : Document} {e : CollectionError}
    (h : c.fitSchema d = .error e) : ∃ fault, e = .validation fault := by
  rw [fitSchema] at h
  split at h
  next s _ =>
    cases hprepare : s.prepare d with
    | ok _ => rw [hprepare] at h; cases h
    | error fault =>
      rw [hprepare] at h
      exact ⟨fault, (Except.error.inj h).symm⟩
  · cases h

theorem encode_ne_notFound (limit : Nat) (d : Document) (missing : String) :
    encode limit d ≠ .error (.notFound missing) := by
  rw [encode]
  split
  · simp
  · dsimp only
    split <;> simp

/-- A change that cannot be made is no missing document. -/
theorem prepareUpdate_ne_notFound (now : Int64) (id : String) (u : Update) (d : Document)
    (missing : String) : c.prepareUpdate now id u d ≠ .error (.notFound missing) := by
  intro h
  rcases bind_eq_error h with happly | ⟨applied, -, h⟩
  · cases hrun : u.apply d with
    | ok applied => rw [hrun] at happly; cases happly
    | error fault => rw [hrun] at happly; cases happly
  rcases bind_eq_error h with hfit | ⟨fitted, -, h⟩
  · obtain ⟨fault, hfault⟩ := exists_validation_of_fitSchema hfit
    cases hfault
  rcases bind_eq_error h with hencode | ⟨record, -, h⟩
  · exact encode_ne_notFound _ _ _ hencode
  · cases h

end

variable {σ : Type} [RecordStore σ] {c : Collection σ}

/-- Only the store can refuse a document that is to be put in place. -/
theorem exists_store_of_commit {id : String} {w : Document} {record : Bytes}
    {f : CollectionCounts → CollectionCounts} {e : CollectionError}
    (h : ((do
      writeRecord id record
      modify fun c => (c.reindex id w).count f
      return w : CollectionAction σ Document) c).1 = .error e) : ∃ cause, e = .store cause := by
  cases hput : RecordStore.put id record c.store with
  | mk r s =>
    have hwrite : writeRecord id record c = (r.mapError .store, { c with store := s }) :=
      onStore_apply hput
    cases r with
    | error cause =>
      rw [bind_of_error hwrite] at h
      exact ⟨cause, (Except.error.inj h).symm⟩
    | ok _ =>
      rw [bind_of_ok hwrite] at h
      cases h

variable [LawfulStore σ]

/-- A document that can be stored is refused as a duplicate where there is another already. -/
theorem insert_duplicate_iff (h : LawfulStore.Ready c.store) {stamp : Stamp} {d w : Document}
    {id : String} {record : Bytes} (hprepare : c.prepareInsert stamp d = .ok (id, w, record)) :
    (insert stamp d c).1 = .error (.duplicateKey id) ↔
      (LawfulStore.records c.store).get? id ≠ none := by
  obtain ⟨t, hread, -⟩ := readRecord_spec h id
  rw [insert, get_bind, hprepare, bind_of_ok (lift_apply _)]
  dsimp only
  rw [bind_of_ok hread]
  cases (LawfulStore.records c.store).get? id with
  | some old => exact iff_of_true rfl (by simp)
  | none =>
    refine iff_of_false (fun hduplicate => ?_) (by simp)
    obtain ⟨cause, hcause⟩ := exists_store_of_commit hduplicate
    cases hcause

theorem update_notFound_iff (h : LawfulStore.Ready c.store) (now : Int64) (id : String) {u : Update}
    (hcheck : u.check = .ok ()) :
    (update now id u c).1 = .error (.notFound id) ↔
      (LawfulStore.records c.store).get? id = none := by
  obtain ⟨t, hread, -⟩ := readRecord_spec h id
  have hchecked : (liftM (u.check.mapError CollectionError.validation) :
      CollectionAction σ Unit) c = (.ok (), c) := by
    rw [hcheck]
    rfl
  rw [update, bind_of_ok hchecked, bind_of_ok hread]
  cases (LawfulStore.records c.store).get? id with
  | none => exact iff_of_true rfl rfl
  | some old =>
    refine iff_of_false (fun hmissing => ?_) (by simp)
    dsimp only at hmissing
    cases hdecode : decode id old with
    | error e =>
      rw [hdecode, bind_of_error (lift_apply _)] at hmissing
      obtain rfl := Except.error.inj hmissing
      rw [decode] at hdecode
      cases hread : Document.decode old with
      | error fault => rw [hread] at hdecode; cases hdecode
      | ok d => rw [hread] at hdecode; cases hdecode
    | ok current =>
      rw [hdecode, bind_of_ok (lift_apply _), get_bind] at hmissing
      cases hprepare : t.prepareUpdate now id u current with
      | error e =>
        rw [hprepare, bind_of_error (lift_apply _)] at hmissing
        obtain rfl := Except.error.inj hmissing
        exact prepareUpdate_ne_notFound now id u current id hprepare
      | ok prepared =>
        rw [hprepare, bind_of_ok (lift_apply _)] at hmissing
        obtain ⟨cause, hcause⟩ := exists_store_of_commit hmissing
        cases hcause

/-- Over a store that was empty and without a schema. What is stored are the documents that were
written and not removed since, and each is read as it was written. An identifier is taken exactly
while there is a document, and there to be updated exactly then. No update changes the identifier
or the time of creation, and until it is removed no turn of the clock takes a document's time of
the last change back. The number of documents follows from what was counted. -/
theorem identity_over_history [CountingStore σ] {start : Collection σ}
    (hready : LawfulStore.Ready start.store) (hempty : LawfulStore.records start.store = [])
    (hschema : start.schema = none) (hcounts : start.counts = {}) {turns : List Turn}
    (hturns : ∀ turn ∈ turns, turn.WellFormed) {l : Ledger σ}
    (hrun : Ledger.turnAll turns { collection := start } = l) :
    let stored := fun id => (LawfulStore.records l.collection.store).get? id
    (∀ id, stored id = (l.written id).map Document.encode) ∧
    (∀ id d, (get? id l.collection).1 = .ok (some d) → l.written id = some d) ∧
    (∀ stamp d id w record, l.collection.prepareInsert stamp d = .ok (id, w, record) →
      ((insert stamp d l.collection).1 = .error (.duplicateKey id) ↔ stored id ≠ none)) ∧
    (∀ now id upd, upd.check = .ok () →
      ((update now id upd l.collection).1 = .error (.notFound id) ↔ stored id = none)) ∧
    (∀ now id upd d c, update now id upd l.collection = (.ok d, c) →
      ∃ before, l.written id = some before ∧ before.id = some id ∧ d.id = some id ∧
        d.createdAt = before.createdAt) ∧
    (∀ later id before, (∀ turn ∈ later, turn.WellFormed) → Turn.call (.remove id) ∉ later →
      l.written id = some before → ∃ after created updated updated',
        (l.turnAll later).written id = some after ∧ before.Dated created updated ∧
          after.Dated created updated' ∧ updated ≤ updated') ∧
    l.collection.counts.removes ≤ l.collection.counts.inserts ∧
    l.collection.size =
      .ok (l.collection.stats.counts.inserts - l.collection.stats.counts.removes) := by
  let _ := LawfulStore.fallible σ
  have hl : l.Reckoned := by
    rw [← hrun]
    exact (Ledger.reckoned_start hready hempty hschema hcounts).turnAll hturns
  have hopen : LawfulStore.Ready l.collection.store := hl.filed.ready
  refine ⟨hl.get?_eq, fun id d => hl.written_of_get?,
    fun stamp d id w record => insert_duplicate_iff hopen,
    fun now id upd => update_notFound_iff hopen now id, fun now id upd d c hupdate => ?_,
    fun later id before hlater hkept hbefore => ?_, ?_, ?_⟩
  · obtain ⟨before, hbefore, hcreated, -⟩ :=
      hl.filed.times_of_update (fun _ hs => by cases hs) hupdate
    have hcases := allOrNothing_update hl.filed.ready now id upd
    rw [hupdate] at hcases
    obtain ⟨old, current, record, -, -, -, hprepare, -⟩ := hcases
    obtain ⟨applied, fitted, -, -, rfl, -⟩ := prepareUpdate_eq_ok hprepare
    exact ⟨before, hbefore, (hl.filed.encoded id before hbefore).2.1, rfl, hcreated⟩
  · obtain ⟨created, updated, hdated⟩ := hl.dated id before hbefore
    obtain ⟨after, updated', hafter, hdated', hle⟩ :=
      hl.ages_turnAll hlater hkept before created updated hbefore hdated
    exact ⟨after, created, updated, updated', hafter, hdated, hdated', hle⟩
  · exact Nat.le.intro ((Nat.add_comm _ _).trans hl.total)
  · have htotal := hl.total
    rw [size, CountingStore.size hopen]
    refine congrArg Except.ok ?_
    exact (Nat.sub_eq_of_eq_add htotal.symm).symm

/-- A document that is changed twice while the clock runs backwards. -/
theorem identity_while_clock_goes_back :
    let start : Collection MemoryStore := { name := "a", store := {} }
    let change (now : Int64) (v : Value) : Turn :=
      .call (.write (.update now "a" (.patch [("x", v)] [])))
    let turns := [.call (.write (.insert { now := 5, freshId := "" } { id := some "a" })),
      change 3 (.int 1), .get "a"]
    let again : Stamp := { now := 2, freshId := "" }
    ∃ l after, Ledger.turnAll turns { collection := start } = l ∧
      (insert again { id := some "a" } l.collection).1 =
        .error (.duplicateKey "a") ∧
      (l.turnAll [change 4 (.int 2)]).written "a" = some after ∧
      (∃ updated, after.Dated 5 updated) ∧ l.collection.size = .ok 1 := by
  intro start change turns again
  have hready : LawfulStore.Ready start.store := ⟨rfl, ascending_nil⟩
  have hchange : ∀ now n, (change now (.int n)).WellFormed := fun _ _ => ⟨trivial, trivial⟩
  have hturns : ∀ turn ∈ turns, turn.WellFormed := by
    intro turn hturn
    rcases List.mem_cons.mp hturn with rfl | hturn
    · exact ⟨ascending_nil, trivial⟩
    rcases List.mem_cons.mp hturn with rfl | hturn
    · exact hchange 3 1
    · rw [List.mem_singleton.mp hturn]
      trivial
  obtain ⟨l, hrun⟩ : ∃ l, Ledger.turnAll turns { collection := start } = l := ⟨_, rfl⟩
  obtain ⟨hstored, -, hduplicate, -, -, hages, -, hsize⟩ :=
    identity_over_history hready rfl rfl rfl hturns hrun
  have hwritten : (l.written "a").map (·.createdAt) = some (some 5) := by
    rw [← hrun]; decide +kernel
  have hcounts : l.collection.stats.counts = { inserts := 1, updates := 1 } := by
    rw [← hrun]; decide +kernel
  have hid : (l.collection.prepareInsert again { id := some "a" }).toOption.map Prod.fst =
      some "a" := by
    rw [← hrun]; decide +kernel
  obtain ⟨⟨_, w, record⟩, hprepare, rfl⟩ := exists_of_toOption_map hid
  obtain ⟨before, hbefore, hfive⟩ := Option.map_eq_some_iff.mp hwritten
  have htaken := (hduplicate _ _ _ _ _ hprepare).mpr (by rw [hstored, hbefore]; simp)
  obtain ⟨after, created, updated, updated', hafter, hdated, hdated', -⟩ :=
    hages [change 4 (.int 2)] "a" before
      (fun turn hturn => List.mem_singleton.mp hturn ▸ hchange 4 2) (by simp [change]) hbefore
  rw [hdated.created_eq] at hfive
  obtain rfl : created = 5 := Option.some.inj hfive
  rw [hcounts] at hsize
  exact ⟨l, after, hrun, htaken, hafter, ⟨updated', hdated'⟩, hsize⟩

end Collection
end DocBase
