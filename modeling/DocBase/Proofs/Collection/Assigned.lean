import DocBase.Proofs.Collection.Ledger

/-! Who owns the names of the engine. A document is stored under an identifier and with two
times that the engine assigned, all three under names that no write can use. The schema can:
its defaults are filled in after such names are gone, and a field of the user is written
over what was assigned. -/
namespace DocBase
open Keyed

variable {σ : Type} [RecordStore σ] [FallibleStore σ]

namespace Ledger.Filed
variable {schema : Option Schema} {l : Ledger σ}

/-- In a store that was empty all records are of documents that were written. -/
theorem written_of_stored (h : l.Filed schema []) {id : String} {record : Bytes}
    (hrecord : (FallibleStore.records l.collection.store).get? id = some record) :
    ∃ w, l.written id = some w ∧ record = w.encode ∧ w.id = some id ∧ w.MadeUnder schema := by
  cases hwritten : l.written id with
  | none => cases h.untouched id record hrecord hwritten
  | some w =>
    obtain ⟨hencoded, hid, hmade⟩ := h.encoded id w hwritten
    rw [hrecord, Option.some.injEq] at hencoded
    exact ⟨w, rfl, hencoded, hid, hmade⟩

/-- An update keeps the time of creation and moves that of the last change to now, or leaves
it where a later one was assigned before. -/
theorem times_of_update (h : l.Filed schema [])
    (hfree : ∀ s, schema = some s → ¬ s.FillsReserved) {now : Int64} {id : String} {upd : Update}
    {d : Document} {c : Collection σ}
    (hrun : Collection.update now id upd l.collection = (.ok d, c)) :
    ∃ before, l.written id = some before ∧ d.createdAt = before.createdAt ∧
      d.updatedAt =
        some (if now < before.updatedAt.getD 0 then before.updatedAt.getD 0 else now) := by
  have hupdate := Collection.allOrNothing_update h.ready now id upd
  rw [hrun] at hupdate
  obtain ⟨old, current, record, -, hold, hdecode, hprepare, -⟩ := hupdate
  obtain ⟨before, hwritten, rfl, -, hmade⟩ := h.written_of_stored hold
  have hdecode := Collection.decode_eq_ok.mp hdecode
  rw [Document.decode_encode (hmade.unreserved.mpr hfree) hmade.finite] at hdecode
  -- what was read is what was written, and not another document with other times
  split at hdecode
  next =>
    cases hdecode
    obtain ⟨applied, fitted, -, -, rfl, -⟩ := Collection.prepareUpdate_eq_ok hprepare
    exact ⟨_, hwritten, rfl, rfl⟩
  next => cases hdecode

end Ledger.Filed

namespace Collection

theorem times_of_insert {c t : Collection σ} (h : FallibleStore.Ready c.store) {stamp : Stamp}
    {doc d : Document} (hrun : insert stamp doc c = (.ok d, t)) :
    d.createdAt = some stamp.now ∧ d.updatedAt = some stamp.now := by
  have hinsert := allOrNothing_insert h stamp doc
  rw [hrun] at hinsert
  obtain ⟨id, record, hprepare, -⟩ := hinsert
  obtain ⟨fitted, -, rfl, -⟩ := prepareInsert_eq_ok hprepare
  exact ⟨rfl, rfl⟩

end Collection
end DocBase
