import DocBase.Proofs.Collection.Ledger

/-! What holds of all records of a collection, whatever calls it has had, because it holds of
each document that a write puts in place. A collection takes another schema only while it is
empty, so that there are no records then that were made under the one before. -/
namespace DocBase
open Keyed

/-- Each record is of a document of which it holds, with the schema and the identifier. -/
def Recorded (P : Option Schema → String → Document → Prop) (schema : Option Schema)
    (m : Keyed String Bytes) : Prop :=
  ∀ id record, m.get? id = some record → ∃ w : Document, record = w.encode ∧ P schema id w

namespace Recorded
variable {P : Option Schema → String → Document → Prop} {schema : Option Schema}
  {m : Keyed String Bytes}

theorem nil (P : Option Schema → String → Document → Prop) (schema : Option Schema) :
    Recorded P schema [] := fun _ _ h => nomatch h

theorem insert (h : Recorded P schema m) {id : String} {w : Document}
    (hw : P schema id w) : Recorded P schema (m.insert id w.encode) := by
  intro i record hi
  rcases get?_insert_eq_some.mp hi with ⟨rfl, rfl⟩ | ⟨-, hi⟩
  · exact ⟨w, rfl, hw⟩
  · exact h i record hi

theorem erase (h : Recorded P schema m) (hm : Ascending m) (id : String) :
    Recorded P schema (m.erase id) :=
  fun i record hi => h i record ((get?_erase_eq_some hm).mp hi).2

end Recorded

namespace Call

/-- The fields of objects ascend in all values that the call brings along, and the schemas are
of a kind. -/
def Brings (Q : Schema → Prop) : Call → Prop
  | attachSchema s => ∀ t, s = some t → Q t
  | call => call.WellFormed

end Call

namespace Collection
variable {σ : Type} [RecordStore σ] [FallibleStore σ] {c d t : Collection σ}
  {Q : Schema → Prop} {P : Option Schema → String → Document → Prop}

/-- It holds of every document that a write puts in place, under schemas of a kind. -/
def Upheld (σ : Type) [RecordStore σ] [FallibleStore σ] (Q : Schema → Prop)
    (P : Option Schema → String → Document → Prop) : Prop :=
  ∀ {c : Collection σ}, FallibleStore.Ready c.store → (∀ s, c.schema = some s → Q s) →
    ∀ {write : Write}, write.WellFormed → AllOrNothing c (write.run c) fun w t =>
      ∃ id f, P c.schema id w ∧ t.Resembles ((c.reindex id w).count f)
        ((FallibleStore.records c.store).insert id w.encode)

/-- It holds of all records. -/
structure Stocked (Q : Schema → Prop) (P : Option Schema → String → Document → Prop)
    (c : Collection σ) : Prop where
  ready : FallibleStore.Ready c.store
  schema : ∀ s, c.schema = some s → Q s
  recorded : Recorded P c.schema (FallibleStore.records c.store)

namespace Stocked

theorem of_resembles (h : c.Stocked Q P) {m : Keyed String Bytes} (ht : t.Resembles d m)
    (hd : d.schema = c.schema) (hm : Recorded P c.schema m) : t.Stocked Q P := by
  have hschema : t.schema = c.schema := by rw [ht.rest]; exact hd
  refine ⟨ht.ready, ?_, ?_⟩
  · rw [hschema]; exact h.schema
  · rw [hschema, ht.records]; exact hm

theorem untouched (h : c.Stocked Q P) (ht : t.Untouched c) : t.Stocked Q P :=
  h.of_resembles ht rfl h.recorded

theorem write (h : c.Stocked Q P) (hP : Upheld σ Q P) {write : Write}
    (hwrite : write.WellFormed) : (write.run c).2.Stocked Q P := by
  rcases (hP h.ready h.schema hwrite).cases with ⟨e, t, hrun, ht⟩ | ⟨w, t, hrun, id, f, hw, ht⟩
  · rw [hrun]; exact h.untouched ht
  · rw [hrun]
    exact h.of_resembles ht rfl (h.recorded.insert hw)

theorem insertMany (h : c.Stocked Q P) (hP : Upheld σ Q P) (stamps : Nat → Stamp) (i : Nat)
    {docs : List Document} (hdocs : ∀ doc ∈ docs, (Value.object doc.fields).WellFormed) :
    (insertMany stamps i docs c).2.Stocked Q P := by
  induction docs generalizing c i with
  | nil => exact h
  | cons doc rest ih =>
    have hdoc : (Write.insert (stamps i) doc).WellFormed := hdocs doc List.mem_cons_self
    have hinsert := h.write hP hdoc
    rw [Write.run] at hinsert
    rw [Collection.insertMany]
    cases hrun : insert (stamps i) doc c with
    | mk r t =>
      rw [hrun] at hinsert
      cases r with
      | error e => rw [bind_of_error hrun]; exact hinsert
      | ok w =>
        rw [bind_of_ok hrun]
        have hrest := ih hinsert (i + 1) fun doc hdoc => hdocs doc (List.mem_cons_of_mem _ hdoc)
        cases hmany : Collection.insertMany stamps (i + 1) rest t with
        | mk r u =>
          rw [hmany] at hrest
          cases r with
          | error e => rw [bind_of_error hmany]; exact hrest
          | ok ws => rw [bind_of_ok hmany]; exact hrest

theorem remove (h : c.Stocked Q P) (id : String) : (remove id c).2.Stocked Q P := by
  rcases (allOrNothing_remove h.ready id).cases with
    ⟨e, t, hrun, ht⟩ | ⟨found, t, hrun, -, ht⟩
  · rw [hrun]; exact h.untouched ht
  · rw [hrun]
    refine h.of_resembles ht ?_ (h.recorded.erase (FallibleStore.ascending h.ready) id)
    cases found <;> rfl

theorem createIndex (h : c.Stocked Q P) (field : String) (kind : IndexKind) :
    (createIndex field kind c).2.Stocked Q P := by
  rcases (allOrNothing_createIndex h.ready field kind).cases with
    ⟨e, t, hrun, ht⟩ | ⟨_, t, hrun, ⟨-, ht⟩ | ⟨-, -, ht⟩⟩
  · rw [hrun]; exact h.untouched ht
  · rw [hrun]; exact h.untouched ht
  · rw [hrun]; exact h.of_resembles ht rfl h.recorded

/-- Where another schema is taken there are no records that were made under the one before. -/
theorem attachSchema [FallibleCount σ] (h : c.Stocked Q P) {s : Option Schema}
    (hs : ∀ t, s = some t → Q t) : (attachSchema s c).2.Stocked Q P := by
  rcases (allOrNothing_attachSchema h.ready s).cases with
    ⟨e, t, hrun, ht⟩ | ⟨_, t, hrun, ⟨-, ht⟩ | ⟨hempty, rfl⟩⟩
  · rw [hrun]; exact h.untouched ht
  · rw [hrun]; exact h.untouched ht
  · rw [hrun]
    have hnone : FallibleStore.records c.store = [] := by
      rw [isEmpty, size] at hempty
      cases hsize : RecordStore.size c.store with
      | error e => rw [hsize] at hempty; cases hempty
      | ok n =>
        rw [hsize] at hempty
        have hzero : n = 0 := by simpa [Except.mapError, Except.map] using hempty
        exact List.eq_nil_of_length_eq_zero
          ((FallibleCount.length_records h.ready hsize).trans hzero)
    refine ⟨h.ready, hs, ?_⟩
    change Recorded P s (FallibleStore.records c.store)
    rw [hnone]
    exact Recorded.nil P s

theorem call [FallibleCount σ] (h : c.Stocked Q P) (hP : Upheld σ Q P) {call : Call}
    (hcall : call.Brings Q) : (call.run c).2.Stocked Q P := by
  cases call with
  | write w => rw [Call.run, snd_discard]; exact h.write hP hcall
  | insertMany stamps docs => rw [Call.run, snd_discard]; exact h.insertMany hP stamps 0 hcall
  | remove id => rw [Call.run, snd_discard]; exact h.remove id
  | createIndex field kind => exact h.createIndex field kind
  | dropIndex field => exact ⟨h.ready, h.schema, h.recorded⟩
  | attachSchema s => exact h.attachSchema hcall

theorem callAll [FallibleCount σ] (h : c.Stocked Q P) (hP : Upheld σ Q P) {calls : List Call}
    (hcalls : ∀ call ∈ calls, call.Brings Q) :
    (calls.foldl (fun c call => (call.run c).2) c).Stocked Q P :=
  List.foldlRecOn (motive := fun c : Collection σ => c.Stocked Q P) calls _ h
    fun _ hc call hcall => hc.call hP (hcalls call hcall)

end Stocked

end Collection
end DocBase
