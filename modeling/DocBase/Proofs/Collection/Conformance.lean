import DocBase.Proofs.Collection.Stock

/-! Stored documents fit the schema that is in force. Each was checked with its defaults in
place before it was written, and is read as it was written; and a collection takes another
schema only while it is empty. -/
namespace DocBase
open Keyed

/-! ## Checked documents -/

/-- The fields of objects ascend in all defaults, and no default is under a name of the
engine. -/
def Schema.Ordinary (s : Schema) : Prop := s.WellFormed ∧ ¬ s.FillsReserved

/-- Records of documents that can be written, and that fit the schema. -/
def Conforming (schema : Option Schema) (m : Keyed String Bytes) : Prop :=
  ∀ id record, m.get? id = some record → ∃ w : Document, record = w.encode ∧ w.WellFormed ∧
    w.nonFinitePath = none ∧ ∀ s, schema = some s → s.validate w = .ok ()

namespace Conforming
variable {schema : Option Schema} {m : Keyed String Bytes}

theorem nil (schema : Option Schema) : Conforming schema [] := fun _ _ h => nomatch h

end Conforming

namespace Call

/-- The fields of objects ascend in all values that the call brings along, and the schemas are
such as well. -/
def Ordinary : Call → Prop
  | attachSchema s => ∀ t, s = some t → t.Ordinary
  | call => call.WellFormed

end Call

namespace Collection

/-! ## What is reported -/

section
variable {σ : Type} [RecordStore σ]

end

/-! ## What every call keeps -/

variable {σ : Type} [RecordStore σ] [FallibleStore σ] {c t : Collection σ}

/-- The schema in force fills in no names of the engine, and all records conform to it. -/
structure InForce (c : Collection σ) : Prop where
  ready : FallibleStore.Ready c.store
  ordinary : ∀ s, c.schema = some s → s.Ordinary
  conforming : Conforming c.schema (FallibleStore.records c.store)

/-- A document can be written, and fits the schema. -/
def Fits (schema : Option Schema) (_ : String) (w : Document) : Prop :=
  w.WellFormed ∧ w.nonFinitePath = none ∧ ∀ s, schema = some s → s.validate w = .ok ()

theorem upheld_fits : Upheld σ Schema.Ordinary Fits := by
  intro c hready hschema write hwrite
  have hwell : ∀ s, c.schema = some s → s.WellFormed := fun s hs => (hschema s hs).1
  refine (allOrNothing_write_filled hready hwrite).mono ?_
  rintro w t ⟨id, f, hfilled, ht⟩
  have hmade := hfilled.madeUnder hwell
  have hfree : ∀ s, c.schema = some s → ¬ s.FillsReserved := fun s hs => (hschema s hs).2
  exact ⟨id, f, ⟨hmade.unreserved.mpr hfree, hmade.finite, hfilled.valid⟩, ht⟩

namespace InForce

theorem iff_stocked : c.InForce ↔ c.Stocked Schema.Ordinary Fits :=
  ⟨fun h => ⟨h.ready, h.ordinary, h.conforming⟩, fun h => ⟨h.ready, h.schema, h.recorded⟩⟩

theorem callAll [FallibleCount σ] (h : c.InForce) {calls : List Call}
    (hcalls : ∀ call ∈ calls, call.Ordinary) :
    (calls.foldl (fun c call => (call.run c).2) c).InForce := by
  refine iff_stocked.mpr ((iff_stocked.mp h).callAll upheld_fits fun call hcall => ?_)
  have hcall := hcalls call hcall
  cases call <;> exact hcall

end InForce

end Collection
end DocBase
