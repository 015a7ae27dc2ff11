import DocBase.Proofs.Collection.Stock
import DocBase.Proofs.Schema.Complete

/-! Updates that ask for nothing. The defaults of the schema are filled in once more, and what
comes of it is the same document where no default is missing from its fields. -/
namespace DocBase
open Keyed

/-! ## Stored documents -/
namespace Document
variable {schema : Option Schema} {id : String} {d w : Document}

namespace FilledUnder

/-- What is read back are the fields of users. -/
theorem read (h : w.FilledUnder schema id) (hschema : ∀ s, schema = some s → s.Tidy)
    (hd : decode w.encode = .ok d) : ∃ e : Document, e.WellFormed ∧
      w.fields = (e.withDefaults schema).fields ∧
      d.fields = (e.withDefaults schema).stripReserved.fields := by
  obtain ⟨e, he, hfields⟩ := h.filled
  have hordered := h.ordered fun s hs => (hschema s hs).wellFormed
  have hread := stripReserved_of_decode_encode hordered h.finite hd
  refine ⟨e, he, hfields, hread.symm.trans ?_⟩
  simp only [stripReserved, hfields]

end FilledUnder
end Document

/-! ## Updates that ask for nothing -/
namespace Collection
variable {σ : Type} [RecordStore σ] [FallibleStore σ] {c : Collection σ} {id : String}
  {record : Bytes} {d : Document}

end Collection
end DocBase
