import DocBase.Proofs.Store.Log
import DocBase.Store.Memory

/-! What every open store does to its records. Both kinds of stores keep these laws, and
what is built on stores is proved from the laws alone. -/
namespace DocBase
open Keyed

class LawfulStore (σ : Type) [RecordStore σ] where
  records : σ → Keyed String Bytes
  /-- Open, and with all its parts in step. -/
  Ready : σ → Prop
  ascending {s : σ} : Ready s → Ascending (records s)
  get {s : σ} (h : Ready s) (id : String) : ∃ t,
    RecordStore.get id s = (.ok ((records s).get? id), t) ∧ Ready t ∧ records t = records s
  scan {s : σ} (h : Ready s) (range : ScanRange) : ∃ t,
    RecordStore.scan range s = (.ok (range.walk (records s).keys), t) ∧ Ready t ∧
      records t = records s
  /-- A record that is refused leaves the others alone. -/
  put {s : σ} (h : Ready s) (id : String) (record : Bytes) : ∃ r t,
    RecordStore.put id record s = (r, t) ∧ Ready t ∧
      (r = .ok () ∧ records t = (records s).insert id record ∨
        (∃ e, r = .error e) ∧ records t = records s)
  delete {s : σ} (h : Ready s) (id : String) : ∃ t,
    RecordStore.delete id s = (.ok ((records s).contains id), t) ∧ Ready t ∧
      records t = (records s).erase id

namespace MemoryStore

instance : LawfulStore MemoryStore where
  records s := s.records
  Ready s := s.closed = false ∧ Ascending s.records
  ascending h := h.2
  get {s} h id := by
    refine ⟨{ s with counts := s.counts.read }, ?_, h, rfl⟩
    change MemoryStore.get id s = _
    rw [MemoryStore.get, whenOpen, if_neg (by simp [h.1])]
  scan {s} h range := by
    refine ⟨{ s with counts := s.counts.scan }, ?_, h, rfl⟩
    change MemoryStore.scan range s = _
    rw [MemoryStore.scan, whenOpen, if_neg (by simp [h.1])]
  put {s} h id record := by
    change ∃ r t, MemoryStore.put id record s = (r, t) ∧ _
    rw [MemoryStore.put, whenOpen, if_neg (by simp [h.1])]
    dsimp only
    split
    · exact ⟨_, _, rfl, h, Or.inr ⟨⟨_, rfl⟩, rfl⟩⟩
    · exact ⟨_, _, rfl, ⟨h.1, h.2.insert id record⟩, Or.inl ⟨rfl, rfl⟩⟩
  delete {s} h id := by
    change ∃ t, MemoryStore.delete id s = _ ∧ _
    rw [MemoryStore.delete, whenOpen, if_neg (by simp [h.1]), contains]
    dsimp only
    cases hget : s.records.get? id with
    | none => exact ⟨_, rfl, h, (erase_of_get?_none hget).symm⟩
    | some record => exact ⟨_, rfl, ⟨h.1, h.2.erase id⟩, rfl⟩

end MemoryStore

namespace LogStore
open Log

instance : LawfulStore LogStore where
  records := LogStore.records
  Ready s := s.isOpen = true ∧ ∃ fs, s.Recorded fs
  ascending := fun ⟨_, _, h⟩ => h.ascending
  get := by
    rintro s ⟨hopen, fs, h⟩ id
    obtain ⟨cache, hcache, hget⟩ := h.get hopen id
    exact ⟨_, hget, ⟨hopen, fs, h.fits, h.file, h.replay, hcache⟩, rfl⟩
  scan := by
    rintro s ⟨hopen, fs, h⟩ range
    refine ⟨{ s with counts := s.counts.scan }, ?_,
      ⟨hopen, fs, h.fits, h.file, h.replay, h.cached⟩, rfl⟩
    change s.scan range = _
    rw [LogStore.scan, whenOpen, if_pos hopen, records, contents, keys_mapValues]
  put := by
    rintro s ⟨hopen, fs, h⟩ id record
    rcases put_cases s id record with ⟨e, hput⟩ | ⟨-, hfits, hput⟩
    · exact ⟨_, _, hput, ⟨hopen, fs, h⟩, Or.inr ⟨⟨e, rfl⟩, rfl⟩⟩
    · have hf := Frame.Fits.of_size hfits.1 hfits.2
      obtain ⟨hrecorded, hrecords⟩ := (h.written hf).compactIfDue
      refine ⟨_, _, hput, ⟨by rw [isOpen_compactIfDue]; exact hopen, hrecorded⟩, Or.inl ⟨rfl, ?_⟩⟩
      rw [hrecords, h.records_written hf]
  delete := by
    rintro s ⟨hopen, fs, h⟩ id
    change ∃ t, s.delete id = _ ∧ _
    rw [h.delete hopen id, contains, get?_records]
    cases hold : s.index.get? id with
    | none =>
      refine ⟨_, rfl, ⟨hopen, fs, h.fits, h.file, h.replay, h.cached⟩, ?_⟩
      exact (erase_of_get?_none (by rw [get?_records, hold]; rfl)).symm
    | some old =>
      obtain ⟨hrecorded, hrecords⟩ := (h.removed hold).compactIfDue
      refine ⟨_, rfl, ⟨by rw [isOpen_compactIfDue]; exact hopen, hrecorded⟩, ?_⟩
      rw [hrecords, h.records_removed hold]

end LogStore
end DocBase
