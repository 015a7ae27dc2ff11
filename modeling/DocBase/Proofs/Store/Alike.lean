import DocBase.Proofs.Query.Ordered
import DocBase.Proofs.Store.Equivalence
import DocBase.Store.Driver

/-! Stores that differ in nothing but what they have counted and cached. No call tells them
apart, and reading is nothing but counting and caching. -/
namespace DocBase
open Keyed

namespace MemoryStore

/-- Alike but for what was counted. -/
def Alike (s t : MemoryStore) : Prop := ∃ counts, t = { s with counts }

theorem indistinct_alike : Indistinct Alike where
  get := by
    rintro s _ ⟨counts, rfl⟩ id
    change ∃ r s' t', MemoryStore.get id s = (r, s') ∧ MemoryStore.get id _ = (r, t') ∧ _
    rw [MemoryStore.get, MemoryStore.get, whenOpen, whenOpen]
    dsimp only
    split
    · exact ⟨_, _, _, rfl, rfl, counts, rfl⟩
    · exact ⟨_, _, _, rfl, rfl, _, rfl⟩
  scan := by
    rintro s _ ⟨counts, rfl⟩ range
    change ∃ r s' t', MemoryStore.scan range s = (r, s') ∧ MemoryStore.scan range _ = (r, t') ∧ _
    rw [MemoryStore.scan, MemoryStore.scan, whenOpen, whenOpen]
    dsimp only
    split
    · exact ⟨_, _, _, rfl, rfl, counts, rfl⟩
    · exact ⟨_, _, _, rfl, rfl, _, rfl⟩
  put := by
    rintro s _ ⟨counts, rfl⟩ id record
    change ∃ r s' t', MemoryStore.put id record s = (r, s') ∧
      MemoryStore.put id record _ = (r, t') ∧ _
    rw [MemoryStore.put, MemoryStore.put, whenOpen, whenOpen]
    dsimp only
    split
    · exact ⟨_, _, _, rfl, rfl, counts, rfl⟩
    split
    · exact ⟨_, _, _, rfl, rfl, counts, rfl⟩
    · exact ⟨_, _, _, rfl, rfl, _, rfl⟩
  delete := by
    rintro s _ ⟨counts, rfl⟩ id
    change ∃ r s' t', MemoryStore.delete id s = (r, s') ∧
      MemoryStore.delete id _ = (r, t') ∧ _
    rw [MemoryStore.delete, MemoryStore.delete, whenOpen, whenOpen]
    dsimp only
    split
    · exact ⟨_, _, _, rfl, rfl, counts, rfl⟩
    split
    · exact ⟨_, _, _, rfl, rfl, _, rfl⟩
    · exact ⟨_, _, _, rfl, rfl, _, rfl⟩
  close := by
    rintro s _ ⟨counts, rfl⟩
    exact ⟨_, _, _, rfl, rfl, counts, rfl⟩
  size := by
    rintro s _ ⟨counts, rfl⟩
    rfl

theorem unmoved_alike : Unmoved Alike where
  get := by
    rintro s _ ⟨counts, rfl⟩ id
    change Alike (MemoryStore.get id s).2 _
    rw [MemoryStore.get, whenOpen]
    split <;> exact ⟨counts, rfl⟩
  scan := by
    rintro s _ ⟨counts, rfl⟩ range
    change Alike (MemoryStore.scan range s).2 _
    rw [MemoryStore.scan, whenOpen]
    split <;> exact ⟨counts, rfl⟩

end MemoryStore

namespace LogStore
open Log

/-- The store with other things counted and cached. -/
def tracked (s : LogStore) (cache : Cache) (counts : OpCounts) : LogStore := { s with cache, counts }

/-- The log has given way to a shorter one only if nothing is in the way, and the store is open
only if it was opened. -/
structure Kept (obstacle : Option StoreError) (opened : Bool) (s : LogStore) : Prop where
  obstacle_eq : s.obstacle = obstacle
  left : s.left.isSome → obstacle = none
  opened : s.isOpen → opened = true

/-- Alike but for what was counted and cached. -/
structure Alike (obstacle : Option StoreError) (opened : Bool) (s t : LogStore) : Prop where
  rest : ∃ cache counts, t = s.tracked cache counts
  valid : s.Valid
  valid' : t.Valid
  kept : s.Kept obstacle opened

variable {obstacle : Option StoreError} {opened : Bool} {s t : LogStore}

/-! ## Steps -/

theorem compact_tracked (s : LogStore) (cache : Cache) (counts : OpCounts) :
    (s.tracked cache counts).compact = (s.compact.1, s.compact.2.tracked cache counts) := by
  obtain ⟨file, obstacle, left, isOpen, index, _, _, _, _, _, _, _⟩ := s
  dsimp only [compact, whenOpen, tracked]
  cases isOpen with
  | false => rfl
  | true =>
    cases obstacle with
    | some e => rfl
    | none => cases liveLog file index .empty [] <;> rfl

theorem compactIfDue_tracked (s : LogStore) (cache : Cache) (counts : OpCounts) :
    (s.tracked cache counts).compactIfDue = s.compactIfDue.tracked cache counts := by
  rw [compactIfDue, compactIfDue, compact_tracked]
  change (if compactionThreshold ≤ s.deadBytes ∧ s.liveBytes < s.deadBytes then _ else _) = _
  split <;> rfl

/-- Whether the limits let the record in. -/
def admits (s : LogStore) (id : String) (record : Bytes) : Except StoreError Unit :=
  checkLimits s.maxRecords s.maxBytes
    (s.index.length + if (s.index.get? id).isNone then 1 else 0)
    (s.liveBytes - ((s.index.get? id).map (·.length)).getD 0 + record.size)

theorem put_of_open (hopen : s.isOpen) {id : String} {record : Bytes}
    (hsize : ¬ UInt32.size ≤ record.size) : s.put id record =
      match s.admits id record with
      | .error e => (.error e, s)
      | .ok () =>
        match Frame.encode Crc32.ofBytes { op := .put, id, data := record } with
        | .error e => (.error e, s)
        | .ok _ => (.ok (), (s.written id record).compactIfDue) := by
  rw [put, if_neg hsize, whenOpen, if_pos hopen, admits]
  dsimp only
  generalize checkLimits _ _ _ _ = limits
  cases limits with
  | error e => rfl
  | ok _ =>
    cases hencode : Frame.encode Crc32.ofBytes { op := .put, id, data := record } with
    | error e => rfl
    | ok encoded =>
      obtain ⟨rfl, -, -⟩ := Frame.encode_eq_ok hencode
      rfl

theorem put_tracked (s : LogStore) (cache : Cache) (counts : OpCounts) (id : String)
    (record : Bytes) : ∃ cache' counts', (s.tracked cache counts).put id record =
      ((s.put id record).1, (s.put id record).2.tracked cache' counts') := by
  by_cases hsize : UInt32.size ≤ record.size
  · rw [put, put, if_pos hsize, if_pos hsize]
    exact ⟨cache, counts, rfl⟩
  cases hopen : s.isOpen with
  | false =>
    have hclosed : ¬ s.isOpen = true := by simp [hopen]
    have hclosed' : ¬ (s.tracked cache counts).isOpen = true := hclosed
    rw [put, put, if_neg hsize, if_neg hsize, whenOpen, whenOpen, if_neg hclosed, if_neg hclosed']
    exact ⟨cache, counts, rfl⟩
  | true =>
    have hopen' : (s.tracked cache counts).isOpen = true := hopen
    have hwritten : (s.tracked cache counts).written id record =
        (s.written id record).tracked (cache.insert id record) counts.write := rfl
    have hadmits : (s.tracked cache counts).admits id record = s.admits id record := rfl
    rw [put_of_open hopen hsize, put_of_open hopen' hsize, hwritten, compactIfDue_tracked, hadmits]
    cases s.admits id record with
    | error e => exact ⟨cache, counts, rfl⟩
    | ok _ =>
      cases Frame.encode Crc32.ofBytes { op := .put, id, data := record } with
      | error e => exact ⟨cache, counts, rfl⟩
      | ok encoded => exact ⟨cache.insert id record, counts.write, rfl⟩

theorem whenOpen_of_closed {α : Type} (h : s.isOpen = false) (f : Except StoreError α × LogStore) :
    s.whenOpen f = (.error .closed, s) := if_neg (by simp [h])

/-- Stores that differ in what they counted and cached are both closed, or their logs are both what
was recorded. -/
theorem closed_or_recorded_tracked (hvalid : s.Valid) {cache : Cache} {counts : OpCounts}
    (hvalid' : (s.tracked cache counts).Valid) :
    (s.isOpen = false ∧ (s.tracked cache counts).isOpen = false) ∨
      (s.isOpen = true ∧ ∃ fs gs, s.Recorded fs ∧ (s.tracked cache counts).Recorded gs) := by
  have hopen : (s.tracked cache counts).isOpen = s.isOpen := rfl
  cases hvalid with
  | closed hclosed => exact .inl ⟨hclosed, hopen.trans hclosed⟩
  | recorded fs hs h =>
    cases hvalid' with
    | closed hclosed =>
      rw [hopen, hs] at hclosed
      cases hclosed
    | recorded gs _ h' => exact .inr ⟨hs, fs, gs, h, h'⟩

theorem delete_tracked (hvalid : s.Valid) {cache : Cache} {counts : OpCounts}
    (hvalid' : (s.tracked cache counts).Valid) (id : String) :
    ∃ cache' counts', (s.tracked cache counts).delete id =
      ((s.delete id).1, (s.delete id).2.tracked cache' counts') := by
  rcases closed_or_recorded_tracked hvalid hvalid' with ⟨hs, ht⟩ | ⟨hs, fs, gs, h, h'⟩
  · rw [LogStore.delete, LogStore.delete, whenOpen_of_closed hs, whenOpen_of_closed ht]
    exact ⟨cache, counts, rfl⟩
  · have hindex : (s.tracked cache counts).index = s.index := rfl
    rw [h.delete hs, h'.delete hs, hindex]
    cases s.index.get? id with
    | none => exact ⟨cache, counts.delete, rfl⟩
    | some old =>
      have hremoved : (s.tracked cache counts).removed id old =
          (s.removed id old).tracked (cache.remove id) counts.delete := rfl
      dsimp only
      rw [hremoved, compactIfDue_tracked]
      exact ⟨_, _, rfl⟩

theorem get_tracked (hvalid : s.Valid) {cache : Cache} {counts : OpCounts}
    (hvalid' : (s.tracked cache counts).Valid) (id : String) :
    ∃ cache' counts', (s.tracked cache counts).get id =
      ((s.get id).1, (s.get id).2.tracked cache' counts') := by
  rcases closed_or_recorded_tracked hvalid hvalid' with ⟨hs, ht⟩ | ⟨hs, fs, gs, h, h'⟩
  · rw [LogStore.get, LogStore.get, whenOpen_of_closed hs, whenOpen_of_closed ht]
    exact ⟨cache, counts, rfl⟩
  · obtain ⟨_, -, hget⟩ := h.get hs id
    obtain ⟨cache', -, hget'⟩ := h'.get hs id
    rw [hget, hget']
    exact ⟨cache', counts.read, rfl⟩

theorem scan_tracked (s : LogStore) (cache : Cache) (counts : OpCounts) (range : ScanRange) :
    ∃ counts', (s.tracked cache counts).scan range =
      ((s.scan range).1, (s.scan range).2.tracked cache counts') := by
  cases hopen : s.isOpen with
  | false =>
    have hclosed : (s.tracked cache counts).isOpen = false := hopen
    rw [LogStore.scan, LogStore.scan, whenOpen_of_closed hopen, whenOpen_of_closed hclosed]
    exact ⟨counts, rfl⟩
  | true =>
    have hopen' : (s.tracked cache counts).isOpen = true := hopen
    rw [LogStore.scan, LogStore.scan, whenOpen, whenOpen, if_pos hopen, if_pos hopen']
    exact ⟨counts.scan, rfl⟩

theorem close_tracked (s : LogStore) (cache : Cache) (counts : OpCounts) :
    ∃ cache', (s.tracked cache counts).close = (s.close.1, s.close.2.tracked cache' counts) := by
  cases hopen : s.isOpen with
  | false =>
    have hclosed : ¬ (s.tracked cache counts).isOpen = true := by
      rw [show (s.tracked cache counts).isOpen = s.isOpen from rfl, hopen]
      exact Bool.false_ne_true
    rw [LogStore.close, LogStore.close, if_neg hclosed, if_neg (by simp [hopen])]
    exact ⟨cache, rfl⟩
  | true =>
    have hopen' : (s.tracked cache counts).isOpen = true := hopen
    rw [LogStore.close, LogStore.close, if_pos hopen, if_pos hopen']
    exact ⟨cache.clear, rfl⟩

/-- Reading is nothing but counting and caching. -/
theorem get_eq_tracked (s : LogStore) (id : String) :
    ∃ cache counts, (s.get id).2 = s.tracked cache counts := by
  rw [LogStore.get, whenOpen]
  split
  · dsimp only
    split
    · exact ⟨s.cache, s.counts.read, rfl⟩
    split
    · exact ⟨s.cache, s.counts.read, rfl⟩
    split
    · exact ⟨_, s.counts.read, rfl⟩
    · exact ⟨s.cache, s.counts.read, rfl⟩
  · exact ⟨s.cache, s.counts, rfl⟩

theorem scan_eq_tracked (s : LogStore) (range : ScanRange) :
    ∃ counts, (s.scan range).2 = s.tracked s.cache counts := by
  rw [LogStore.scan, whenOpen]
  split
  · exact ⟨s.counts.scan, rfl⟩
  · exact ⟨s.counts, rfl⟩

/-! ## What stays -/

theorem Kept.read (h : s.Kept obstacle opened) {cache : Cache} {counts : OpCounts}
    (hread : t = s.tracked cache counts) : t.Kept obstacle opened := by
  rw [hread]
  exact ⟨h.obstacle_eq, h.left, h.opened⟩

theorem Kept.compactIfDue (h : s.Kept obstacle opened) : s.compactIfDue.Kept obstacle opened := by
  rw [LogStore.compactIfDue]
  split
  · rw [compact, whenOpen]
    split
    · split
      · exact h
      · exact h
      next hnone _ =>
        exact ⟨h.obstacle_eq, fun _ => h.obstacle_eq.symm.trans hnone, h.opened⟩
    · exact h
  · exact h

theorem Kept.put (h : s.Kept obstacle opened) (id : String) (record : Bytes) :
    (s.put id record).2.Kept obstacle opened := by
  rcases put_cases s id record with ⟨e, hput⟩ | ⟨-, -, hput⟩
  · rw [hput]
    exact h
  · have hwritten : (s.written id record).Kept obstacle opened :=
      ⟨h.obstacle_eq, h.left, h.opened⟩
    rw [hput]
    exact hwritten.compactIfDue

theorem Kept.delete (hvalid : s.Valid) (h : s.Kept obstacle opened) (id : String) :
    (s.delete id).2.Kept obstacle opened := by
  cases hvalid with
  | closed hclosed =>
    rw [LogStore.delete, whenOpen_of_closed hclosed]
    exact h
  | recorded fs hs hrecorded =>
    rw [hrecorded.delete hs]
    cases s.index.get? id with
    | none => exact ⟨h.obstacle_eq, h.left, h.opened⟩
    | some old =>
      have hremoved : (s.removed id old).Kept obstacle opened :=
        ⟨h.obstacle_eq, h.left, h.opened⟩
      exact hremoved.compactIfDue

theorem Kept.close (h : s.Kept obstacle opened) : s.close.2.Kept obstacle opened := by
  rw [LogStore.close]
  split
  · exact ⟨h.obstacle_eq, h.left, fun hopen => absurd hopen Bool.false_ne_true⟩
  · exact h

theorem Valid.put_any (h : s.Valid) (id : String) (record : Bytes) : (s.put id record).2.Valid := by
  rcases put_cases s id record with ⟨e, hput⟩ | ⟨-, hfits, -⟩
  · rw [hput]
    exact h
  · exact (h.put hfits).1

/-! ## No call tells such stores apart -/

theorem indistinct_alike (obstacle : Option StoreError) (opened : Bool) :
    Indistinct (Alike obstacle opened) where
  get := by
    rintro s _ ⟨⟨cache, counts, rfl⟩, hvalid, hvalid', hkept⟩ id
    obtain ⟨cache', counts', hget⟩ := get_tracked hvalid hvalid' id
    obtain ⟨_, _, hread⟩ := get_eq_tracked s id
    have hafter := (hvalid'.get id).1
    rw [hget] at hafter
    exact ⟨_, _, _, rfl, hget, ⟨_, _, rfl⟩, (hvalid.get id).1, hafter, hkept.read hread⟩
  scan := by
    rintro s _ ⟨⟨cache, counts, rfl⟩, hvalid, hvalid', hkept⟩ range
    obtain ⟨counts', hscan⟩ := scan_tracked s cache counts range
    obtain ⟨_, hread⟩ := scan_eq_tracked s range
    have hafter := (hvalid'.scan range).1
    rw [hscan] at hafter
    exact ⟨_, _, _, rfl, hscan, ⟨_, _, rfl⟩, (hvalid.scan range).1, hafter, hkept.read hread⟩
  put := by
    rintro s _ ⟨⟨cache, counts, rfl⟩, hvalid, hvalid', hkept⟩ id record
    obtain ⟨cache', counts', hput⟩ := put_tracked s cache counts id record
    have hafter := hvalid'.put_any id record
    rw [hput] at hafter
    exact ⟨_, _, _, rfl, hput, ⟨_, _, rfl⟩, hvalid.put_any id record, hafter, hkept.put id record⟩
  delete := by
    rintro s _ ⟨⟨cache, counts, rfl⟩, hvalid, hvalid', hkept⟩ id
    obtain ⟨cache', counts', hdelete⟩ := delete_tracked hvalid hvalid' id
    have hafter := (hvalid'.delete id).1
    rw [hdelete] at hafter
    exact ⟨_, _, _, rfl, hdelete, ⟨_, _, rfl⟩, (hvalid.delete id).1, hafter,
      hkept.delete hvalid id⟩
  close := by
    rintro s _ ⟨⟨cache, counts, rfl⟩, hvalid, hvalid', hkept⟩
    obtain ⟨cache', hclose⟩ := close_tracked s cache counts
    have hafter := hvalid'.close.1
    rw [hclose] at hafter
    exact ⟨_, _, _, rfl, hclose, ⟨_, _, rfl⟩, hvalid.close.1, hafter, hkept.close⟩
  size := by
    rintro s _ ⟨⟨cache, counts, rfl⟩, -, -, -⟩
    rfl

theorem unmoved_alike (obstacle : Option StoreError) (opened : Bool) :
    Unmoved (Alike obstacle opened) where
  get := by
    rintro s _ ⟨⟨cache, counts, rfl⟩, hvalid, hvalid', hkept⟩ id
    obtain ⟨_, _, hread⟩ := get_eq_tracked s id
    refine ⟨⟨cache, counts, ?_⟩, (hvalid.get id).1, hvalid', hkept.read hread⟩
    change _ = (s.get id).2.tracked cache counts
    rw [hread]
    rfl
  scan := by
    rintro s _ ⟨⟨cache, counts, rfl⟩, hvalid, hvalid', hkept⟩ range
    obtain ⟨_, hread⟩ := scan_eq_tracked s range
    refine ⟨⟨cache, counts, ?_⟩, (hvalid.scan range).1, hvalid', hkept.read hread⟩
    change _ = (s.scan range).2.tracked cache counts
    rw [hread]
    rfl

end LogStore
end DocBase
