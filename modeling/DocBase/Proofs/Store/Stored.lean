import DocBase.Proofs.Store.Alike
import DocBase.Proofs.Store.Range

/-! What a store of either kind holds, and what its calls tell of it. Nothing but what it holds
and how much it may hold decides what a store answers, whatever file it keeps. -/
namespace DocBase
open Keyed

namespace Backend

/-- The records of a store, unless it is closed. -/
def stored : Backend → Option (Keyed String Bytes)
  | memory s => if s.closed then none else some s.records
  | log _ _ s => if s.isOpen then some s.records else none

/-- Only logs are compacted. -/
def compact : Backend → Backend
  | memory s => memory s
  | log path file s => log path file s.compact.2

/-- The records are in order, and those of a log are what the log says. -/
inductive Steady : Backend → Prop
  | memory {s : MemoryStore} (h : Ascending s.records) : Steady (memory s)
  | log {path : String} {file : FileId} {s : LogStore} (h : s.Valid) : Steady (log path file s)

/-- What is found under an identifier. -/
def found (now : Option (Keyed String Bytes)) (id : String) : Except StoreError (Option Bytes) :=
  match now with
  | none => .error .closed
  | some records => .ok (records.get? id)

/-- The identifiers that a scan is over. -/
def listed (now : Option (Keyed String Bytes)) (range : ScanRange) :
    Except StoreError (List String) :=
  match now with
  | none => .error .closed
  | some records => .ok (records.keys.filter range.contains)

variable {b : Backend} {records : Keyed String Bytes}

theorem Steady.ascending (h : b.Steady) (hnow : b.stored = some records) : Ascending records := by
  cases h with
  | @memory s h =>
    unfold stored at hnow
    dsimp only at hnow
    split at hnow
    · cases hnow
    · cases hnow
      exact h
  | @log path file s h =>
    unfold stored at hnow
    dsimp only at hnow
    split at hnow
    next hopen =>
      cases hnow
      cases h with
      | recorded fs _ h => exact h.ascending
      | closed hclosed => simp [hclosed] at hopen
    · cases hnow

/-! ## One call -/

theorem Steady.get (h : b.Steady) (id : String) : ∃ b',
    RecordStore.get id b = (found b.stored id, b') ∧ b'.Steady ∧ b'.stored = b.stored := by
  cases h with
  | @memory s h =>
    change ∃ b', lift (MemoryStore.get id) (LogStore.get id) _ = _ ∧ _
    cases hclosed : s.closed with
    | true =>
      have hget : MemoryStore.get id s = (.error .closed, s) := if_pos hclosed
      refine ⟨Backend.memory s, ?_, .memory h, rfl⟩
      simp [lift, hget, stored, hclosed, found]
    | false =>
      have hget : MemoryStore.get id s = (.ok (s.records.get? id),
          { s with counts := s.counts.read }) := if_neg (by simp [hclosed])
      refine ⟨Backend.memory { s with counts := s.counts.read }, ?_, .memory h, rfl⟩
      simp [lift, hget, stored, hclosed, found]
  | @log path file s h =>
    change ∃ b', lift (MemoryStore.get id) (LogStore.get id) _ = _ ∧ _
    have hvalid := (h.get id).1
    cases h with
    | recorded fs hopen h =>
      obtain ⟨cache, -, hget⟩ := h.get hopen id
      rw [hget] at hvalid
      refine ⟨Backend.log path file { s with counts := s.counts.read, cache }, ?_, .log hvalid, rfl⟩
      simp [lift, hget, stored, hopen, found]
    | closed hclosed =>
      have hget : s.get id = (.error .closed, s) := LogStore.whenOpen_of_closed hclosed _
      rw [hget] at hvalid
      refine ⟨Backend.log path file s, ?_, .log hvalid, rfl⟩
      simp [lift, hget, stored, hclosed, found]

theorem Steady.scan (h : b.Steady) (range : ScanRange) : ∃ b',
    RecordStore.scan range b = (listed b.stored range, b') ∧ b'.Steady ∧ b'.stored = b.stored := by
  have hwalk : ∀ records, b.stored = some records →
      range.walk records.keys = records.keys.filter range.contains :=
    fun records hnow => range.walk_eq_filter (pairwise_keys (h.ascending hnow))
  cases h with
  | @memory s h =>
    change ∃ b', lift (MemoryStore.scan range) (LogStore.scan range) _ = _ ∧ _
    cases hclosed : s.closed with
    | true =>
      have hscan : MemoryStore.scan range s = (.error .closed, s) := if_pos hclosed
      refine ⟨Backend.memory s, ?_, .memory h, rfl⟩
      simp [lift, hscan, stored, hclosed, listed]
    | false =>
      have hscan : MemoryStore.scan range s = (.ok (range.walk s.records.keys),
          { s with counts := s.counts.scan }) := if_neg (by simp [hclosed])
      refine ⟨Backend.memory { s with counts := s.counts.scan }, ?_, .memory h, rfl⟩
      simp [lift, hscan, stored, hclosed, listed, hwalk]
  | @log path file s h =>
    change ∃ b', lift (MemoryStore.scan range) (LogStore.scan range) _ = _ ∧ _
    have hvalid := (h.scan range).1
    cases hopen : s.isOpen with
    | true =>
      have hscan : s.scan range = (.ok (range.walk s.records.keys),
          { s with counts := s.counts.scan }) := by
        rw [LogStore.scan, LogStore.whenOpen, if_pos hopen, LogStore.keys_records]
      rw [hscan] at hvalid
      refine ⟨Backend.log path file { s with counts := s.counts.scan }, ?_, .log hvalid, rfl⟩
      simp [lift, hscan, stored, hopen, listed, hwalk]
    | false =>
      have hscan : s.scan range = (.error .closed, s) := LogStore.whenOpen_of_closed hopen _
      rw [hscan] at hvalid
      refine ⟨Backend.log path file s, ?_, .log hvalid, rfl⟩
      simp [lift, hscan, stored, hopen, listed]

/-- Still as it should be, and never open again. -/
structure Follows (b b' : Backend) : Prop where
  steady : b'.Steady
  closed : b.stored = none → b'.stored = none

theorem Steady.refl (h : b.Steady) : Follows b b := ⟨h, id⟩

theorem Steady.put (h : b.Steady) (id : String) (record : Bytes) :
    Follows b (RecordStore.put id record b).2 := by
  cases h with
  | @memory s h =>
    change Follows _ (Backend.memory (MemoryStore.put id record s).2)
    rw [MemoryStore.put, MemoryStore.whenOpen]
    split
    · exact ⟨.memory h, fun hnow => hnow⟩
    next hopen =>
      dsimp only
      split
      · exact ⟨.memory h, fun hnow => hnow⟩
      · exact ⟨.memory (h.insert id record), fun hnow => by simp [stored, hopen] at hnow⟩
  | @log path file s h =>
    refine ⟨.log (h.put_any id record), fun hnow => ?_⟩
    rcases LogStore.put_cases s id record with ⟨e, hput⟩ | ⟨hopen, -, -⟩
    · change stored (Backend.log path file (s.put id record).2) = none
      rw [hput]
      exact hnow
    · simp [stored, hopen] at hnow

theorem Steady.delete (h : b.Steady) (id : String) : Follows b (RecordStore.delete id b).2 := by
  cases h with
  | @memory s h =>
    change Follows _ (Backend.memory (MemoryStore.delete id s).2)
    rw [MemoryStore.delete, MemoryStore.whenOpen]
    split
    · exact ⟨.memory h, fun hnow => hnow⟩
    next hopen =>
      dsimp only
      split
      · exact ⟨.memory h, fun hnow => hnow⟩
      · exact ⟨.memory (h.erase id), fun hnow => by simp [stored, hopen] at hnow⟩
  | @log path file s h =>
    refine ⟨.log (h.delete id).1, fun hnow => ?_⟩
    change stored (Backend.log path file (s.delete id).2) = none
    cases hopen : s.isOpen with
    | true => simp [stored, hopen] at hnow
    | false =>
      rw [LogStore.delete, LogStore.whenOpen_of_closed hopen]
      exact hnow

theorem Steady.compact (h : b.Steady) : Follows b b.compact := by
  cases h with
  | memory h => exact Steady.refl (.memory h)
  | @log path file s h =>
    refine ⟨.log h.compact.1, fun hnow => ?_⟩
    change stored (Backend.log path file s.compact.2) = none
    cases hopen : s.isOpen with
    | true => simp [stored, hopen] at hnow
    | false =>
      rw [LogStore.compact, LogStore.whenOpen_of_closed hopen]
      exact hnow

theorem Steady.close (h : b.Steady) :
    (RecordStore.close b).2.Steady ∧ (RecordStore.close b).2.stored = none := by
  cases h with
  | @memory s h =>
    change Steady (Backend.memory s.close.2) ∧ stored (Backend.memory s.close.2) = none
    exact ⟨.memory ascending_nil, rfl⟩
  | @log path file s h =>
    change Steady (Backend.log path file s.close.2) ∧
      stored (Backend.log path file s.close.2) = none
    refine ⟨.log h.close.1, ?_⟩
    cases hopen : s.isOpen <;> simp [stored, LogStore.close, hopen]

/-- What a store is when it was just opened, on whatever disk. -/
theorem openStore_cases {driver : StoreDriver} {location : String} {c : StoreConfig} {d d' : Disk}
    (hopen : driver.openStore location c d = (.ok b, d')) :
    b = .memory (MemoryStore.open_ c) ∨
      ∃ path file bytes, b = .log path file (LogStore.open_ c bytes) := by
  cases driver with
  | memory =>
    cases hopen
    exact Or.inl rfl
  | log =>
    rw [StoreDriver.openStore, StoreDriver.onLog] at hopen
    cases hpath : Log.path c location with
    | error e => simp [hpath] at hopen
    | ok path =>
      rw [hpath] at hopen
      dsimp only at hopen
      cases hlog : StoreDriver.openLog path c d with
      | mk opened e =>
        rw [hlog] at hopen
        cases opened with
        | error err => cases hopen
        | ok b' =>
          cases hopen
          rw [StoreDriver.openLog] at hlog
          split at hlog
          · cases hlog
          split at hlog
          · cases hlog
          · cases hlog
            exact Or.inr ⟨path, _, _, rfl⟩

/-- A store that was just opened, of either kind and on any disk. -/
theorem steady_openStore {driver : StoreDriver} {location : String} {c : StoreConfig} {d d' : Disk}
    (hopen : driver.openStore location c d = (.ok b, d')) : b.Steady := by
  rcases openStore_cases hopen with rfl | ⟨path, file, bytes, rfl⟩
  · exact .memory ascending_nil
  · exact .log (.recorded _ rfl (LogStore.recorded_open c bytes))

/-! ## Stores that hold the same -/

/-- In memory with the same records and limits, or so in what the logs say: nothing else of the
files need be the same. -/
inductive Matched : Backend → Backend → Prop
  | memory {s t : MemoryStore} (h : s.Alike t) : Matched (memory s) (memory t)
  | log {path : String} {file : FileId} {s t : LogStore} (hs : s.Valid) (ht : t.Valid)
      (h : s.inMemory.Alike t.inMemory) : Matched (log path file s) (log path file t)

variable {c : Backend}

theorem Steady.matched (h : b.Steady) : Matched b b := by
  cases h with
  | memory h => exact .memory ⟨_, rfl⟩
  | log h => exact .log h h ⟨_, rfl⟩

theorem Matched.symm (h : Matched b c) : Matched c b := by
  have hsymm : ∀ {s t : MemoryStore}, s.Alike t → t.Alike s := by
    rintro s _ ⟨counts, rfl⟩
    exact ⟨s.counts, rfl⟩
  cases h with
  | memory h => exact .memory (hsymm h)
  | log hs ht h => exact .log ht hs (hsymm h)

theorem Matched.stored_eq (h : Matched b c) : b.stored = c.stored := by
  have hmemory : ∀ {s t : MemoryStore}, s.Alike t →
      (Backend.memory s).stored = (Backend.memory t).stored := by
    rintro s _ ⟨counts, rfl⟩
    rfl
  have hlog : ∀ path file (s : LogStore),
      (Backend.log path file s).stored = (Backend.memory s.inMemory).stored := by
    intro path file s
    cases hopen : s.isOpen <;> simp [stored, LogStore.inMemory, hopen]
  cases h with
  | memory h => exact hmemory h
  | log hs ht h => rw [hlog, hlog, hmemory h]

section
variable {α : Type} {onMemory : MemoryStore → α × MemoryStore} {onLog : LogStore → α × LogStore}

/-- A call does in a log what it does in memory, so it is enough to look at memory. -/
theorem Matched.lift (h : Matched b c)
    (hmemory : ∀ {s t : MemoryStore}, s.Alike t → (onMemory s).2.Alike (onMemory t).2)
    (hlog : ∀ {s : LogStore}, s.Valid →
      (onLog s).2.Valid ∧ onMemory s.inMemory = ((onLog s).1, (onLog s).2.inMemory)) :
    Matched (Backend.lift onMemory onLog b).2 (Backend.lift onMemory onLog c).2 := by
  cases h with
  | memory h => exact .memory (hmemory h)
  | log hs ht h =>
    obtain ⟨hvalid, hinMemory⟩ := hlog hs
    obtain ⟨hvalid', hinMemory'⟩ := hlog ht
    have hafter := hmemory h
    rw [hinMemory, hinMemory'] at hafter
    exact .log hvalid hvalid' hafter

theorem Matched.lift_left (h : Matched b c)
    (hmemory : ∀ {s t : MemoryStore}, s.Alike t → (onMemory s).2.Alike t)
    (hlog : ∀ {s : LogStore}, s.Valid →
      (onLog s).2.Valid ∧ onMemory s.inMemory = ((onLog s).1, (onLog s).2.inMemory)) :
    Matched (Backend.lift onMemory onLog b).2 c := by
  cases h with
  | memory h => exact .memory (hmemory h)
  | log hs ht h =>
    obtain ⟨hvalid, hinMemory⟩ := hlog hs
    have hafter := hmemory h
    rw [hinMemory] at hafter
    exact .log hvalid ht hafter

end

theorem Matched.get (h : Matched b c) (id : String) : Matched (RecordStore.get id b).2 c :=
  h.lift_left (fun h => MemoryStore.unmoved_alike.get h id) (fun h => h.get id)

theorem Matched.scan (h : Matched b c) (range : ScanRange) :
    Matched (RecordStore.scan range b).2 c :=
  h.lift_left (fun h => MemoryStore.unmoved_alike.scan h range) (fun h => h.scan range)

theorem Matched.compact (h : Matched b c) : Matched b.compact c := by
  cases h with
  | memory h => exact .memory h
  | log hs ht h =>
    obtain ⟨hvalid, hsame⟩ := hs.compact
    exact .log hvalid ht (by rw [hsame]; exact h)

theorem alike_after {α : Type} {x y : α × MemoryStore}
    (h : ∃ r s t, x = (r, s) ∧ y = (r, t) ∧ s.Alike t) : x.2.Alike y.2 := by
  obtain ⟨r, s, t, rfl, rfl, hst⟩ := h
  exact hst

theorem Matched.delete (h : Matched b c) (id : String) :
    Matched (RecordStore.delete id b).2 (RecordStore.delete id c).2 :=
  h.lift (fun h => alike_after (MemoryStore.indistinct_alike.delete h id)) (fun h => h.delete id)

theorem Matched.close (h : Matched b c) :
    Matched (RecordStore.close b).2 (RecordStore.close c).2 :=
  h.lift (fun h => alike_after (MemoryStore.indistinct_alike.close h)) (fun h => h.close)

theorem Matched.put (h : Matched b c) (id : String) (record : Bytes) :
    Matched (RecordStore.put id record b).2 (RecordStore.put id record c).2 := by
  have hmemory : ∀ {s t : MemoryStore}, s.Alike t →
      (MemoryStore.put id record s).2.Alike (MemoryStore.put id record t).2 :=
    fun h => alike_after (MemoryStore.indistinct_alike.put h id record)
  cases h with
  | memory h => exact .memory (hmemory h)
  | @log path file s t hs ht h =>
    change Matched (Backend.log path file (s.put id record).2)
      (Backend.log path file (t.put id record).2)
    -- What does not fit into a frame is refused by every log, and would go into memory.
    by_cases hfits : LogStore.Encodable id record
    · obtain ⟨hvalid, hinMemory⟩ := hs.put hfits
      obtain ⟨hvalid', hinMemory'⟩ := ht.put hfits
      have hafter := hmemory h
      rw [hinMemory, hinMemory'] at hafter
      exact .log hvalid hvalid' hafter
    · have hrefused : ∀ s : LogStore, (s.put id record).2 = s := by
        intro s
        rcases LogStore.put_cases s id record with ⟨e, hput⟩ | ⟨-, hencodable, -⟩
        · rw [hput]
        · exact absurd hencodable hfits
      rw [hrefused s, hrefused t]
      exact .log hs ht h

end Backend
end DocBase
