import DocBase.Proofs.Store.Laws

/-! Stores of which any call may fail. A call that fails leaves the records as they were, and
what is built on such stores is proved from this alone. Both kinds of stores are among them,
open or closed, and so is any of them with faults put in front of its calls. -/
namespace DocBase
open Keyed

class FallibleStore (σ : Type) [RecordStore σ] where
  records : σ → Keyed String Bytes
  /-- With all its parts in step, whether open or not. -/
  Ready : σ → Prop
  ascending {s : σ} : Ready s → Ascending (records s)
  get {s : σ} (h : Ready s) (id : String) : ∃ r t,
    RecordStore.get id s = (r, t) ∧ Ready t ∧ records t = records s ∧
      (r = .ok ((records s).get? id) ∨ ∃ e, r = .error e)
  scan {s : σ} (h : Ready s) (range : ScanRange) : ∃ r t,
    RecordStore.scan range s = (r, t) ∧ Ready t ∧ records t = records s ∧
      (r = .ok (range.walk (records s).keys) ∨ ∃ e, r = .error e)
  put {s : σ} (h : Ready s) (id : String) (record : Bytes) : ∃ r t,
    RecordStore.put id record s = (r, t) ∧ Ready t ∧
      (r = .ok () ∧ records t = (records s).insert id record ∨
        (∃ e, r = .error e) ∧ records t = records s)
  delete {s : σ} (h : Ready s) (id : String) : ∃ r t,
    RecordStore.delete id s = (r, t) ∧ Ready t ∧
      (r = .ok ((records s).contains id) ∧ records t = (records s).erase id ∨
        (∃ e, r = .error e) ∧ records t = records s)

/-- An open store. -/
@[reducible] def LawfulStore.fallible (σ : Type) [RecordStore σ] [LawfulStore σ] :
    FallibleStore σ where
  records := LawfulStore.records
  Ready := LawfulStore.Ready
  ascending := LawfulStore.ascending
  get h id := by
    obtain ⟨t, hget, ht, hrecords⟩ := LawfulStore.get h id
    exact ⟨_, t, hget, ht, hrecords, Or.inl rfl⟩
  scan h range := by
    obtain ⟨t, hscan, ht, hrecords⟩ := LawfulStore.scan h range
    exact ⟨_, t, hscan, ht, hrecords, Or.inl rfl⟩
  put h id record := LawfulStore.put h id record
  delete h id := by
    obtain ⟨t, hdelete, ht, hrecords⟩ := LawfulStore.delete h id
    exact ⟨_, t, hdelete, ht, Or.inl ⟨rfl, hrecords⟩⟩

/-! ## Stores that may be closed -/

/-- What a closed store does: it refuses every call and stays as it is. -/
structure RefusesAll {σ : Type} [RecordStore σ] (s : σ) : Prop where
  get : ∀ id, ∃ e, RecordStore.get id s = (.error e, s)
  scan : ∀ range, ∃ e, RecordStore.scan range s = (.error e, s)
  put : ∀ id record, ∃ e, RecordStore.put id record s = (.error e, s)
  delete : ∀ id, ∃ e, RecordStore.delete id s = (.error e, s)

/-- A store that is open, or else refuses every call and holds no records. -/
@[reducible] def LawfulStore.closable (σ : Type) [RecordStore σ] [LawfulStore σ] :
    FallibleStore σ where
  records := LawfulStore.records
  Ready s := LawfulStore.Ready s ∨ RefusesAll s ∧ LawfulStore.records s = []
  ascending := by
    rintro s (h | ⟨-, h⟩)
    · exact LawfulStore.ascending h
    · rw [h]; exact ascending_nil
  get := by
    rintro s (h | h) id
    · obtain ⟨r, t, hget, ht, hcases⟩ := (fallible σ).get h id
      exact ⟨r, t, hget, Or.inl ht, hcases⟩
    · obtain ⟨e, hget⟩ := h.1.get id
      exact ⟨_, s, hget, Or.inr h, rfl, Or.inr ⟨e, rfl⟩⟩
  scan := by
    rintro s (h | h) range
    · obtain ⟨r, t, hscan, ht, hcases⟩ := (fallible σ).scan h range
      exact ⟨r, t, hscan, Or.inl ht, hcases⟩
    · obtain ⟨e, hscan⟩ := h.1.scan range
      exact ⟨_, s, hscan, Or.inr h, rfl, Or.inr ⟨e, rfl⟩⟩
  put := by
    rintro s (h | h) id record
    · obtain ⟨r, t, hput, ht, hcases⟩ := (fallible σ).put h id record
      exact ⟨r, t, hput, Or.inl ht, hcases⟩
    · obtain ⟨e, hput⟩ := h.1.put id record
      exact ⟨_, s, hput, Or.inr h, Or.inr ⟨⟨e, rfl⟩, rfl⟩⟩
  delete := by
    rintro s (h | h) id
    · obtain ⟨r, t, hdelete, ht, hcases⟩ := (fallible σ).delete h id
      exact ⟨r, t, hdelete, Or.inl ht, hcases⟩
    · obtain ⟨e, hdelete⟩ := h.1.delete id
      exact ⟨_, s, hdelete, Or.inr h, Or.inr ⟨⟨e, rfl⟩, rfl⟩⟩

instance : FallibleStore MemoryStore := LawfulStore.closable MemoryStore

instance : FallibleStore LogStore := LawfulStore.closable LogStore

theorem MemoryStore.refusesAll {s : MemoryStore} (h : s.closed = true) : RefusesAll s := by
  have hrefused : ∀ {α : Type} (f : Except StoreError α × MemoryStore),
      s.whenOpen f = (.error .closed, s) := fun f => if_pos h
  exact ⟨fun _ => ⟨_, hrefused _⟩, fun _ => ⟨_, hrefused _⟩, fun _ _ => ⟨_, hrefused _⟩,
    fun _ => ⟨_, hrefused _⟩⟩

theorem LogStore.refusesAll {s : LogStore} (h : s.isOpen = false) : RefusesAll s := by
  have hrefused : ∀ {α : Type} (f : Except StoreError α × LogStore),
      s.whenOpen f = (.error .closed, s) := fun f => if_neg (by simp [h])
  refine ⟨fun _ => ⟨_, hrefused _⟩, fun _ => ⟨_, hrefused _⟩, fun id record => ?_,
    fun _ => ⟨_, hrefused _⟩⟩
  change ∃ e, s.put id record = _
  rw [LogStore.put]
  split
  · exact ⟨_, rfl⟩
  · exact ⟨_, hrefused _⟩

/-- Closing leaves a store that has nothing and refuses everything. -/
theorem MemoryStore.ready_close (s : MemoryStore) : FallibleStore.Ready s.close.2 :=
  Or.inr ⟨refusesAll rfl, rfl⟩

theorem LogStore.ready_close {s : LogStore} (h : FallibleStore.Ready s) :
    FallibleStore.Ready s.close.2 := by
  rw [LogStore.close]
  split
  · exact Or.inr ⟨refusesAll rfl, rfl⟩
  · exact h

/-! ## Stores with faults -/

/-- A store, and what befalls its calls from now on. -/
structure Faulty (σ : Type) where
  store : σ
  fault : Nat → Option StoreError

namespace Faulty
variable {σ : Type}

/-- The next call reaches the store unless a fault stops it. -/
def call {α : Type} (f : σ → Except StoreError α × σ) (s : Faulty σ) :
    Except StoreError α × Faulty σ :=
  let later := fun n => s.fault (n + 1)
  match s.fault 0 with
  | some e => (.error e, { s with fault := later })
  | none =>
    let (r, t) := f s.store
    (r, { store := t, fault := later })

instance [RecordStore σ] : RecordStore (Faulty σ) where
  get id := call (RecordStore.get id)
  put id record := call (RecordStore.put id record)
  delete id := call (RecordStore.delete id)
  scan range := call (RecordStore.scan range)
  close := call RecordStore.close
  isClosed s := RecordStore.isClosed s.store
  size s := match s.fault 0 with
    | some e => .error e
    | none => RecordStore.size s.store
  stats s := RecordStore.stats s.store

theorem call_cases {α : Type} {f : σ → Except StoreError α × σ} {s : Faulty σ}
    {r : Except StoreError α} {u : σ} (h : f s.store = (r, u)) :
    (∃ e t, call f s = (.error e, t) ∧ t.store = s.store) ∨
      ∃ t, call f s = (r, t) ∧ t.store = u := by
  rw [call, h]
  cases s.fault 0 with
  | some e => exact Or.inl ⟨e, _, rfl, rfl⟩
  | none => exact Or.inr ⟨_, rfl, rfl⟩

instance [RecordStore σ] [FallibleStore σ] : FallibleStore (Faulty σ) where
  records s := FallibleStore.records s.store
  Ready s := FallibleStore.Ready s.store
  ascending h := FallibleStore.ascending h
  get {s} h id := by
    obtain ⟨r, u, hget, hu⟩ := FallibleStore.get h id
    rcases call_cases hget with ⟨e, t, hcall, ht⟩ | ⟨t, hcall, rfl⟩
    · exact ⟨_, t, hcall, ht ▸ h, by rw [ht], Or.inr ⟨e, rfl⟩⟩
    · exact ⟨r, t, hcall, hu⟩
  scan {s} h range := by
    obtain ⟨r, u, hscan, hu⟩ := FallibleStore.scan h range
    rcases call_cases hscan with ⟨e, t, hcall, ht⟩ | ⟨t, hcall, rfl⟩
    · exact ⟨_, t, hcall, ht ▸ h, by rw [ht], Or.inr ⟨e, rfl⟩⟩
    · exact ⟨r, t, hcall, hu⟩
  put {s} h id record := by
    obtain ⟨r, u, hput, hu⟩ := FallibleStore.put h id record
    rcases call_cases hput with ⟨e, t, hcall, ht⟩ | ⟨t, hcall, rfl⟩
    · exact ⟨_, t, hcall, ht ▸ h, Or.inr ⟨⟨e, rfl⟩, by rw [ht]⟩⟩
    · exact ⟨r, t, hcall, hu⟩
  delete {s} h id := by
    obtain ⟨r, u, hdelete, hu⟩ := FallibleStore.delete h id
    rcases call_cases hdelete with ⟨e, t, hcall, ht⟩ | ⟨t, hcall, rfl⟩
    · exact ⟨_, t, hcall, ht ▸ h, Or.inr ⟨⟨e, rfl⟩, by rw [ht]⟩⟩
    · exact ⟨r, t, hcall, hu⟩

end Faulty

/-! ## Sizes -/

/-- An open store that tells how many records it has. -/
class CountingStore (σ : Type) [RecordStore σ] [LawfulStore σ] : Prop where
  size {s : σ} (h : LawfulStore.Ready s) : RecordStore.size s = .ok (LawfulStore.records s).length

instance : CountingStore MemoryStore where
  size {s} h := by
    change MemoryStore.size s = _
    rw [MemoryStore.size, if_neg (by simp [h.1])]
    rfl

instance : CountingStore LogStore where
  size {s} h := by
    change LogStore.size s = .ok (mapValues _ s.index).length
    rw [LogStore.size, if_pos h.1, length_mapValues]

/-- One that tells how many records it has when it tells anything. -/
class FallibleCount (σ : Type) [RecordStore σ] [FallibleStore σ] : Prop where
  length_records {s : σ} (h : FallibleStore.Ready s) {n : Nat} :
    RecordStore.size s = .ok n → (FallibleStore.records s).length = n

theorem CountingStore.fallible (σ : Type) [RecordStore σ] [LawfulStore σ] [CountingStore σ] :
    let _ := LawfulStore.fallible σ
    FallibleCount σ :=
  let _ := LawfulStore.fallible σ
  ⟨fun h _ hsize => Except.ok.inj ((CountingStore.size h).symm.trans hsize)⟩

instance : FallibleCount MemoryStore where
  length_records {s} _ n hsize := by
    change MemoryStore.size s = .ok n at hsize
    rw [MemoryStore.size] at hsize
    split at hsize
    · cases hsize
    · exact Except.ok.inj hsize

instance : FallibleCount LogStore where
  length_records {s} _ n hsize := by
    change LogStore.size s = .ok n at hsize
    change (mapValues _ s.index).length = n
    rw [LogStore.size] at hsize
    split at hsize
    · rw [length_mapValues]
      exact Except.ok.inj hsize
    · cases hsize

instance {σ : Type} [RecordStore σ] [FallibleStore σ] [FallibleCount σ] :
    FallibleCount (Faulty σ) where
  length_records {s} h n hsize := by
    change (match s.fault 0 with
      | some e => .error e
      | none => RecordStore.size s.store) = Except.ok n at hsize
    split at hsize
    · cases hsize
    · exact FallibleCount.length_records (s := s.store) h hsize

end DocBase
