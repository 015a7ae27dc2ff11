import DocBase.Proofs.Store.Scan

/-! Limits of stores. The totals that a store of either kind keeps are those of what it holds,
and a record is refused for want of room exactly if the store would hold too much with it. -/
namespace DocBase
open Keyed

/-- There is room for these records. -/
structure StoreConfig.Allows (c : StoreConfig) (records : Keyed String Bytes) : Prop where
  count : ∀ limit ∈ c.maxRecords, records.length ≤ limit
  bytes : ∀ limit ∈ c.maxBytes, weigh ByteArray.size records ≤ limit

instance (c : StoreConfig) (records : Keyed String Bytes) : Decidable (c.Allows records) :=
  decidable_of_iff ((∀ limit ∈ c.maxRecords, records.length ≤ limit) ∧
    ∀ limit ∈ c.maxBytes, weigh ByteArray.size records ≤ limit)
    ⟨fun h => ⟨h.1, h.2⟩, fun h => ⟨h.count, h.bytes⟩⟩

section
variable {maxRecords maxBytes : Option Nat} {records bytes : Nat}

theorem checkLimits_eq_ok : checkLimits maxRecords maxBytes records bytes = .ok () ↔
    (∀ limit ∈ maxRecords, records ≤ limit) ∧ ∀ limit ∈ maxBytes, bytes ≤ limit := by
  have hbytes : checkLimits.checkBytes bytes maxBytes = .ok () ↔
      ∀ limit ∈ maxBytes, bytes ≤ limit := by
    cases maxBytes with
    | none => simp [checkLimits.checkBytes]
    | some most => simp [checkLimits.checkBytes]
  cases maxRecords with
  | none => simp [checkLimits, hbytes]
  | some most =>
    rw [checkLimits]
    split
    next hmost => simp [hmost]
    next hmost => simp [hbytes, Nat.not_lt.mp hmost]

theorem exists_cause_of_checkLimits {e : StoreError}
    (h : checkLimits maxRecords maxBytes records bytes = .error e) :
    ∃ cause, e = .capacity cause := by
  have hbytes (h : checkLimits.checkBytes bytes maxBytes = .error e) :
      ∃ cause, e = .capacity cause := by
    rw [checkLimits.checkBytes.eq_def] at h
    split at h
    · split at h
      · exact ⟨_, (Except.error.inj h).symm⟩
      · cases h
    · cases h
  rw [checkLimits.eq_def] at h
  split at h
  · split at h
    · exact ⟨_, (Except.error.inj h).symm⟩
    · exact hbytes h
  · exact hbytes h

end

/-! ## In memory -/
namespace MemoryStore

/-- The totals are those of the records, which are within the limits. -/
structure Tallied (c : StoreConfig) (s : MemoryStore) : Prop where
  maxRecords : s.maxRecords = c.maxRecords
  maxBytes : s.maxBytes = c.maxBytes
  total : s.totalBytes = weigh ByteArray.size s.records
  allowed : c.Allows s.records

variable {c : StoreConfig} {s : MemoryStore}

/-- The sum is adjusted to that of what a put would leave. -/
theorem Tallied.total_insert (h : s.Tallied c) (id : String) (record : Bytes) :
    s.totalBytes - ((s.records.get? id).map (·.size)).getD 0 + record.size =
      weigh ByteArray.size (s.records.insert id record) := by
  have hinsert : weigh ByteArray.size (s.records.insert id record) +
      ((s.records.get? id).map (·.size)).getD 0 = _ :=
    weigh_insert ByteArray.size id record s.records
  have hle : ((s.records.get? id).map (·.size)).getD 0 ≤ _ :=
    weigh_get?_le ByteArray.size id s.records
  rw [h.total]
  omega

/-- A put to an open store: kept if there is room for what is stored then, or refused and without
any effect. -/
theorem Tallied.put_cases (h : s.Tallied c) (hopen : s.closed = false) (id : String)
    (record : Bytes) :
    (¬ c.Allows (s.records.insert id record) ∧
      ∃ cause, s.put id record = (.error (.capacity cause), s)) ∨
    (c.Allows (s.records.insert id record) ∧ ∃ t, s.put id record = (.ok (), t) ∧
      t.records = s.records.insert id record ∧ t.Tallied c) := by
  rw [put, whenOpen, if_neg (by simp [hopen])]
  dsimp only
  rw [h.total_insert id record, ← length_insert, h.maxRecords, h.maxBytes]
  cases hlimits : checkLimits c.maxRecords c.maxBytes (s.records.insert id record).length
      (weigh ByteArray.size (s.records.insert id record)) with
  | error e =>
    obtain ⟨cause, rfl⟩ := exists_cause_of_checkLimits hlimits
    refine Or.inl ⟨fun hallows => ?_, cause, rfl⟩
    rw [checkLimits_eq_ok.mpr ⟨hallows.count, hallows.bytes⟩] at hlimits
    cases hlimits
  | ok _ =>
    obtain ⟨hcount, hbytes⟩ := checkLimits_eq_ok.mp hlimits
    exact Or.inr ⟨⟨hcount, hbytes⟩, _, rfl, rfl, rfl, rfl, rfl, hcount, hbytes⟩

theorem Tallied.put (h : s.Tallied c) (id : String) (record : Bytes) :
    (s.put id record).2.Tallied c := by
  cases hclosed : s.closed with
  | true =>
    rw [MemoryStore.put, whenOpen, if_pos hclosed]
    exact h
  | false =>
    rcases h.put_cases hclosed id record with ⟨-, cause, hput⟩ | ⟨-, t, hput, -, ht⟩
    · rw [hput]
      exact h
    · rw [hput]
      exact ht

/-- Less is stored after a deletion, if anything was. -/
theorem Tallied.delete (h : s.Tallied c) (id : String) : (s.delete id).2.Tallied c := by
  rw [MemoryStore.delete, whenOpen]
  split
  · exact h
  dsimp only
  cases hid : s.records.get? id with
  | none => exact ⟨h.maxRecords, h.maxBytes, h.total, h.allowed⟩
  | some record =>
    have herase := weigh_erase ByteArray.size id s.records
    simp only [hid, Option.map_some, Option.getD_some] at herase
    have hlength := (erase_sublist id s.records).length_le
    refine ⟨h.maxRecords, h.maxBytes, ?_, ?_, ?_⟩
    · dsimp only
      rw [h.total]
      omega
    · exact fun limit hlimit => hlength.trans (h.allowed.count limit hlimit)
    · intro limit hlimit
      have := h.allowed.bytes limit hlimit
      dsimp only
      omega

theorem Tallied.close (h : s.Tallied c) : s.close.2.Tallied c :=
  ⟨h.maxRecords, h.maxBytes, rfl, fun _ _ => Nat.zero_le _, fun _ _ => Nat.zero_le _⟩

theorem tallied_open (c : StoreConfig) : (open_ c).Tallied c :=
  ⟨rfl, rfl, rfl, fun _ _ => Nat.zero_le _, fun _ _ => Nat.zero_le _⟩

theorem Tallied.alike {t : MemoryStore} (h : s.Tallied c) (hst : s.Alike t) : t.Tallied c := by
  obtain ⟨counts, rfl⟩ := hst
  exact ⟨h.maxRecords, h.maxBytes, h.total, h.allowed⟩

end MemoryStore

/-! ## Stores of either kind -/
namespace Backend
variable {c : StoreConfig} {b b' : Backend}

/-- The store in memory that a store of either kind is like. -/
def inMemory : Backend → MemoryStore
  | memory s => s
  | log _ _ s => s.inMemory

def records (b : Backend) : Keyed String Bytes := b.inMemory.records

theorem stats_inMemory (b : Backend) : RecordStore.stats b.inMemory = RecordStore.stats b := by
  cases b with
  | memory s => rfl
  | log path file s => exact LogStore.stats_inMemory s

theorem closed_inMemory (b : Backend) : b.inMemory.closed = RecordStore.isClosed b := by
  cases b with
  | memory s => rfl
  | log path file s => rfl

/-- A put to an open store of either kind, of a record that a log can hold. -/
theorem Steady.put_cases (h : b.Steady) (ht : b.inMemory.Tallied c)
    (hopen : RecordStore.isClosed b = false) {id : String} {record : Bytes}
    (hfits : LogStore.Encodable id record) :
    (¬ c.Allows (b.records.insert id record) ∧
      ∃ cause, RecordStore.put id record b = (.error (.capacity cause), b)) ∨
    (c.Allows (b.records.insert id record) ∧ ∃ b', RecordStore.put id record b = (.ok (), b') ∧
      b'.records = b.records.insert id record) := by
  have hcases := ht.put_cases (b.closed_inMemory.trans hopen) id record
  cases h with
  | @memory s h =>
    have hlift : RecordStore.put id record (Backend.memory s) =
        ((s.put id record).1, Backend.memory (s.put id record).2) := rfl
    rw [inMemory] at hcases
    rcases hcases with ⟨hfull, cause, hput⟩ | ⟨hroom, t, hput, hrecords, -⟩
    · exact Or.inl ⟨hfull, cause, by rw [hlift, hput]⟩
    · exact Or.inr ⟨hroom, Backend.memory t, by rw [hlift, hput], hrecords⟩
  | @log path file s h =>
    have hlift : RecordStore.put id record (Backend.log path file s) =
        ((s.put id record).1, Backend.log path file (s.put id record).2) := rfl
    rw [inMemory, (h.put hfits).2] at hcases
    rcases LogStore.put_cases s id record with ⟨e, hput⟩ | ⟨-, -, hput⟩
    · rw [hput] at hcases
      rcases hcases with ⟨hfull, cause, hrefused⟩ | ⟨-, t, hrefused, -⟩
      · cases hrefused
        exact Or.inl ⟨hfull, cause, by rw [hlift, hput]⟩
      · cases hrefused
    · rw [hput] at hcases
      rcases hcases with ⟨-, cause, hkept⟩ | ⟨hroom, t, hkept, hrecords, -⟩
      · cases hkept
      · refine Or.inr ⟨hroom, Backend.log path file (s.put id record).2, by rw [hlift, hput], ?_⟩
        cases hkept
        rw [hput]
        exact hrecords

/-- What a log refuses for good it does not keep, so that no total changes. -/
theorem Steady.tallied_put (h : b.Steady) (ht : b.inMemory.Tallied c) (id : String)
    (record : Bytes) : (RecordStore.put id record b).2.inMemory.Tallied c := by
  cases h with
  | memory h => exact ht.put id record
  | @log path file s h =>
    change (s.put id record).2.inMemory.Tallied c
    rcases LogStore.put_cases s id record with ⟨e, hput⟩ | ⟨-, hfits, -⟩
    · rw [hput]
      exact ht
    · have hafter := ht.put id record
      rwa [inMemory, (h.put hfits).2] at hafter

theorem Steady.tallied_delete (h : b.Steady) (ht : b.inMemory.Tallied c) (id : String) :
    (RecordStore.delete id b).2.inMemory.Tallied c := by
  have hafter := ht.delete id
  cases h with
  | memory h => exact hafter
  | log h => rwa [inMemory, (h.delete id).2] at hafter

theorem Steady.tallied_close (h : b.Steady) (ht : b.inMemory.Tallied c) :
    (RecordStore.close b).2.inMemory.Tallied c := by
  have hafter := ht.close
  cases h with
  | memory h => exact hafter
  | log h => rwa [inMemory, h.close.2] at hafter

theorem Matched.tallied (h : Matched b' b) (ht : b.inMemory.Tallied c) : b'.inMemory.Tallied c := by
  cases h.symm with
  | memory halike => exact ht.alike halike
  | log _ _ halike => exact ht.alike halike

theorem tallied_openStore {driver : StoreDriver} {location : String} {d d' : Disk}
    (hopen : driver.openStore location c d = (.ok b, d')) (hempty : b.records = []) :
    b.inMemory.Tallied c := by
  rcases openStore_cases hopen with rfl | ⟨path, file, bytes, rfl⟩
  · exact MemoryStore.tallied_open c
  · refine ⟨rfl, rfl, (LogStore.recorded_open c bytes).live, ?_⟩
    change c.Allows (Backend.log path file (LogStore.open_ c bytes)).records
    rw [hempty]
    exact ⟨fun _ _ => Nat.zero_le _, fun _ _ => Nat.zero_le _⟩

end Backend

/-! ## Histories -/
namespace Session
variable {c : StoreConfig} {s : Session Backend}

theorem tallied_after (h : s.store.Steady) (ht : s.store.inMemory.Tallied c) (e : LogEvent) :
    (s.after e).store.inMemory.Tallied c := by
  cases e with
  | compact => exact h.matched.compact.tallied ht
  | call op =>
    cases op with
    | get id => exact (h.matched.get id).tallied ht
    | put id record => exact h.tallied_put ht id record
    | delete id => exact h.tallied_delete ht id
    | scan range =>
      rw [store_scan]
      exact (h.matched.scan range).tallied ht
    | next j =>
      obtain ⟨ids, hstore⟩ := store_next s j
      rw [hstore]
      exact (h.matched.nextOf ids).tallied ht
    | close => exact h.tallied_close ht
    | size => exact ht
    | isEmpty => exact ht
    | stats => exact ht
    | isClosed => exact ht

theorem tallied_run (h : s.store.Steady) (ht : s.store.inMemory.Tallied c)
    (events : List LogEvent) : (s.run events).store.inMemory.Tallied c := by
  induction events generalizing s with
  | nil => exact ht
  | cons e events ih => exact ih (follows_after h e).steady (tallied_after h ht e)

end Session

/-- A store of either kind that was opened with nothing in it, after any history: its totals are
those of what it holds, which is within the limits. A put is refused for want of room exactly if
the limits leave none for what would be stored with it, and nothing is changed then. -/
theorem limits_hold_and_refuse_exactly {driver : StoreDriver} {location : String} {c : StoreConfig}
    {d d' : Disk} {b : Backend} (hopen : driver.openStore location c d = (.ok b, d'))
    (hempty : b.records = []) (events : List LogEvent) :
    let s := ((Session.mk b []).run events).store
    ((RecordStore.stats s).records = s.records.length ∧
      (RecordStore.stats s).bytes = weigh ByteArray.size s.records ∧ c.Allows s.records) ∧
    (RecordStore.isClosed s = false → ∀ id record, LogStore.Encodable id record →
      ((∃ cause, (RecordStore.put id record s).1 = .error (.capacity cause)) ↔
        ¬ c.Allows (s.records.insert id record)) ∧
      (¬ c.Allows (s.records.insert id record) → (RecordStore.put id record s).2 = s) ∧
      (c.Allows (s.records.insert id record) → (RecordStore.put id record s).1 = .ok () ∧
        (RecordStore.put id record s).2.records = s.records.insert id record)) := by
  intro s
  have hsteady : s.Steady :=
    Session.steady_run (s := Session.mk b []) (Backend.steady_openStore hopen) events
  have ht : s.inMemory.Tallied c :=
    Session.tallied_run (s := Session.mk b []) (Backend.steady_openStore hopen)
      (Backend.tallied_openStore hopen hempty) events
  refine ⟨⟨?_, ?_, ht.allowed⟩, ?_⟩
  · rw [← Backend.stats_inMemory]
    rfl
  · rw [← Backend.stats_inMemory]
    exact ht.total
  · intro hclosed id record hfits
    rcases hsteady.put_cases ht hclosed hfits with ⟨hfull, cause, hput⟩ | ⟨hroom, s', hput, hs'⟩
    · rw [hput]
      exact ⟨iff_of_true ⟨cause, rfl⟩ hfull, fun _ => rfl, fun hroom => absurd hroom hfull⟩
    · rw [hput]
      refine ⟨iff_of_false ?_ (not_not_intro hroom), fun hfull => absurd hroom hfull,
        fun _ => ⟨rfl, hs'⟩⟩
      rintro ⟨cause, hcause⟩
      cases hcause

/-- Room for one record, of three bytes at most. -/
def scant : StoreConfig := { maxRecords := some 1, maxBytes := some 3 }

/-- A record grows, another is kept out by it and put when it is gone. -/
def putInTurn : List LogEvent :=
  [.call (.put "a" (ByteArray.empty.push 7)), .call (.put "a" ⟨#[7, 7, 7]⟩),
    .call (.put "b" .empty), .call (.put "a" ⟨#[7, 7, 7, 7]⟩), .compact, .call (.delete "a"),
    .call (.put "b" ⟨#[8, 8]⟩)]

theorem limits_of_scant :
    StoreDriver.memory.openStore "" scant {} = (.ok (.memory (MemoryStore.open_ scant)), {}) ∧
      (Backend.memory (MemoryStore.open_ scant)).records = [] ∧
      let s := ((Session.mk (.memory (MemoryStore.open_ scant)) []).run putInTurn).store
      s.records = [("b", ⟨#[8, 8]⟩)] ∧ (RecordStore.stats s).bytes = 2 ∧
        RecordStore.isClosed s = false ∧
        (LogStore.Encodable "a" .empty ∧
          ∃ cause, (RecordStore.put "a" .empty s).1 = .error (.capacity cause)) ∧
        LogStore.Encodable "b" ⟨#[8, 8, 8]⟩ ∧ (RecordStore.put "b" ⟨#[8, 8, 8]⟩ s).1 = .ok () := by
  have hopen : StoreDriver.memory.openStore "" scant {} =
      (.ok (.memory (MemoryStore.open_ scant)), {}) := rfl
  have ha : LogStore.Encodable "a" .empty := by constructor <;> decide
  have hb : LogStore.Encodable "b" ⟨#[8, 8, 8]⟩ := by constructor <;> decide
  obtain ⟨⟨-, hbytes, -⟩, hput⟩ := limits_hold_and_refuse_exactly hopen rfl putInTurn
  refine ⟨hopen, rfl, rfl, hbytes, rfl, ⟨ha, ?_⟩, hb, ?_⟩
  · exact (hput rfl "a" .empty ha).1.mpr (by decide)
  · exact ((hput rfl "b" _ hb).2.2 (by decide)).1

end DocBase
