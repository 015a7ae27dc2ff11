import DocBase.Proofs.Store.Log
import DocBase.Store.Memory

/-! Where records are kept makes no difference to what a store answers: each call of a
store with a log is the same call of the store that has the records in memory, and
compactions cannot be seen. -/
namespace DocBase
open Keyed Log

/-! ## Calls -/

/-- A call of a store, or of one of the scans under way. -/
inductive StoreCall
  | get (id : String)
  | put (id : String) (record : Bytes)
  | delete (id : String)
  | scan (range : ScanRange)
  | next (cursor : Nat)
  | size
  | isEmpty
  | stats
  | isClosed
  | close

inductive StoreAnswer
  | record (r : Except StoreError (Option Bytes))
  | written (r : Except StoreError Unit)
  | deleted (r : Except StoreError Bool)
  | scanned (r : Except StoreError (List String))
  | entry (r : Option (Except StoreError (String × Bytes)))
  | size (r : Except StoreError Nat)
  | empty (r : Except StoreError Bool)
  | stats (r : StoreStats)
  | status (isClosed : Bool)

/-- A store with the scans that were begun, in the order in which they were. -/
structure Session (σ : Type) where
  store : σ
  cursors : List ScanCursor := []

namespace Session
variable {σ : Type} [RecordStore σ]

def scan (range : ScanRange) (s : Session σ) : StoreAnswer × Session σ :=
  match RecordStore.scan range s.store with
  | (.ok ids, store) => (.scanned (.ok ids), { store, cursors := s.cursors ++ [⟨ids⟩] })
  | (.error e, store) => (.scanned (.error e), { s with store })

def next (i : Nat) (s : Session σ) : StoreAnswer × Session σ :=
  match s.cursors[i]? with
  | none => (.entry none, s)
  | some c =>
    let (r, c, store) := c.next s.store
    (.entry r, { store, cursors := s.cursors.set i c })

def call (s : Session σ) : StoreCall → StoreAnswer × Session σ
  | .get id => let (r, store) := RecordStore.get id s.store; (.record r, { s with store })
  | .put id record =>
    let (r, store) := RecordStore.put id record s.store
    (.written r, { s with store })
  | .delete id => let (r, store) := RecordStore.delete id s.store; (.deleted r, { s with store })
  | .scan range => s.scan range
  | .next i => s.next i
  | .size => (.size (RecordStore.size s.store), s)
  | .isEmpty => (.empty ((RecordStore.size s.store).map (· == 0)), s)
  | .stats => (.stats (RecordStore.stats s.store), s)
  | .isClosed => (.status (RecordStore.isClosed s.store), s)
  | .close => let (r, store) := RecordStore.close s.store; (.written r, { s with store })

def answers (s : Session σ) : List StoreCall → List StoreAnswer
  | [] => []
  | c :: cs => (s.call c).1 :: (s.call c).2.answers cs

end Session

/-- What happens to a store with a log: a call, or a compaction, which answers nothing. -/
inductive LogEvent
  | call (c : StoreCall)
  | compact

def LogEvent.call? : LogEvent → Option StoreCall
  | call c => some c
  | compact => none

def Session.answersBetween (s : Session LogStore) : List LogEvent → List StoreAnswer
  | [] => []
  | .call c :: rest => (s.call c).1 :: (s.call c).2.answersBetween rest
  | .compact :: rest => Session.answersBetween { s with store := s.store.compact.2 } rest

/-! ## The same store in memory -/
namespace LogStore

def inMemory (s : LogStore) : MemoryStore :=
  { records := s.records
    totalBytes := s.liveBytes
    closed := !s.isOpen
    counts := s.counts
    maxRecords := s.maxRecords
    maxBytes := s.maxBytes }

/-- Open with a history of frames, or closed with nothing in it. -/
inductive Valid (s : LogStore) : Prop
  | recorded (fs : List Frame) (hopen : s.isOpen = true) (h : s.Recorded fs)
  | closed (hclosed : s.isOpen = false) (hindex : s.index = []) (hbytes : s.liveBytes = 0)

variable {s : LogStore}

theorem length_records (s : LogStore) : s.records.length = s.index.length :=
  length_mapValues _ _

theorem keys_records (s : LogStore) : s.records.keys = s.index.keys := keys_mapValues _ _

theorem Recorded.size_get? {fs : List Frame} (h : s.Recorded fs) (id : String) :
    (s.records.get? id).map (·.size) = (s.index.get? id).map (·.length) := by
  rw [get?_records]
  cases hslot : s.index.get? id with
  | none => rfl
  | some slot => exact congrArg some (h.data_of_get? hslot).2.1

theorem inMemory_compacted {fs : List Frame} (h : s.Recorded fs) {log : Bytes}
    {index : Keyed String Slot} (hlive : liveLog s.file s.index .empty [] = .ok (log, index)) :
    (s.compacted log index).inMemory = s.inMemory := by
  rw [inMemory, h.records_compacted hlive]
  rfl

theorem Valid.compact (h : s.Valid) : s.compact.2.Valid ∧ s.compact.2.inMemory = s.inMemory := by
  cases h with
  | recorded fs hopen h =>
    rcases compact_cases s with hsame | ⟨log, index, hlive, hcompact⟩
    · rw [hsame]; exact ⟨.recorded fs hopen h, rfl⟩
    · rw [hcompact]
      exact ⟨.recorded _ hopen (h.compacted hlive), inMemory_compacted h hlive⟩
  | closed hclosed hindex hbytes =>
    have hsame : s.compact.2 = s := by rw [LogStore.compact, whenOpen, if_neg (by simp [hclosed])]
    rw [hsame]
    exact ⟨.closed hclosed hindex hbytes, rfl⟩

theorem Valid.compactIfDue (h : s.Valid) :
    s.compactIfDue.Valid ∧ s.compactIfDue.inMemory = s.inMemory := by
  rw [LogStore.compactIfDue]
  split
  · exact h.compact
  · exact ⟨h, rfl⟩

theorem Valid.get (h : s.Valid) (id : String) :
    (s.get id).2.Valid ∧ MemoryStore.get id s.inMemory = ((s.get id).1, (s.get id).2.inMemory) := by
  cases h with
  | recorded fs hopen h =>
    obtain ⟨cache, hcache, hget⟩ := h.get hopen id
    rw [hget]
    refine ⟨.recorded fs hopen ⟨h.fits, h.file, h.replay, hcache⟩, ?_⟩
    simp [MemoryStore.get, MemoryStore.whenOpen, inMemory, hopen, records]
  | closed hclosed hindex hbytes =>
    have hget : s.get id = (.error .closed, s) := by
      rw [LogStore.get, whenOpen, if_neg (by simp [hclosed])]
    rw [hget]
    refine ⟨.closed hclosed hindex hbytes, ?_⟩
    simp [MemoryStore.get, MemoryStore.whenOpen, inMemory, hclosed]

theorem inMemory_written {fs : List Frame} (h : s.Recorded fs) {id : String} {record : Bytes}
    (hf : Frame.Fits ⟨.put, id, record⟩) :
    (s.written id record).inMemory =
      { s.inMemory with
        records := s.records.insert id record
        totalBytes := s.liveBytes - ((s.index.get? id).map (·.length)).getD 0 + record.size
        counts := s.counts.write } := by
  rw [inMemory, h.records_written hf]
  rfl

theorem inMemory_removed {fs : List Frame} (h : s.Recorded fs) {id : String} {old : Slot}
    (hold : s.index.get? id = some old) :
    (s.removed id old).inMemory =
      { s.inMemory with
        records := s.records.erase id
        totalBytes := s.liveBytes - old.length
        counts := s.counts.delete } := by
  rw [inMemory, h.records_removed hold]
  rfl

theorem put_inMemory {fs : List Frame} (h : s.Recorded fs) (hopen : s.isOpen) {id : String}
    {record : Bytes} (hfits : Encodable id record) :
    MemoryStore.put id record s.inMemory =
      match checkLimits s.maxRecords s.maxBytes
        (s.index.length + if (s.index.get? id).isNone then 1 else 0)
        (s.liveBytes - ((s.index.get? id).map (·.length)).getD 0 + record.size) with
      | .error e => (.error e, s.inMemory)
      | .ok () => (.ok (), (s.written id record).inMemory) := by
  have hnone : (s.records.get? id).isNone = (s.index.get? id).isNone := by
    rw [get?_records]; cases s.index.get? id <;> rfl
  have hclosed : s.inMemory.closed = false := by rw [inMemory, hopen]; rfl
  rw [inMemory_written h (Frame.Fits.of_size hfits.1 hfits.2), MemoryStore.put,
    MemoryStore.whenOpen, if_neg (by simp [hclosed])]
  cases hlimits : checkLimits s.maxRecords s.maxBytes
      (s.index.length + if (s.index.get? id).isNone then 1 else 0)
      (s.liveBytes - ((s.index.get? id).map (·.length)).getD 0 + record.size) with
  | error e => simp only [inMemory, hnone, h.size_get? id, length_records, hlimits]
  | ok v => simp only [inMemory, hnone, h.size_get? id, length_records, hlimits]

theorem Valid.put (h : s.Valid) {id : String} {record : Bytes} (hfits : Encodable id record) :
    (s.put id record).2.Valid ∧
      MemoryStore.put id record s.inMemory =
        ((s.put id record).1, (s.put id record).2.inMemory) := by
  cases h with
  | recorded fs hopen h =>
    have hwritten : (s.written id record).Valid :=
      .recorded _ hopen (h.written (Frame.Fits.of_size hfits.1 hfits.2))
    obtain ⟨hvalid, hsame⟩ := hwritten.compactIfDue
    rw [put_eq hopen hfits, put_inMemory h hopen hfits, ← hsame]
    generalize checkLimits _ _ _ _ = limits
    cases limits with
    | error e => exact ⟨.recorded fs hopen h, rfl⟩
    | ok => exact ⟨hvalid, rfl⟩
  | closed hclosed hindex hbytes =>
    have hsize : ¬ UInt32.size ≤ record.size := by
      have := hfits.2
      dsimp only [Frame.size] at this
      omega
    have hput : s.put id record = (.error .closed, s) := by
      rw [LogStore.put, if_neg hsize, whenOpen, if_neg (by simp [hclosed])]
    rw [hput]
    refine ⟨.closed hclosed hindex hbytes, ?_⟩
    simp [MemoryStore.put, MemoryStore.whenOpen, inMemory, hclosed]

theorem Valid.delete (h : s.Valid) (id : String) :
    (s.delete id).2.Valid ∧
      MemoryStore.delete id s.inMemory = ((s.delete id).1, (s.delete id).2.inMemory) := by
  cases h with
  | recorded fs hopen h =>
    have hclosed : s.inMemory.closed = false := by rw [inMemory, hopen]; rfl
    have hget : s.inMemory.records.get? id = (s.index.get? id).map (Slot.data s.file) :=
      get?_records s id
    rw [h.delete hopen id, MemoryStore.delete, MemoryStore.whenOpen, if_neg (by simp [hclosed])]
    simp only [hget]
    cases hold : s.index.get? id with
    | none => exact ⟨.recorded fs hopen ⟨h.fits, h.file, h.replay, h.cached⟩, rfl⟩
    | some old =>
      have hremoved : (s.removed id old).Valid := .recorded _ hopen (h.removed hold)
      obtain ⟨hvalid, hsame⟩ := hremoved.compactIfDue
      refine ⟨hvalid, ?_⟩
      simp only [Option.map_some]
      rw [hsame, inMemory_removed h hold, (h.data_of_get? hold).2.1]
      rfl
  | closed hclosed hindex hbytes =>
    have hdelete : s.delete id = (.error .closed, s) := by
      rw [LogStore.delete, whenOpen, if_neg (by simp [hclosed])]
    rw [hdelete]
    refine ⟨.closed hclosed hindex hbytes, ?_⟩
    simp [MemoryStore.delete, MemoryStore.whenOpen, inMemory, hclosed]

theorem Valid.scan (h : s.Valid) (range : ScanRange) :
    (s.scan range).2.Valid ∧
      MemoryStore.scan range s.inMemory = ((s.scan range).1, (s.scan range).2.inMemory) := by
  rw [LogStore.scan, whenOpen, MemoryStore.scan, MemoryStore.whenOpen]
  cases h with
  | recorded fs hopen h =>
    rw [if_pos hopen]
    refine ⟨.recorded fs hopen ⟨h.fits, h.file, h.replay, h.cached⟩, ?_⟩
    simp only [inMemory, hopen, keys_records]
    rfl
  | closed hclosed hindex hbytes =>
    rw [if_neg (by simp [hclosed])]
    exact ⟨.closed hclosed hindex hbytes, by simp [inMemory, hclosed]⟩

theorem Valid.close (h : s.Valid) :
    s.close.2.Valid ∧ MemoryStore.close s.inMemory = (s.close.1, s.close.2.inMemory) := by
  rw [LogStore.close, MemoryStore.close]
  cases h with
  | recorded fs hopen h =>
    rw [if_pos hopen]
    exact ⟨.closed rfl rfl rfl, by simp [inMemory, records, contents]⟩
  | closed hclosed hindex hbytes =>
    rw [if_neg (by simp [hclosed])]
    refine ⟨.closed hclosed hindex hbytes, ?_⟩
    simp [inMemory, records, contents, hclosed, hindex, hbytes]

theorem size_inMemory (s : LogStore) : MemoryStore.size s.inMemory = s.size := by
  rw [MemoryStore.size, LogStore.size, inMemory, length_records]
  cases s.isOpen <;> rfl

theorem stats_inMemory (s : LogStore) :
    RecordStore.stats s.inMemory = RecordStore.stats s := by
  change OpCounts.stats _ s.records.length _ = OpCounts.stats _ s.index.length _
  rw [length_records]
  rfl

theorem Valid.nextOf (h : s.Valid) (ids : List String) :
    (ScanCursor.nextOf ids s).2.2.Valid ∧
      ScanCursor.nextOf ids s.inMemory =
        ((ScanCursor.nextOf ids s).1, (ScanCursor.nextOf ids s).2.1,
          (ScanCursor.nextOf ids s).2.2.inMemory) := by
  induction ids generalizing s with
  | nil => exact ⟨h, rfl⟩
  | cons id rest ih =>
    obtain ⟨hvalid, hget⟩ := h.get id
    have hlog : RecordStore.get id s = s.get id := rfl
    have hmemory : RecordStore.get id s.inMemory = MemoryStore.get id s.inMemory := rfl
    simp only [ScanCursor.nextOf, hlog, hmemory, hget]
    cases hanswer : s.get id with
    | mk r t =>
      rw [hanswer] at hvalid
      cases r with
      | error e => exact ⟨hvalid, rfl⟩
      | ok record =>
        cases record with
        | none => exact ih hvalid
        | some record => exact ⟨hvalid, rfl⟩

end LogStore

/-! ## Histories -/
namespace Session

def inMemory (s : Session LogStore) : Session MemoryStore := ⟨s.store.inMemory, s.cursors⟩

/-- One call: the same answer, and the same session after it. -/
theorem call_inMemory {s : Session LogStore} (h : s.store.Valid) (c : StoreCall)
    (hput : ∀ id record, c = .put id record → LogStore.Encodable id record) :
    (s.call c).2.store.Valid ∧ s.inMemory.call c = ((s.call c).1, (s.call c).2.inMemory) := by
  cases c with
  | get id =>
    obtain ⟨hvalid, hget⟩ := h.get id
    have hmemory : RecordStore.get id s.inMemory.store = _ := hget
    exact ⟨hvalid, by simp only [call, hmemory]; rfl⟩
  | put id record =>
    obtain ⟨hvalid, hput⟩ := h.put (hput id record rfl)
    have hmemory : RecordStore.put id record s.inMemory.store = _ := hput
    exact ⟨hvalid, by simp only [call, hmemory]; rfl⟩
  | delete id =>
    obtain ⟨hvalid, hdelete⟩ := h.delete id
    have hmemory : RecordStore.delete id s.inMemory.store = _ := hdelete
    exact ⟨hvalid, by simp only [call, hmemory]; rfl⟩
  | scan range =>
    obtain ⟨hvalid, hscan⟩ := h.scan range
    have hlog : RecordStore.scan range s.store = s.store.scan range := rfl
    have hmemory : RecordStore.scan range s.inMemory.store = _ := hscan
    simp only [call, Session.scan, hlog, hmemory]
    cases hanswer : s.store.scan range with
    | mk r t =>
      rw [hanswer] at hvalid
      cases r <;> exact ⟨hvalid, rfl⟩
  | next i =>
    simp only [call, Session.next, inMemory]
    cases hcursor : s.cursors[i]? with
    | none => exact ⟨h, rfl⟩
    | some c =>
      obtain ⟨hvalid, hnext⟩ := h.nextOf c.pending
      exact ⟨hvalid, by simp only [ScanCursor.next, hnext]⟩
  | size =>
    have hsize : RecordStore.size s.inMemory.store = s.store.size := LogStore.size_inMemory s.store
    exact ⟨h, by simp only [call, hsize]; rfl⟩
  | isEmpty =>
    have hsize : RecordStore.size s.inMemory.store = s.store.size := LogStore.size_inMemory s.store
    exact ⟨h, by simp only [call, hsize]; rfl⟩
  | stats =>
    have hstats : RecordStore.stats s.inMemory.store = _ := LogStore.stats_inMemory s.store
    exact ⟨h, by simp only [call, hstats]⟩
  | close =>
    obtain ⟨hvalid, hclose⟩ := h.close
    have hmemory : RecordStore.close s.inMemory.store = _ := hclose
    exact ⟨hvalid, by simp only [call, hmemory]; rfl⟩
  | isClosed => exact ⟨h, rfl⟩

theorem answersBetween_eq {s : Session LogStore} (h : s.store.Valid) (events : List LogEvent)
    (hput : ∀ id record, .call (.put id record) ∈ events → LogStore.Encodable id record) :
    s.answersBetween events = s.inMemory.answers (events.filterMap LogEvent.call?) := by
  induction events generalizing s with
  | nil => rfl
  | cons event rest ih =>
    have hrest : ∀ id record, .call (.put id record) ∈ rest → LogStore.Encodable id record :=
      fun id record hmem => hput id record (List.mem_cons_of_mem _ hmem)
    cases event with
    | call c =>
      obtain ⟨hvalid, hcall⟩ := call_inMemory h c fun id record hc =>
        hput id record (hc ▸ List.mem_cons_self)
      simp only [answersBetween, List.filterMap_cons, LogEvent.call?, answers, hcall]
      rw [ih hvalid hrest]
    | compact =>
      obtain ⟨hvalid, hsame⟩ := h.compact
      have hsession : (Session.mk s.store.compact.2 s.cursors).inMemory = s.inMemory := by
        rw [inMemory, hsame]; rfl
      simp only [answersBetween, List.filterMap_cons, LogEvent.call?]
      rw [ih hvalid hrest, hsession]

end Session

/-- A store with a log, begun on an empty file, answers every history of calls and
compactions as a store with the same limits in memory answers the calls. -/
theorem log_store_answers_eq_memory_store_answers {logged kept : StoreConfig}
    (hrecords : logged.maxRecords = kept.maxRecords) (hbytes : logged.maxBytes = kept.maxBytes)
    (events : List LogEvent)
    (hput : ∀ id record, .call (.put id record) ∈ events → LogStore.Encodable id record) :
    (Session.mk (LogStore.open_ logged .empty) []).answersBetween events =
      (Session.mk (MemoryStore.open_ kept) []).answers (events.filterMap LogEvent.call?) := by
  have hvalid : (LogStore.open_ logged .empty).Valid :=
    .recorded _ rfl (LogStore.recorded_open logged .empty)
  have hopen : (LogStore.open_ logged .empty).inMemory = MemoryStore.open_ kept := by
    rw [MemoryStore.open_, ← hrecords, ← hbytes]
    rfl
  rw [Session.answersBetween_eq hvalid events hput, Session.inMemory, hopen]

/-- A scan that a compaction and a deletion come between, with room for one record only. -/
theorem answers_eq_across_compaction :
    LogStore.Encodable "a" (ByteArray.empty.push 7) ∧ LogStore.Encodable "b" .empty ∧
      (Session.mk (LogStore.open_ { cacheSize := 0, maxRecords := some 1 } .empty)
        []).answersBetween
          [.call (.put "a" (ByteArray.empty.push 7)), .call (.scan .all), .compact,
            .call (.put "b" .empty), .call (.next 0), .call (.delete "a"), .call .stats,
            .call .close, .call (.get "a")] =
        (Session.mk (MemoryStore.open_ { maxRecords := some 1 }) []).answers
          [.put "a" (ByteArray.empty.push 7), .scan .all, .put "b" .empty, .next 0, .delete "a",
            .stats, .close, .get "a"] := by
  have ha : LogStore.Encodable "a" (ByteArray.empty.push 7) := by
    constructor <;> decide
  have hb : LogStore.Encodable "b" .empty := by constructor <;> decide
  refine ⟨ha, hb, ?_⟩
  refine log_store_answers_eq_memory_store_answers rfl rfl
    [.call (.put "a" (ByteArray.empty.push 7)), .call (.scan .all), .compact,
      .call (.put "b" .empty), .call (.next 0), .call (.delete "a"), .call .stats,
      .call .close, .call (.get "a")] ?_
  intro id record hmem
  simp only [List.mem_cons, LogEvent.call.injEq, StoreCall.put.injEq, reduceCtorEq, false_or,
    or_false, List.not_mem_nil] at hmem
  rcases hmem with ⟨rfl, rfl⟩ | ⟨rfl, rfl⟩
  · exact ha
  · exact hb

end DocBase
