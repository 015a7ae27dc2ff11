import DocBase.Proofs.Store.Replay
import DocBase.Store.Log.Store

/-! An open store is at all times what replay would make of its file: each operation keeps
the frames, the index, the counts of bytes and the cache in step, and a compaction leaves
frames of the live records alone. -/
namespace DocBase
open Keyed Std

/-! ## Caches -/
namespace Log.Cache

/-- What is cached is what is recorded. -/
structure Agrees (c : Cache) (m : Keyed String Bytes) : Prop where
  ascending : Ascending c.records
  recorded : ∀ id record, c.records.get? id = some record → m.get? id = some record
  idle : c.capacity = 0 → c.records = []

theorem agrees_empty {c : Cache} (h : c.records = []) (m : Keyed String Bytes) : c.Agrees m :=
  ⟨h ▸ ascending_nil, by simp [h, Keyed.get?], fun _ => h⟩

theorem get?_of_get?_erase {m : Keyed String Bytes} (h : Ascending m) {k id : String}
    {record : Bytes} (hg : (m.erase k).get? id = some record) : m.get? id = some record := by
  rw [get?_erase h] at hg
  split at hg
  · cases hg
  · exact hg

theorem evict_spec (capacity : Nat) (queue : List String) {records : Keyed String Bytes}
    (h : Ascending records) :
    Ascending (evict capacity queue records).2 ∧
      ∀ id record, (evict capacity queue records).2.get? id = some record →
        records.get? id = some record := by
  induction queue generalizing records with
  | nil => exact ⟨h, fun _ _ hg => hg⟩
  | cons id rest ih =>
    rw [evict]
    split
    · obtain ⟨hasc, hall⟩ := ih (h.erase id)
      exact ⟨hasc, fun k record hg => get?_of_get?_erase h (hall k record hg)⟩
    · exact ⟨h, fun _ _ hg => hg⟩

theorem Agrees.insert_of {c : Cache} {m n : Keyed String Bytes} (h : c.Agrees m) (id : String)
    (record : Bytes) (hid : n.get? id = some record)
    (hrest : ∀ k, k ≠ id → m.get? k = n.get? k) : (c.insert id record).Agrees n := by
  rw [Cache.insert]
  split
  next hidle => exact agrees_empty (h.idle hidle) n
  next hsome =>
    obtain ⟨hasc, hall⟩ := evict_spec c.capacity
      (if c.records.contains id then c.queue else c.queue ++ [id]) (h.ascending.insert id record)
    refine ⟨hasc, fun k r hg => ?_, fun hidle => absurd hidle hsome⟩
    have hg := hall k r hg
    rw [get?_insert h.ascending] at hg
    split at hg
    next hk =>
      rw [LawfulEqOrd.eq_of_compare hk, hid, ← hg]
    next hk =>
      have hne : k ≠ id := fun e => hk (e ▸ ReflOrd.compare_self)
      rw [← hrest k hne, h.recorded k r hg]

theorem Agrees.remove {c : Cache} {m : Keyed String Bytes} (h : c.Agrees m) (hm : Ascending m)
    (id : String) : (c.remove id).Agrees (m.erase id) := by
  refine ⟨h.ascending.erase id, fun k r hg => ?_, fun hidle => ?_⟩
  · have hk := h.recorded k r (get?_of_get?_erase h.ascending hg)
    rw [get?_erase hm]
    rw [Cache.remove, get?_erase h.ascending] at hg
    split at hg
    · cases hg
    next hne => rw [if_neg hne, hk]
  · simp only [Cache.remove, h.idle hidle, Keyed.erase]

end Log.Cache

/-! ## Compaction -/
namespace Log

/-- The frames that write these records. -/
def liveFrames (m : Keyed String Bytes) : List Frame :=
  m.map fun e => { op := .put, id := e.1, data := e.2 }

theorem recordsOf_liveFrames {m : Keyed String Bytes} (h : Ascending m) :
    recordsOf (liveFrames m) = m := by
  rw [recordsOf, liveFrames, List.foldl_map]
  exact ofList_of_ascending h

/-- Where the data of frames lies that stand together from a place on. -/
def slotsFrom : Nat → List Frame → Keyed String Slot
  | _, [] => []
  | start, f :: fs => (f.id, .ofFrame start f) :: slotsFrom (start + f.size) fs

theorem readSlot_eq {file : Bytes} {slot : Slot} (h : slot.offset + slot.length ≤ file.size) :
    LogStore.readSlot file slot = .ok (slot.data file) := by
  rw [LogStore.readSlot, if_neg (by omega), Slot.data]

/-- The live log, if it can be written, is the frames of the live records. -/
theorem liveLog_eq_ok {file : Bytes} {entries : Keyed String Slot}
    (h : ∀ e ∈ entries, e.2.offset + e.2.length ≤ file.size) {log log' : Bytes}
    {index index' : Keyed String Slot}
    (hlive : LogStore.liveLog file entries log index = .ok (log', index')) :
    (∀ f ∈ liveFrames (contents file entries), f.Fits) ∧
      log' = log ++ bytesOf Crc32.ofBytes (liveFrames (contents file entries)) ∧
      index' = index.reverse ++ slotsFrom log.size (liveFrames (contents file entries)) := by
  induction entries generalizing log index with
  | nil =>
    cases hlive
    simp [liveFrames, contents, bytesOf, slotsFrom]
  | cons e rest ih =>
    obtain ⟨id, slot⟩ := e
    have hslot := h _ List.mem_cons_self
    rw [LogStore.liveLog, readSlot_eq hslot] at hlive
    cases hencode : Frame.encode Crc32.ofBytes ⟨.put, id, slot.data file⟩ with
    | error e => simp [bind, Except.bind, hencode] at hlive
    | ok bytes =>
      obtain ⟨rfl, hid, hsize⟩ := Frame.encode_eq_ok hencode
      simp only [bind, Except.bind, hencode, Frame.size_bytes] at hlive
      obtain ⟨hfits, rfl, rfl⟩ := ih (fun e he => h e (List.mem_cons_of_mem _ he)) hlive
      have hlength := Slot.size_data hslot
      refine ⟨List.forall_mem_cons.mpr ⟨Frame.Fits.of_size hid hsize, hfits⟩, ?_, ?_⟩
      · simp [liveFrames, contents, bytesOf, ByteArray.append_assoc]
      · simp [liveFrames, contents, slotsFrom, Slot.ofFrame, hlength]

/-- Replaying frames that write ascending identifiers lays them out one after another. -/
theorem foldl_step_liveFrames {m : Keyed String Bytes} (r : Replay)
    (h : Ascending (r.index ++ slotsFrom r.stop (liveFrames m))) :
    (liveFrames m).foldl Replay.step r =
      { index := r.index ++ slotsFrom r.stop (liveFrames m)
        stop := r.stop + (bytesOf Crc32.ofBytes (liveFrames m)).size
        liveBytes := r.liveBytes + weigh ByteArray.size m
        deadBytes := r.deadBytes } := by
  induction m generalizing r with
  | nil => simp [liveFrames, slotsFrom, bytesOf]
  | cons e m ih =>
    have hgt := h.gt_of_append
    have hstep : r.step ⟨.put, e.1, e.2⟩ =
        { index := r.index ++ [(e.1, .ofFrame r.stop ⟨.put, e.1, e.2⟩)]
          stop := r.stop + Frame.size ⟨.put, e.1, e.2⟩
          liveBytes := r.liveBytes + e.2.size
          deadBytes := r.deadBytes } := by
      simp only [Replay.step, get?_of_forall_gt hgt, insert_of_forall_gt hgt, Option.map_none,
        Option.getD_none, Nat.sub_zero, Nat.add_zero]
    have hcons : liveFrames (e :: m) = ⟨.put, e.1, e.2⟩ :: liveFrames m := rfl
    rw [hcons, slotsFrom] at h
    rw [hcons, List.foldl_cons, hstep, ih _ (by simpa using h)]
    simp [slotsFrom, bytesOf, Nat.add_assoc]

theorem keys_slotsFrom (start : Nat) (m : Keyed String Bytes) :
    (slotsFrom start (liveFrames m)).keys = m.keys := by
  induction m generalizing start with
  | nil => rfl
  | cons e m ih =>
    have hrest := ih (start + Frame.size ⟨.put, e.1, e.2⟩)
    simp only [Keyed.keys, liveFrames, List.map_cons, slotsFrom] at hrest ⊢
    rw [hrest]

end Log

/-! ## Stores -/
namespace LogStore
open Log

def replayed (s : LogStore) : Replay := ⟨s.index, s.stop, s.liveBytes, s.deadBytes⟩

def records (s : LogStore) : Keyed String Bytes := contents s.file s.index

/-- The store is what replaying its frames gives. -/
structure Recorded (s : LogStore) (fs : List Frame) : Prop where
  fits : ∀ f ∈ fs, f.Fits
  file : s.file = bytesOf Crc32.ofBytes fs
  replay : s.replayed = fs.foldl Replay.step {}
  cached : s.cache.Agrees s.records

variable {s s' : LogStore} {fs : List Frame}

theorem Recorded.sound (h : s.Recorded fs) : s.replayed.Sound s.file := by
  rw [h.file, h.replay]
  exact (Replay.sound_foldl Crc32.ofBytes h.fits).1

theorem Recorded.records_eq (h : s.Recorded fs) : s.records = recordsOf fs := by
  rw [← (Replay.sound_foldl Crc32.ofBytes h.fits).2, ← h.file, ← h.replay]
  rfl

theorem Recorded.ascending (h : s.Recorded fs) : Ascending s.records :=
  ascending_mapValues.mpr h.sound.ascending

theorem Recorded.live (h : s.Recorded fs) : s.liveBytes = weigh ByteArray.size s.records := by
  have hweigh : weigh ByteArray.size s.records = weigh Slot.length s.index := by
    simp only [weigh, records, contents, mapValues, List.map_map]
    congr 1
    exact List.map_congr_left fun e he => Slot.size_data (h.sound.within e he)
  rw [hweigh]
  exact h.sound.live

theorem Recorded.data_of_get? (h : s.Recorded fs) {id : String} {slot : Slot}
    (hslot : s.index.get? id = some slot) :
    readSlot s.file slot = .ok (slot.data s.file) ∧ (slot.data s.file).size = slot.length ∧
      id.utf8ByteSize ≤ maxIdLength := by
  have hmem : (id, slot) ∈ s.index := mem_of_get? hslot
  have hwithin := h.sound.within _ hmem
  exact ⟨readSlot_eq hwithin, Slot.size_data hwithin, h.sound.named _ hmem⟩

theorem get?_records (s : LogStore) (id : String) :
    s.records.get? id = (s.index.get? id).map (Slot.data s.file) :=
  get?_mapValues _ _ _

/-- What is open is what replay made of the frames at the start of the file. -/
theorem recorded_open (c : StoreConfig) (file : Bytes) :
    (open_ c file).Recorded (frames Crc32.ofBytes file) := by
  obtain ⟨hfits, hsize, hbytes⟩ := frames_split Crc32.ofBytes file
  have hstop := (Replay.sound_foldl Crc32.ofBytes hfits).1.stop
  refine ⟨hfits, ?_, rfl, Cache.agrees_empty rfl _⟩
  simp only [open_, replay, hstop]
  split
  · exact hbytes
  · rw [← hbytes, extract_zero_of_le (by omega)]

/-- A store to whose file a frame was added, and whose index and counts follow it. -/
theorem Recorded.append (h : s.Recorded fs) {f : Frame} (hf : f.Fits)
    (hfile : s'.file = s.file ++ f.bytes Crc32.ofBytes)
    (hreplay : s'.replayed = s.replayed.step f)
    (hcached : s'.cache.Agrees (applyFrame s.records f)) : s'.Recorded (fs ++ [f]) := by
  refine ⟨?_, ?_, ?_, ?_⟩
  · intro g hg
    rcases List.mem_append.mp hg with hg | hg
    · exact h.fits g hg
    · rw [List.mem_singleton.mp hg]; exact hf
  · rw [hfile, h.file, bytesOf_concat]
  · rw [hreplay, h.replay, List.foldl_append]; rfl
  · have hrecords : s'.records = applyFrame s.records f := by
      have hstep := h.sound.contents_step Crc32.ofBytes f
      rw [← hfile, ← hreplay] at hstep
      exact hstep
    rw [hrecords]
    exact hcached

/-! ## What each operation leaves -/

/-- The log of the live records in the place of the file. -/
def compacted (s : LogStore) (log : Bytes) (index : Keyed String Slot) : LogStore :=
  { s with file := log, left := s.left.or (some s.file), index, stop := log.size, deadBytes := 0 }

theorem Recorded.compacted (h : s.Recorded fs) {log : Bytes} {index : Keyed String Slot}
    (hlive : liveLog s.file s.index .empty [] = .ok (log, index)) :
    (s.compacted log index).Recorded (liveFrames s.records) := by
  obtain ⟨hfits, hlog, hindex⟩ := liveLog_eq_ok h.sound.within hlive
  change ∀ f ∈ liveFrames s.records, f.Fits at hfits
  change _ = _ ++ bytesOf _ (liveFrames s.records) at hlog
  change _ = _ ++ slotsFrom _ (liveFrames s.records) at hindex
  simp only [ByteArray.empty_append, List.reverse_nil, List.nil_append, ByteArray.size_empty]
    at hlog hindex
  have hasc : Ascending ([] ++ slotsFrom 0 (liveFrames s.records)) :=
    ascending_of_keys (keys_slotsFrom 0 s.records) h.ascending
  have hreplay : (s.compacted log index).replayed =
      (liveFrames s.records).foldl Replay.step {} := by
    rw [foldl_step_liveFrames {} hasc]
    simp only [replayed, LogStore.compacted, hlog, hindex, h.live, List.nil_append, Nat.zero_add]
  have hrecords : (s.compacted log index).records = s.records := by
    have hnew := (Replay.sound_foldl Crc32.ofBytes hfits).2
    rw [← hreplay, ← hlog, recordsOf_liveFrames h.ascending] at hnew
    exact hnew
  refine ⟨hfits, hlog, hreplay, ?_⟩
  rw [hrecords]
  exact h.cached

/-- A compaction that succeeds lays the live records out anew, and one that fails does
nothing. -/
theorem compact_cases (s : LogStore) :
    s.compact.2 = s ∨ ∃ log index, liveLog s.file s.index .empty [] = .ok (log, index) ∧
      s.compact = (.ok (), s.compacted log index) := by
  rw [compact, whenOpen]
  split
  · split
    · exact Or.inl rfl
    · exact Or.inl rfl
    next log index _ hlive => exact Or.inr ⟨log, index, hlive, rfl⟩
  · exact Or.inl rfl

theorem compactIfDue_cases (s : LogStore) :
    s.compactIfDue = s ∨ ∃ log index, liveLog s.file s.index .empty [] = .ok (log, index) ∧
      s.compactIfDue = s.compacted log index := by
  rw [compactIfDue]
  split
  · rcases compact_cases s with h | ⟨log, index, hlive, h⟩
    · exact Or.inl h
    · exact Or.inr ⟨log, index, hlive, by rw [h]⟩
  · exact Or.inl rfl

theorem isOpen_compactIfDue (s : LogStore) : s.compactIfDue.isOpen = s.isOpen := by
  rcases compactIfDue_cases s with hsame | ⟨log, index, -, hcompact⟩
  · rw [hsame]
  · rw [hcompact]; rfl

theorem Recorded.records_compacted (h : s.Recorded fs)
    {log : Bytes} {index : Keyed String Slot}
    (hlive : liveLog s.file s.index .empty [] = .ok (log, index)) :
    (s.compacted log index).records = s.records := by
  rw [(h.compacted hlive).records_eq, recordsOf_liveFrames h.ascending]

theorem Recorded.compactIfDue (h : s.Recorded fs) :
    (∃ gs, s.compactIfDue.Recorded gs) ∧ s.compactIfDue.records = s.records := by
  rcases compactIfDue_cases s with hsame | ⟨log, index, hlive, hcompact⟩
  · rw [hsame]; exact ⟨⟨fs, h⟩, rfl⟩
  · rw [hcompact]; exact ⟨⟨_, h.compacted hlive⟩, h.records_compacted hlive⟩

/-- Getting a record changes at most what is counted and cached. -/
theorem Recorded.get (h : s.Recorded fs) (hopen : s.isOpen) (id : String) :
    ∃ cache : Cache, cache.Agrees s.records ∧
      s.get id = (.ok (s.records.get? id), { s with counts := s.counts.read, cache }) := by
  rw [LogStore.get, whenOpen, if_pos hopen, get?_records]
  cases hslot : s.index.get? id with
  | none => exact ⟨s.cache, h.cached, by simp [hslot]⟩
  | some slot =>
    obtain ⟨hread, -, -⟩ := h.data_of_get? hslot
    have hrecord : s.records.get? id = some (slot.data s.file) := by
      rw [get?_records, hslot, Option.map_some]
    simp only [hslot, Option.map_some]
    cases hcache : s.cache.get? id with
    | none =>
      refine ⟨s.cache.insert id (slot.data s.file), ?_, by simp only [hread]⟩
      exact h.cached.insert_of id _ hrecord fun _ _ => rfl
    | some record =>
      have := h.cached.recorded id record hcache
      rw [hrecord] at this
      cases this
      exact ⟨s.cache, h.cached, rfl⟩

/-- The store with one more record in it. -/
def written (s : LogStore) (id : String) (record : Bytes) : LogStore :=
  let f : Frame := { op := .put, id, data := record }
  { s.append (f.bytes Crc32.ofBytes) with
    index := s.index.insert id (.ofFrame s.stop f)
    liveBytes := s.liveBytes - ((s.index.get? id).map (·.length)).getD 0 + record.size
    deadBytes := s.deadBytes + ((s.index.get? id).map (·.frameSize)).getD 0
    cache := s.cache.insert id record
    counts := s.counts.write }

theorem Recorded.written (h : s.Recorded fs) {id : String} {record : Bytes}
    (hf : Frame.Fits ⟨.put, id, record⟩) :
    (s.written id record).Recorded (fs ++ [⟨.put, id, record⟩]) := by
  refine h.append hf rfl ?_ ?_
  · have hold := weigh_get?_le Slot.length id s.index
    have hlive : s.liveBytes = weigh Slot.length s.index := h.sound.live
    have hcount : s.liveBytes - ((s.index.get? id).map Slot.length).getD 0 + record.size =
        s.liveBytes + record.size - ((s.index.get? id).map Slot.length).getD 0 := by omega
    simp only [replayed, Replay.step, LogStore.written, LogStore.append, Frame.size_bytes, hcount]
  · refine h.cached.insert_of id record (get?_insert_same _ _ _) fun k hk => ?_
    exact (get?_insert_ne hk _).symm

theorem Recorded.records_written (h : s.Recorded fs)
    {id : String} {record : Bytes} (hf : Frame.Fits ⟨.put, id, record⟩) :
    (s.written id record).records = s.records.insert id record := by
  rw [(h.written hf).records_eq, recordsOf_concat, ← h.records_eq]
  rfl

/-- The store with one record less in it. -/
def removed (s : LogStore) (id : String) (old : Slot) : LogStore :=
  let f : Frame := { op := .delete, id, data := .empty }
  { s.append (f.bytes Crc32.ofBytes) with
    index := s.index.erase id
    liveBytes := s.liveBytes - old.length
    deadBytes := s.deadBytes + old.frameSize + f.size
    cache := s.cache.remove id
    counts := s.counts.delete }

theorem Recorded.removed (h : s.Recorded fs) {id : String} {old : Slot}
    (hold : s.index.get? id = some old) :
    (s.removed id old).Recorded (fs ++ [⟨.delete, id, .empty⟩]) := by
  obtain ⟨-, -, hid⟩ := h.data_of_get? hold
  refine h.append ⟨hid, ?_⟩ rfl ?_ (h.cached.remove h.ascending id)
  · simp only [Frame.size_body, bodyHeaderSize, ByteArray.size_empty, UInt32.size]
    rw [maxIdLength] at hid
    omega
  · simp only [replayed, Replay.step, LogStore.removed, LogStore.append, Frame.size_bytes, hold,
      Option.map_some, Option.getD_some, Nat.add_right_comm]

theorem Recorded.records_removed (h : s.Recorded fs)
    {id : String} {old : Slot} (hold : s.index.get? id = some old) :
    (s.removed id old).records = s.records.erase id := by
  rw [(h.removed hold).records_eq, recordsOf_concat, ← h.records_eq]
  rfl

/-- The record would fit a frame under its identifier. -/
def Encodable (id : String) (record : Bytes) : Prop :=
  id.utf8ByteSize ≤ maxIdLength ∧ Frame.size ⟨.put, id, record⟩ < UInt32.size

theorem put_eq (hopen : s.isOpen) {id : String} {record : Bytes} (h : Encodable id record) :
    s.put id record =
      match checkLimits s.maxRecords s.maxBytes
        (s.index.length + if (s.index.get? id).isNone then 1 else 0)
        (s.liveBytes - ((s.index.get? id).map (·.length)).getD 0 + record.size) with
      | .error e => (.error e, s)
      | .ok () => (.ok (), (s.written id record).compactIfDue) := by
  obtain ⟨hid, hsize⟩ := h
  have hrecord : ¬ UInt32.size ≤ record.size := by
    dsimp only [Frame.size] at hsize; omega
  rw [put, if_neg hrecord, whenOpen, if_pos hopen]
  simp only [Frame.encode_of_small Crc32.ofBytes hid hsize]
  rfl

/-- A record is either refused, which changes nothing, or written. -/
theorem put_cases (s : LogStore) (id : String) (record : Bytes) :
    (∃ e, s.put id record = (.error e, s)) ∨
      (s.isOpen ∧ Encodable id record ∧
        s.put id record = (.ok (), (s.written id record).compactIfDue)) := by
  rw [put]
  split
  · exact Or.inl ⟨_, rfl⟩
  rw [whenOpen]
  split
  next hopen =>
    dsimp only
    split
    · exact Or.inl ⟨_, rfl⟩
    · split
      · exact Or.inl ⟨_, rfl⟩
      next hencode =>
        obtain ⟨rfl, hid, hsize⟩ := Frame.encode_eq_ok hencode
        exact Or.inr ⟨hopen, ⟨hid, hsize⟩, rfl⟩
  · exact Or.inl ⟨_, rfl⟩

theorem Recorded.delete (h : s.Recorded fs) (hopen : s.isOpen) (id : String) :
    s.delete id =
      match s.index.get? id with
      | none => (.ok false, { s with counts := s.counts.delete })
      | some old => (.ok true, (s.removed id old).compactIfDue) := by
  rw [LogStore.delete, whenOpen, if_pos hopen]
  cases hold : s.index.get? id with
  | none => simp only [hold]
  | some old =>
    obtain ⟨-, -, hid⟩ := h.data_of_get? hold
    have hsize : Frame.size ⟨.delete, id, .empty⟩ < UInt32.size := by
      rw [maxIdLength] at hid
      simp only [Frame.size, headerSize, bodyHeaderSize, ByteArray.size_empty, UInt32.size]
      omega
    simp only [hold, Frame.encode_of_small Crc32.ofBytes (f := ⟨.delete, id, .empty⟩) hid hsize]
    rw [LogStore.removed, Frame.size_bytes]
    rfl

end LogStore
end DocBase
