import DocBase.Proofs.Store.Recovery

/-! The books of a log. The frames of the live records lie side by side in the file and all the
rest of it is dead, each live record is the one that was put last, and not much more than the
live records is ever dead. -/
namespace DocBase
open Keyed Log

/-! ## Frames side by side -/
namespace Log

/-- The end of a record, and of the frame around it. -/
def Slot.stop (slot : Slot) : Nat := slot.offset + slot.length

/-- The frames around two records have no byte in common. -/
def Slot.Apart (a b : Slot) : Prop :=
  a.stop + b.frameSize ≤ b.stop ∨ b.stop + a.frameSize ≤ a.stop

theorem Slot.Apart.symm (a b : Slot) (h : a.Apart b) : b.Apart a := h.elim Or.inr Or.inl

theorem Slot.stop_ofFrame (start : Nat) (f : Frame) :
    (Slot.ofFrame start f).stop = start + f.size := by
  unfold Slot.stop Slot.ofFrame Frame.size
  dsimp only
  omega

/-- The frame around a record is of the size that the record asks for, and lies behind the
start of the log. -/
structure Slot.Framed (id : String) (slot : Slot) : Prop where
  size_eq : slot.frameSize = headerSize + bodyHeaderSize + id.utf8ByteSize + slot.length
  within : slot.frameSize ≤ slot.stop

theorem Slot.framed_ofFrame (start : Nat) (f : Frame) : Slot.Framed f.id (.ofFrame start f) := by
  constructor
  · rfl
  · rw [Slot.stop_ofFrame]
    exact Nat.le_add_left _ _

/-- What was read is live or dead, and the live frames lie apart from one another. -/
structure Replay.Balanced (r : Replay) : Prop where
  total : r.stop = r.deadBytes + weigh Slot.frameSize r.index
  framed : ∀ e ∈ r.index, Slot.Framed e.1 e.2
  stops : ∀ e ∈ r.index, e.2.stop ≤ r.stop
  apart : r.index.Pairwise fun a b => a.2.Apart b.2

namespace Replay

theorem balanced_empty : Balanced {} :=
  ⟨rfl, by simp, by simp, List.Pairwise.nil⟩

theorem Balanced.put {r : Replay} (h : r.Balanced) {f : Frame} (hop : f.op = .put) :
    (r.step f).Balanced := by
  have hweigh := weigh_insert Slot.frameSize f.id (Slot.ofFrame r.stop f) r.index
  have htotal := h.total
  have hsize : (Slot.ofFrame r.stop f).frameSize = f.size := rfl
  simp only [Replay.step, hop]
  constructor
  · dsimp only
    omega
  · intro e he
    rcases mem_insert he with ⟨hid, hslot⟩ | he
    · rw [hslot, ← Std.LawfulEqOrd.eq_of_compare hid]
      exact Slot.framed_ofFrame r.stop f
    · exact h.framed e he
  · intro e he
    rcases mem_insert he with ⟨-, hslot⟩ | he
    · rw [hslot, Slot.stop_ofFrame]
    · exact Nat.le_add_right_of_le (h.stops e he)
  -- the new frame stands behind all that was read
  · refine pairwise_insert Slot.Apart.symm h.apart fun e he => Or.inr ?_
    rw [Slot.stop_ofFrame, hsize]
    exact Nat.add_le_add_right (h.stops e he) _

theorem Balanced.delete {r : Replay} (h : r.Balanced) {f : Frame} (hop : f.op = .delete) :
    (r.step f).Balanced := by
  have hweigh := weigh_erase Slot.frameSize f.id r.index
  have htotal := h.total
  have hsub := erase_sublist f.id r.index
  simp only [Replay.step, hop]
  constructor
  · dsimp only
    omega
  · intro e he
    exact h.framed e (hsub.subset he)
  · intro e he
    exact Nat.le_add_right_of_le (h.stops e (hsub.subset he))
  · exact h.apart.sublist hsub

theorem balanced_foldl (fs : List Frame) : (fs.foldl Replay.step {}).Balanced := by
  induction fs using List.reverseRecOn with
  | nil => exact balanced_empty
  | append_singleton fs f ih =>
    rw [List.foldl_append]
    cases hop : f.op with
    | put => exact ih.put hop
    | delete => exact ih.delete hop

end Replay

/-! ## What was written last -/

/-- The record that the last frame of an identifier puts, unless that is a deletion. -/
def lastPut (id : String) (fs : List Frame) : Option Bytes :=
  (fs.reverse.find? (·.id == id)).bind fun f =>
    match f.op with
    | .put => some f.data
    | .delete => none

theorem ascending_recordsOf (fs : List Frame) : Ascending (recordsOf fs) := by
  induction fs using List.reverseRecOn with
  | nil => exact ascending_nil
  | append_singleton fs f ih =>
    rw [recordsOf_concat]
    unfold applyFrame
    cases f.op with
    | put => exact ih.insert f.id f.data
    | delete => exact ih.erase f.id

theorem get?_recordsOf (fs : List Frame) (id : String) :
    (recordsOf fs).get? id = lastPut id fs := by
  induction fs using List.reverseRecOn with
  | nil => rfl
  | append_singleton fs f ih =>
    have hasc := ascending_recordsOf fs
    rw [recordsOf_concat]
    unfold applyFrame lastPut
    rw [List.reverse_append, List.reverse_singleton, List.singleton_append]
    by_cases hid : f.id = id
    · subst hid
      rw [List.find?_cons_of_pos (by simp)]
      cases hop : f.op with
      | put => simp [hop, get?_insert_same]
      | delete => simp [hop, get?_erase_self hasc]
    · rw [List.find?_cons_of_neg (by simpa using hid)]
      change _ = lastPut id fs
      rw [← ih]
      cases f.op with
      | put => exact get?_insert_ne (Ne.symm hid) f.data
      | delete => exact get?_erase_ne hasc (Ne.symm hid)

/-- What is recorded was written by one of the frames. -/
theorem mem_of_mem_recordsOf {fs : List Frame} {id : String} {record : Bytes}
    (h : (id, record) ∈ recordsOf fs) : ⟨.put, id, record⟩ ∈ fs := by
  rw [mem_iff_get? (ascending_recordsOf fs), get?_recordsOf] at h
  unfold lastPut at h
  obtain ⟨⟨op, id', data⟩, hfind, hput⟩ := Option.bind_eq_some_iff.mp h
  have hid : id' = id := by simpa using List.find?_some hfind
  have hmem := List.mem_of_find?_eq_some hfind
  cases op with
  | put =>
    cases hput
    subst hid
    exact List.mem_reverse.mp hmem
  | delete => cases hput

/-- A log can be laid out anew if the frames of its live records are small enough. -/
theorem exists_liveLog {file : Bytes} {entries : Keyed String Slot}
    (h : ∀ e ∈ entries, e.2.offset + e.2.length ≤ file.size ∧ e.1.utf8ByteSize ≤ maxIdLength ∧
      Frame.size ⟨.put, e.1, e.2.data file⟩ < UInt32.size) (log : Bytes)
    (index : Keyed String Slot) :
    ∃ laid, LogStore.liveLog file entries log index = .ok laid := by
  induction entries generalizing log index with
  | nil => exact ⟨_, rfl⟩
  | cons e rest ih =>
    obtain ⟨id, slot⟩ := e
    obtain ⟨hwithin, hid, hsize⟩ := h _ List.mem_cons_self
    have hencode := Frame.encode_of_small Crc32.ofBytes (f := ⟨.put, id, slot.data file⟩) hid hsize
    rw [LogStore.liveLog, readSlot_eq hwithin]
    simp only [bind, Except.bind, hencode]
    exact ih (fun e he => h e (List.mem_cons_of_mem _ he)) _ _

theorem size_le_of_mem (sum : Bytes → UInt32) {fs : List Frame} {f : Frame} (h : f ∈ fs) :
    f.size ≤ (bytesOf sum fs).size := by
  induction fs with
  | nil => cases h
  | cons g fs ih =>
    rw [bytesOf, ByteArray.size_append, Frame.size_bytes]
    rcases List.mem_cons.mp h with rfl | h
    · exact Nat.le_add_right _ _
    · exact Nat.le_add_left_of_le (ih h)

/-- While a log is read, what is taken from the live bytes was counted among them before, and
the place of the next frame is within the log. -/
theorem replay_covered (sum : Bytes → UInt32) {log : Bytes} {read rest : List Frame}
    (h : frames sum log = read ++ rest) : (read.foldl Replay.step {}).stop ≤ log.size ∧
      ∀ id, (((read.foldl Replay.step {}).index.get? id).map Slot.length).getD 0 ≤
        (read.foldl Replay.step {}).liveBytes := by
  obtain ⟨hfits, hsize, -⟩ := frames_split sum log
  rw [h] at hfits hsize
  have hsound := (Replay.sound_foldl sum fun f hf => hfits f (List.mem_append_left _ hf)).1
  constructor
  · rw [bytesOf_append, ByteArray.size_append] at hsize
    rw [hsound.stop]
    omega
  · intro id
    rw [hsound.live]
    exact weigh_get?_le Slot.length id _

end Log

/-! ## Stores -/
namespace LogStore

/-- The store after a change, and the frame of the change if it took place and has one. -/
def perform (s : LogStore) : LogChange → LogStore × List Frame
  | .put id record =>
    match s.put id record with
    | (.ok (), t) => (t, [⟨.put, id, record⟩])
    | (.error _, t) => (t, [])
  | .delete id =>
    match s.delete id with
    | (.ok true, t) => (t, [⟨.delete, id, .empty⟩])
    | (_, t) => (t, [])
  | .compact => (s.compact.2, [])

/-- The store after changes, and the frames of those that took place behind the ones before. -/
def performAll (s : LogStore) (history : List Frame) : List LogChange → LogStore × List Frame
  | [] => (s, history)
  | change :: rest => (s.perform change).1.performAll (history ++ (s.perform change).2) rest

/-- An open store with nothing in the way of a compaction, in step with what was written. -/
structure Reconciled (s : LogStore) (history : List Frame) : Prop where
  isOpen : s.isOpen = true
  unobstructed : s.obstacle = none
  recorded : ∃ fs, s.Recorded fs ∧ ∀ f ∈ fs, f.size < UInt32.size
  records_eq : s.records = recordsOf history

variable {s : LogStore} {history : List Frame}

theorem reconciled_open (c : StoreConfig) {file : Bytes} (hfile : file.size < UInt32.size) :
    (open_ c file).Reconciled (frames Crc32.ofBytes file) := by
  have hrecorded := recorded_open c file
  have hsize := (frames_split Crc32.ofBytes file).2.1
  refine ⟨rfl, rfl, ⟨_, hrecorded, ?_⟩, hrecorded.records_eq⟩
  intro f hf
  have hle := size_le_of_mem Crc32.ofBytes hf
  omega

theorem Recorded.encodable {fs : List Frame} (h : s.Recorded fs)
    (hsmall : ∀ f ∈ fs, f.size < UInt32.size) {e : String × Slot} (he : e ∈ s.index) :
    e.2.offset + e.2.length ≤ s.file.size ∧ e.1.utf8ByteSize ≤ maxIdLength ∧
      Frame.size ⟨.put, e.1, e.2.data s.file⟩ < UInt32.size := by
  refine ⟨h.sound.within e he, h.sound.named e he, hsmall _ ?_⟩
  refine mem_of_mem_recordsOf ?_
  rw [← h.records_eq]
  exact mem_mapValues.mpr ⟨e.2, he, rfl⟩

/-- Where nothing is in the way, a compaction succeeds and leaves nothing dead. -/
theorem Reconciled.compact (h : s.Reconciled history) :
    s.compact.2.Reconciled history ∧ s.compact.2.deadBytes = 0 := by
  obtain ⟨fs, hfs, hsmall⟩ := h.recorded
  obtain ⟨⟨log, index⟩, hlive⟩ :=
    exists_liveLog (fun e he => hfs.encodable hsmall he) .empty []
  have hcompact : s.compact = (.ok (), s.compacted log index) := by
    rw [LogStore.compact, whenOpen, if_pos h.isOpen, hlive]
    split
    next hobstacle =>
      rw [h.unobstructed] at hobstacle
      cases hobstacle
    next hlog => cases hlog
    next hlog =>
      cases hlog
      rfl
  rw [hcompact]
  refine ⟨⟨h.isOpen, h.unobstructed, ⟨_, hfs.compacted hlive, ?_⟩, ?_⟩, rfl⟩
  · intro f hf
    obtain ⟨e, he, rfl⟩ := List.mem_map.mp hf
    rw [hfs.records_eq] at he
    exact hsmall _ (mem_of_mem_recordsOf he)
  · rw [hfs.records_compacted hlive, h.records_eq]

/-- So much may be dead without a compaction. -/
def Thrifty (s : LogStore) : Prop :=
  s.deadBytes < compactionThreshold ∨ s.deadBytes ≤ s.liveBytes

theorem Reconciled.compactIfDue (h : s.Reconciled history) :
    s.compactIfDue.Reconciled history ∧ s.compactIfDue.Thrifty := by
  unfold LogStore.compactIfDue
  split
  next hdue =>
    obtain ⟨hcompact, hdead⟩ := h.compact
    refine ⟨hcompact, Or.inl ?_⟩
    rw [hdead]
    decide
  next hdue =>
    refine ⟨h, ?_⟩
    unfold Thrifty
    omega

theorem Reconciled.written (h : s.Reconciled history) {id : String} {record : Bytes}
    (hfits : Encodable id record) :
    (s.written id record).Reconciled (history ++ [⟨.put, id, record⟩]) := by
  obtain ⟨fs, hfs, hsmall⟩ := h.recorded
  have hf := Frame.Fits.of_size hfits.1 hfits.2
  refine ⟨h.isOpen, h.unobstructed, ⟨_, hfs.written hf, ?_⟩, ?_⟩
  · intro f hmem
    rcases List.mem_append.mp hmem with hmem | hmem
    · exact hsmall f hmem
    · rw [List.mem_singleton.mp hmem]
      exact hfits.2
  · rw [hfs.records_written hf, recordsOf_concat, h.records_eq]
    rfl

theorem Reconciled.removed (h : s.Reconciled history) {id : String} {old : Slot}
    (hold : s.index.get? id = some old) :
    (s.removed id old).Reconciled (history ++ [⟨.delete, id, .empty⟩]) := by
  obtain ⟨fs, hfs, hsmall⟩ := h.recorded
  refine ⟨h.isOpen, h.unobstructed, ⟨_, hfs.removed hold, ?_⟩, ?_⟩
  · intro f hmem
    rcases List.mem_append.mp hmem with hmem | hmem
    · exact hsmall f hmem
    · have hid := (hfs.data_of_get? hold).2.2
      rw [List.mem_singleton.mp hmem]
      simp only [Frame.size, headerSize, bodyHeaderSize, ByteArray.size_empty, UInt32.size]
      unfold maxIdLength at hid
      omega
  · rw [hfs.records_removed hold, recordsOf_concat, h.records_eq]
    rfl

/-- A put either is refused, and leaves the store as it was, or is kept. -/
theorem Reconciled.put (h : s.Reconciled history) (id : String) (record : Bytes) :
    (∃ e, s.put id record = (.error e, s)) ∨ ∃ t, s.put id record = (.ok (), t) ∧
      t.Reconciled (history ++ [⟨.put, id, record⟩]) ∧ t.Thrifty := by
  rcases put_cases s id record with ⟨e, hput⟩ | ⟨-, hfits, hput⟩
  · exact Or.inl ⟨e, hput⟩
  · exact Or.inr ⟨_, hput, (h.written hfits).compactIfDue⟩

/-- A deletion either finds nothing, and is only counted, or is kept. -/
theorem Reconciled.delete (h : s.Reconciled history) (id : String) :
    (∃ t, s.delete id = (.ok false, t) ∧ t.Reconciled history) ∨
      ∃ t, s.delete id = (.ok true, t) ∧
        t.Reconciled (history ++ [⟨.delete, id, .empty⟩]) ∧ t.Thrifty := by
  obtain ⟨fs, hfs, hsmall⟩ := h.recorded
  rw [hfs.delete h.isOpen id]
  cases hold : s.index.get? id with
  | none =>
    refine Or.inl ⟨_, rfl, h.isOpen, h.unobstructed, ⟨fs, ?_, hsmall⟩, h.records_eq⟩
    exact ⟨hfs.fits, hfs.file, hfs.replay, hfs.cached⟩
  | some old => exact Or.inr ⟨_, rfl, (h.removed hold).compactIfDue⟩

theorem Reconciled.perform (h : s.Reconciled history) (change : LogChange) :
    (s.perform change).1.Reconciled (history ++ (s.perform change).2) := by
  cases change with
  | put id record =>
    rcases h.put id record with ⟨e, hput⟩ | ⟨t, hput, ht, -⟩
    · simpa only [LogStore.perform, hput, List.append_nil] using h
    · simpa only [LogStore.perform, hput] using ht
  | delete id =>
    rcases h.delete id with ⟨t, hdelete, ht⟩ | ⟨t, hdelete, ht, -⟩
    · simpa only [LogStore.perform, hdelete, List.append_nil] using ht
    · simpa only [LogStore.perform, hdelete] using ht
  | compact => simpa only [LogStore.perform, List.append_nil] using h.compact.1

theorem Reconciled.performAll (h : s.Reconciled history) (changes : List LogChange) :
    (s.performAll history changes).1.Reconciled (s.performAll history changes).2 := by
  induction changes generalizing s history with
  | nil => exact h
  | cons change rest ih => exact ih (h.perform change)

/-! ## The books -/

/-- The books of an open store after changes that wrote these frames. -/
structure Balanced (s : LogStore) (history : List Frame) : Prop where
  size_file : s.file.size = s.stop
  total : s.stop = s.deadBytes + weigh Slot.frameSize s.index
  live : s.liveBytes = weigh Slot.length s.index
  within : ∀ e ∈ s.index, Slot.Framed e.1 e.2 ∧ e.2.stop ≤ s.file.size ∧
    (e.2.data s.file).size = e.2.length
  current : ∀ id, (s.index.get? id).map (Slot.data s.file) = lastPut id history
  apart : s.index.Pairwise fun a b => a.2.Apart b.2
  /-- What a put or a deletion takes from the live bytes was counted among them. -/
  covered : ∀ id slot, s.index.get? id = some slot → slot.length ≤ s.liveBytes
  /-- The sizes of frames have 32 bits. -/
  fits : ∀ e ∈ s.index, e.2.frameSize < UInt32.size

theorem Reconciled.balanced (h : s.Reconciled history) : s.Balanced history := by
  obtain ⟨fs, hfs, hsmall⟩ := h.recorded
  have hbalanced : s.replayed.Balanced := by
    rw [hfs.replay]
    exact Replay.balanced_foldl fs
  have hsound := hfs.sound
  have hlive : s.liveBytes = weigh Slot.length s.index := hsound.live
  have hlength : ∀ e ∈ s.index, (e.2.data s.file).size = e.2.length :=
    fun e he => Slot.size_data (hsound.within e he)
  constructor
  · exact hsound.stop.symm
  · exact hbalanced.total
  · exact hlive
  · intro e he
    exact ⟨hbalanced.framed e he, hsound.within e he, hlength e he⟩
  · intro id
    rw [← get?_records, h.records_eq, get?_recordsOf]
  · exact hbalanced.apart
  · intro id slot hslot
    have hle := weigh_get?_le Slot.length id s.index
    rwa [hslot, ← hlive] at hle
  · intro e he
    have hsize := (hfs.encodable hsmall he).2.2
    rw [(hbalanced.framed e he).size_eq, ← hlength e he]
    exact hsize

/-- Whatever a file of fewer than `2 ^ 32` bytes held when it was opened, and whatever puts,
deletions and compactions followed: the books balance, also while the file is read, and right
after a put that succeeds and a deletion that finds its record no more is dead than is let be. -/
theorem balanced_performAll (c : StoreConfig) {file : Bytes} (hfile : file.size < UInt32.size)
    (changes : List LogChange) :
    let after := (open_ c file).performAll (frames Crc32.ofBytes file) changes
    after.1.isOpen ∧ after.1.Balanced after.2 ∧
      (∀ id record, (after.1.put id record).1 = .ok () → (after.1.put id record).2.Thrifty) ∧
      (∀ id, (after.1.delete id).1 = .ok true → (after.1.delete id).2.Thrifty) ∧
      ∀ read rest, frames Crc32.ofBytes file = read ++ rest →
        (read.foldl Replay.step {}).stop ≤ file.size ∧
          ∀ id, (((read.foldl Replay.step {}).index.get? id).map Slot.length).getD 0 ≤
            (read.foldl Replay.step {}).liveBytes := by
  intro after
  have h : after.1.Reconciled after.2 := (reconciled_open c hfile).performAll changes
  refine ⟨h.isOpen, h.balanced, ?_, ?_, fun read rest => replay_covered Crc32.ofBytes⟩
  · intro id record hok
    rcases h.put id record with ⟨e, hput⟩ | ⟨t, hput, -, ht⟩
    · rw [hput] at hok
      cases hok
    · rw [hput]
      exact ht
  · intro id hok
    rcases h.delete id with ⟨t, hdelete, -⟩ | ⟨t, hdelete, -, ht⟩
    · rw [hdelete] at hok
      cases hok
    · rw [hdelete]
      exact ht

/-- A record that was written over, and three bytes that are no frame. -/
def overwrittenFile : Bytes :=
  bytesOf Crc32.ofBytes [⟨.put, "a", ByteArray.empty.push 7⟩, ⟨.put, "a", .empty⟩] ++ tornFile

theorem balanced_performAll_overwritten :
    overwrittenFile.size < UInt32.size ∧
      let after := (open_ {} overwrittenFile).performAll (frames Crc32.ofBytes overwrittenFile)
        [.put "b" (ByteArray.empty.push 8), .delete "a", .compact, .put "b" .empty, .delete "c"]
      after.1.isOpen ∧ after.1.Balanced after.2 ∧
        (∀ id record, (after.1.put id record).1 = .ok () → (after.1.put id record).2.Thrifty) ∧
        (∀ id, (after.1.delete id).1 = .ok true → (after.1.delete id).2.Thrifty) ∧
        ∀ read rest, frames Crc32.ofBytes overwrittenFile = read ++ rest →
          (read.foldl Replay.step {}).stop ≤ overwrittenFile.size ∧
            ∀ id, (((read.foldl Replay.step {}).index.get? id).map Slot.length).getD 0 ≤
              (read.foldl Replay.step {}).liveBytes := by
  have hsize : overwrittenFile.size < UInt32.size := by
    simp only [overwrittenFile, bytesOf, ByteArray.size_append, Frame.size_bytes]
    decide
  exact ⟨hsize, balanced_performAll {} hsize _⟩

end LogStore
end DocBase
