import DocBase.Proofs.Store.Log

/-! Recovery: a log that was cut anywhere behind the place where it was opened or last laid
out anew opens as the store that was there after the last change whose frame is whole. -/
namespace DocBase
open Keyed Log

/-! ## Histories of a log -/

/-- A change of a store that its log keeps. -/
inductive LogChange
  | put (id : String) (record : Bytes)
  | delete (id : String)
  | compact

namespace LogStore

/-- The store after a change, if the change succeeds. -/
def changed? (s : LogStore) (change : LogChange) : Option LogStore :=
  match change with
  | .put id record => done (s.put id record)
  | .delete id => done (s.delete id)
  | .compact => done s.compact
where
  done {α : Type} : Except StoreError α × LogStore → Option LogStore
    | (.ok _, s) => some s
    | (.error _, _) => none

/-- The same store when the file that it left is gone. -/
def settled (s : LogStore) : LogStore := { s with left := none }

end LogStore

/-- The states of a store since its log was last opened or laid out anew, the present one
first. A log may be cut anywhere and opened again. -/
inductive LogHistory (c : StoreConfig) (file : Bytes) : List LogStore → Prop
  | opened : LogHistory c file [LogStore.open_ c file]
  | extended {s s' : LogStore} {older : List LogStore} (change : LogChange)
      (h : LogHistory c file (s :: older)) (hchange : s.settled.changed? change = some s')
      (hleft : s'.left = none) : LogHistory c file (s' :: s :: older)
  | renewed {s s' : LogStore} {older : List LogStore} (change : LogChange)
      (h : LogHistory c file (s :: older)) (hchange : s.settled.changed? change = some s')
      (hleft : s'.left ≠ none) : LogHistory c file [s']
  | reopened {s : LogStore} {older : List LogStore} (again : StoreConfig) (n : Nat)
      (h : LogHistory c file (s :: older)) :
      LogHistory c file [LogStore.open_ again (s.file.extract 0 n)]

namespace LogStore
variable {s s' : LogStore} {fs : List Frame}

theorem Recorded.settled (h : s.Recorded fs) : s.settled.Recorded fs :=
  ⟨h.fits, h.file, h.replay, h.cached⟩

/-- What a change may leave behind: the log that was there with at most one frame more, or
one laid out anew. -/
inductive Outcome (fs : List Frame) (s' : LogStore) : Prop
  | same (h : s'.Recorded fs)
  | longer (f : Frame) (h : s'.Recorded (fs ++ [f]))
  | anew (gs : List Frame) (h : s'.Recorded gs) (hleft : s'.left ≠ none)

theorem outcome_compactIfDue {f : Frame} (h : s.Recorded (fs ++ [f])) :
    Outcome fs s.compactIfDue := by
  rcases compactIfDue_cases s with hsame | ⟨log, index, hlive, hcompact⟩
  · rw [hsame]; exact .longer f h
  · rw [hcompact]; exact .anew _ (h.compacted hlive) (by simp [LogStore.compacted])

theorem Recorded.changed? (h : s.Recorded fs) (hopen : s.isOpen) {change : LogChange}
    (hchange : s.changed? change = some s') : s'.isOpen ∧ Outcome fs s' := by
  cases change with
  | put id record =>
    rcases put_cases s id record with ⟨e, hput⟩ | ⟨-, hfits, hput⟩
    · simp [LogStore.changed?, changed?.done, hput] at hchange
    · simp only [LogStore.changed?, changed?.done, hput, Option.some.injEq] at hchange
      subst hchange
      exact ⟨by rw [isOpen_compactIfDue]; exact hopen,
        outcome_compactIfDue (h.written (Frame.Fits.of_size hfits.1 hfits.2))⟩
  | delete id =>
    simp only [LogStore.changed?, h.delete hopen id] at hchange
    cases hold : s.index.get? id with
    | none =>
      rw [hold] at hchange
      cases hchange
      exact ⟨hopen, .same ⟨h.fits, h.file, h.replay, h.cached⟩⟩
    | some old =>
      rw [hold] at hchange
      cases hchange
      exact ⟨by rw [isOpen_compactIfDue]; exact hopen, outcome_compactIfDue (h.removed hold)⟩
  | compact =>
    rcases compact_cases s with hsame | ⟨log, index, hlive, hcompact⟩
    · have hs : s' = s := by
        simp only [LogStore.changed?] at hchange
        cases hr : s.compact with
        | mk r t =>
          rw [hr] at hchange hsame
          cases r with
          | error e => simp [changed?.done] at hchange
          | ok =>
            simp only [changed?.done, Option.some.injEq] at hchange
            rw [← hchange]; exact hsame
      rw [hs]
      exact ⟨hopen, .same h⟩
    · simp only [LogStore.changed?, hcompact, changed?.done, Option.some.injEq] at hchange
      subst hchange
      exact ⟨hopen, .anew _ (h.compacted hlive) (by simp [LogStore.compacted])⟩

end LogStore

/-! ## Cuts -/
open LogStore

/-- The last of the states whose file lies within the first bytes is the one that the
frames in these bytes describe. -/
def Recovers (states : List LogStore) (file : Bytes) (n : Nat) : Prop :=
  ∃ t, states.find? (·.file.size ≤ n) = some t ∧ t.isOpen ∧
    t.Recorded (frames Crc32.ofBytes (file.extract 0 n))

theorem recovers_whole {s : LogStore} {older : List LogStore} {fs : List Frame}
    (hopen : s.isOpen) (h : s.Recorded fs) {n : Nat} (hn : s.file.size ≤ n) :
    Recovers (s :: older) s.file n := by
  refine ⟨s, by simp [hn], hopen, ?_⟩
  rw [extract_zero_of_le hn, h.file, frames_bytesOf _ h.fits]
  exact h

theorem Recovers.cons {states : List LogStore} {file : Bytes} {n : Nat}
    (h : Recovers states file n) {s : LogStore} (hn : n < s.file.size)
    (hfile : s.file.extract 0 n = file.extract 0 n) : Recovers (s :: states) s.file n := by
  obtain ⟨t, hfind, hopen, hrecorded⟩ := h
  refine ⟨t, ?_, hopen, hfile ▸ hrecorded⟩
  rw [List.find?_cons_of_neg (by simpa using hn)]
  exact hfind

/-- A frame that was added: the cuts within it recover the state before, and shorter cuts
what they did before. -/
theorem Recovers.longer {s s' : LogStore} {older : List LogStore} {fs : List Frame} {f : Frame}
    (hopen : s.isOpen) (h : s.Recorded fs) (h' : s'.Recorded (fs ++ [f])) {n : Nat}
    (hcut : n < s.file.size → Recovers (s :: older) s.file n) (hn : n < s'.file.size) :
    Recovers (s' :: s :: older) s'.file n := by
  have hf : f.Fits := h'.fits f (by simp)
  have hfile : s'.file = s.file ++ f.bytes Crc32.ofBytes := by
    rw [h'.file, h.file, bytesOf_concat]
  by_cases hs : n < s.file.size
  · refine (hcut hs).cons hn ?_
    rw [hfile, extract_append_left (Nat.le_of_lt hs)]
  · have hcutFrames : frames Crc32.ofBytes (s'.file.extract 0 n) = fs := by
      rw [h'.file]
      refine frames_cut Crc32.ofBytes h.fits hf (by rw [← h.file]; omega) ?_
      rw [hfile, ByteArray.size_append, Frame.size_bytes] at hn
      rw [← h.file]
      exact hn
    refine ⟨s, ?_, hopen, hcutFrames ▸ h⟩
    rw [List.find?_cons_of_neg (by simpa using hn), List.find?_cons_of_pos (by simpa using hs)]

theorem recovers_of_history {c : StoreConfig} {file : Bytes} {states : List LogStore}
    (h : LogHistory c file states) : ∃ s older fs, states = s :: older ∧ s.isOpen ∧
      s.Recorded fs ∧ ∀ n, (states.getLastD s).file.size ≤ n → Recovers states s.file n := by
  induction h with
  | opened =>
    have hrecorded := recorded_open c file
    exact ⟨_, [], _, rfl, rfl, hrecorded, fun n hn => recovers_whole rfl hrecorded hn⟩
  | @reopened s older again n h ih =>
    have hrecorded := recorded_open again (s.file.extract 0 n)
    exact ⟨_, [], _, rfl, rfl, hrecorded, fun n hn => recovers_whole rfl hrecorded hn⟩
  | renewed change h hchange hleft ih =>
    obtain ⟨s, older, fs, hstates, hopen, hrecorded, -⟩ := ih
    cases hstates
    obtain ⟨hopen', houtcome⟩ := hrecorded.settled.changed? hopen hchange
    obtain ⟨gs, hgs⟩ : ∃ gs, LogStore.Recorded _ gs := by
      cases houtcome with
      | same h => exact ⟨_, h⟩
      | longer f h => exact ⟨_, h⟩
      | anew gs h _ => exact ⟨gs, h⟩
    exact ⟨_, [], gs, rfl, hopen', hgs, fun n hn => recovers_whole hopen' hgs hn⟩
  | @extended s s' older change h hchange hleft ih =>
    obtain ⟨_, _, fs, hstates, hopen, hrecorded, hcut⟩ := ih
    cases hstates
    obtain ⟨hopen', houtcome⟩ := hrecorded.settled.changed? hopen hchange
    have hbefore : ∀ n, ((s' :: s :: older).getLastD s').file.size ≤ n →
        Recovers (s :: older) s.file n := hcut
    cases houtcome with
    | same h' =>
      refine ⟨s', _, fs, rfl, hopen', h', fun n hn => ?_⟩
      by_cases hs : s'.file.size ≤ n
      · exact recovers_whole hopen' h' hs
      · exact (hbefore n hn).cons (Nat.lt_of_not_le hs) (by rw [h'.file, hrecorded.file])
    | longer f h' =>
      refine ⟨s', _, _, rfl, hopen', h', fun n hn => ?_⟩
      by_cases hs : s'.file.size ≤ n
      · exact recovers_whole hopen' h' hs
      · exact .longer hopen hrecorded h' (fun _ => hbefore n hn) (Nat.lt_of_not_le hs)
    | anew gs h' hanew => exact absurd hleft hanew

/-! ## Recovery -/
namespace LogStore

/-- The store as it is opened again: with an empty cache, nothing counted, and the limits
that it is opened with. -/
def reopened (c : StoreConfig) (s : LogStore) : LogStore :=
  { file := s.file
    index := s.index
    stop := s.stop
    liveBytes := s.liveBytes
    deadBytes := s.deadBytes
    cache := { capacity := c.cacheSize }
    maxRecords := c.maxRecords
    maxBytes := c.maxBytes }

theorem open_eq_reopened {t : LogStore} {file : Bytes} (c : StoreConfig)
    (h : t.Recorded (frames Crc32.ofBytes file)) : open_ c file = t.reopened c := by
  have hopen := recorded_open c file
  have hreplay : (open_ c file).replayed = t.replayed := hopen.replay.trans h.replay.symm
  have hfile : (open_ c file).file = t.file := hopen.file.trans h.file.symm
  simp only [replayed, Replay.mk.injEq] at hreplay
  obtain ⟨hindex, hstop, hlive, hdead⟩ := hreplay
  rw [reopened, ← hfile, ← hindex, ← hstop, ← hlive, ← hdead]
  rfl

end LogStore

/-- Whatever a file held when it was opened, and whatever changes and cuts followed: from
the first bytes of the log, the store is recovered as it was right after the last change
whose frame lies within them, and it answers as it did then. -/
theorem open_cut_eq_reopened {c : StoreConfig} {file : Bytes} {s : LogStore}
    {older : List LogStore} (h : LogHistory c file (s :: older)) (n : Nat)
    (hlow : (older.getLastD s).file.size ≤ n) (again : StoreConfig) :
    ∃ t, (s :: older).find? (·.file.size ≤ n) = some t ∧
      open_ again (s.file.extract 0 n) = t.reopened again ∧
      t.file = s.file.extract 0 t.file.size ∧ t.stop = t.file.size ∧
      (∀ id, (t.get id).1 = .ok (t.records.get? id) ∧
        ((open_ again (s.file.extract 0 n)).get id).1 = .ok (t.records.get? id)) ∧
      ∀ range, ((open_ again (s.file.extract 0 n)).scan range).1 = (t.scan range).1 := by
  obtain ⟨_, _, fs, hstates, hopen, hrecorded, hcut⟩ := recovers_of_history h
  cases hstates
  obtain ⟨t, hfind, htopen, ht⟩ := hcut n (by rwa [List.getLastD_cons])
  have hreopened := open_eq_reopened again ht
  have hopened := recorded_open again (s.file.extract 0 n)
  have hrecords : (open_ again (s.file.extract 0 n)).records = t.records := by
    rw [hreopened]; rfl
  have hsize : t.file.size ≤ n := by simpa using List.find?_some hfind
  refine ⟨t, hfind, hreopened, ?_, ht.sound.stop, fun id => ⟨?_, ?_⟩, fun range => ?_⟩
  · have hsplit := (frames_split Crc32.ofBytes (s.file.extract 0 n)).2.2
    rw [← ht.file, ByteArray.extract_extract] at hsplit
    rw [Nat.zero_add, Nat.zero_add, Nat.min_eq_left hsize] at hsplit
    exact hsplit.symm
  · obtain ⟨cache, -, hget⟩ := ht.get htopen id
    rw [hget]
  · obtain ⟨cache, -, hget⟩ := hopened.get rfl id
    rw [hget, hrecords]
  · rw [hreopened, LogStore.scan, LogStore.scan, whenOpen, whenOpen, if_pos htopen]
    rfl

/-- Three bytes that are no frame, a store opened on them, and one record written to it. -/
def tornFile : Bytes := ((ByteArray.empty.push 1).push 2).push 3

def tornStart : LogStore := open_ {} tornFile

def tornWritten : LogStore := tornStart.written "a" (ByteArray.empty.push 7)

theorem open_cut_within_first_frame :
    LogHistory {} tornFile [tornWritten, tornStart] ∧ tornStart.file.size ≤ 11 ∧
      ∃ t, [tornWritten, tornStart].find? (·.file.size ≤ 11) = some t ∧
        open_ {} (tornWritten.file.extract 0 11) = t.reopened {} ∧
        t.file = tornWritten.file.extract 0 t.file.size ∧ t.stop = t.file.size ∧
        (∀ id, (t.get id).1 = .ok (t.records.get? id) ∧
          ((open_ {} (tornWritten.file.extract 0 11)).get id).1 = .ok (t.records.get? id)) ∧
        ∀ range, ((open_ {} (tornWritten.file.extract 0 11)).scan range).1 =
          (t.scan range).1 := by
  have hput : tornStart.put "a" (ByteArray.empty.push 7) = (.ok (), tornWritten) := by
    rw [put_eq rfl (by constructor <;> decide)]
    rfl
  have hsettled : tornStart.settled = tornStart := rfl
  have hhistory : LogHistory {} tornFile [tornWritten, tornStart] :=
    .extended (.put "a" (ByteArray.empty.push 7)) .opened
      (by rw [hsettled, changed?, hput]; rfl) rfl
  have hsize : tornStart.file.size ≤ 11 := by
    have hframes := (frames_split Crc32.ofBytes tornFile).2.1
    rw [← (recorded_open {} tornFile).file] at hframes
    exact Nat.le_trans hframes (by decide)
  exact ⟨hhistory, hsize, open_cut_eq_reopened hhistory 11 hsize {}⟩

end DocBase
