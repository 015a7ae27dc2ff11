import DocBase.Proofs.Store.Alike
import DocBase.Proofs.Store.Driver

/-! Stores of either kind side by side, over one disk. What two alike stores have written goes to
the same place, and when they are loaded again they are alike. -/
namespace DocBase
open Keyed Disk

namespace LogStore

/-- The store with its file read anew. -/
def reread (s : LogStore) (file : Bytes) (obstacle : Option StoreError) : LogStore :=
  { s with file, obstacle, left := none }

theorem Valid.reread {s : LogStore} (h : s.Valid) (obstacle : Option StoreError) :
    (s.reread s.file obstacle).Valid := by
  cases h with
  | recorded fs hopen h => exact .recorded fs hopen ⟨h.fits, h.file, h.replay, h.cached⟩
  | closed hclosed hindex hbytes => exact .closed hclosed hindex hbytes

theorem Alike.reread {obstacle : Option StoreError} {opened : Bool} {s t : LogStore}
    (h : Alike obstacle opened s t) (obstacle' : Option StoreError) :
    Alike obstacle' s.isOpen (s.reread s.file obstacle') (t.reread s.file obstacle') := by
  obtain ⟨⟨cache, counts, rfl⟩, hvalid, hvalid', -⟩ := h
  exact ⟨⟨cache, counts, rfl⟩, hvalid.reread obstacle', hvalid'.reread obstacle',
    ⟨rfl, (fun hleft => nomatch hleft), fun hopen => hopen⟩⟩

/-- What is in the way of another log is of no account for reading. -/
theorem get_reread (s : LogStore) (file : Bytes) (obstacle obstacle' : Option StoreError)
    (id : String) : ((s.reread file obstacle).get id).1 = ((s.reread file obstacle').get id).1 := by
  obtain ⟨_, _, _, isOpen, index, _, _, _, cache, _, _, _⟩ := s
  dsimp only [get, whenOpen, reread]
  cases isOpen with
  | false => rfl
  | true =>
    rw [if_pos rfl, if_pos rfl]
    cases index.get? id with
    | none => rfl
    | some slot =>
      dsimp only
      cases cache.get? id with
      | some record => rfl
      | none => cases readSlot file slot <;> rfl

theorem scan_reread (s : LogStore) (file : Bytes) (obstacle obstacle' : Option StoreError)
    (range : ScanRange) :
    ((s.reread file obstacle).scan range).1 = ((s.reread file obstacle').scan range).1 := by
  obtain ⟨_, _, _, isOpen, _, _, _, _, _, _, _, _⟩ := s
  cases isOpen <;> rfl

end LogStore

namespace Backend

/-- How a store is kept: in memory, or in a log with something in the way of others or nothing,
and open or not. -/
inductive Place
  | memory
  | log (path : String) (file : FileId) (obstacle : Option StoreError) (opened : Bool)

def place : Backend → Place
  | memory _ => .memory
  | log path file s => .log path file s.obstacle s.isOpen

/-- Alike but for what was counted and cached, and kept in the same place. -/
inductive Alike : Place → Backend → Backend → Prop
  | memory {s t : MemoryStore} (h : s.Alike t) : Alike .memory (memory s) (memory t)
  | log {path : String} {file : FileId} {obstacle : Option StoreError} {opened : Bool}
    {s t : LogStore} (h : LogStore.Alike obstacle opened s t) :
    Alike (.log path file obstacle opened) (log path file s) (log path file t)

variable {p : Place} {b c : Backend} {d e : Disk} {path : String} {file : FileId}

/-! ## Calls -/

theorem exists_lift {α : Type} {onMemory : MemoryStore → α × MemoryStore}
    {onLog : LogStore → α × LogStore}
    (hm : ∀ s t, MemoryStore.Alike s t → ∃ r s' t',
      onMemory s = (r, s') ∧ onMemory t = (r, t') ∧ s'.Alike t')
    (hl : ∀ obstacle opened s t, LogStore.Alike obstacle opened s t → ∃ r s' t',
      onLog s = (r, s') ∧ onLog t = (r, t') ∧ s'.Alike obstacle opened t')
    (h : Alike p b c) : ∃ r b' c',
      lift onMemory onLog b = (r, b') ∧ lift onMemory onLog c = (r, c') ∧ Alike p b' c' := by
  cases h with
  | memory h =>
    obtain ⟨r, s', t', hs, ht, hst⟩ := hm _ _ h
    exact ⟨r, .memory s', .memory t', by rw [lift, hs], by rw [lift, ht], .memory hst⟩
  | log h =>
    obtain ⟨r, s', t', hs, ht, hst⟩ := hl _ _ _ _ h
    exact ⟨r, .log _ _ s', .log _ _ t', by rw [lift, hs], by rw [lift, ht], .log hst⟩

theorem indistinct_alike (p : Place) : Indistinct (Alike p) where
  get h id := exists_lift (fun _ _ h => MemoryStore.indistinct_alike.get h id)
    (fun _ _ _ _ h => (LogStore.indistinct_alike _ _).get h id) h
  scan h range := exists_lift (fun _ _ h => MemoryStore.indistinct_alike.scan h range)
    (fun _ _ _ _ h => (LogStore.indistinct_alike _ _).scan h range) h
  put h id record := exists_lift (fun _ _ h => MemoryStore.indistinct_alike.put h id record)
    (fun _ _ _ _ h => (LogStore.indistinct_alike _ _).put h id record) h
  delete h id := exists_lift (fun _ _ h => MemoryStore.indistinct_alike.delete h id)
    (fun _ _ _ _ h => (LogStore.indistinct_alike _ _).delete h id) h
  close h := exists_lift (fun _ _ h => MemoryStore.indistinct_alike.close h)
    (fun _ _ _ _ h => (LogStore.indistinct_alike _ _).close h) h
  size h := by
    cases h with
    | memory h => exact MemoryStore.indistinct_alike.size h
    | log h => exact (LogStore.indistinct_alike _ _).size h

theorem unmoved_alike (p : Place) : Unmoved (Alike p) where
  get h id := by
    cases h with
    | memory h => exact .memory (MemoryStore.unmoved_alike.get h id)
    | log h => exact .log ((LogStore.unmoved_alike _ _).get h id)
  scan h range := by
    cases h with
    | memory h => exact .memory (MemoryStore.unmoved_alike.scan h range)
    | log h => exact .log ((LogStore.unmoved_alike _ _).scan h range)

/-! ## Loading -/

/-- What is in the way of another log at a path. -/
def obstacleAt (d : Disk) (path : String) : Option StoreError :=
  match d.canReplace (Log.compactPathOf path) path with
  | .error e => some e.toStoreError
  | .ok () => none

theorem load_log (d : Disk) (path : String) (file : FileId) (s : LogStore) :
    (log path file s).load d =
      log path file (if s.isOpen then s.reread (d.read file) (obstacleAt d path) else s) := by
  rw [load.eq_def]
  dsimp only
  split
  · rfl
  · rfl

theorem load_memory (d : Disk) (s : MemoryStore) : (memory s).load d = memory s := rfl

theorem load_open (d : Disk) (path : String) (file : FileId) {s : LogStore} (h : s.isOpen = true) :
    (log path file s).load d = log path file (s.reread (d.read file) (obstacleAt d path)) := by
  rw [load_log, if_pos h]

theorem load_closed (d : Disk) (path : String) (file : FileId) {s : LogStore}
    (h : s.isOpen = false) : (log path file s).load d = log path file s := by
  rw [load_log, if_neg (by simp [h])]

/-- A store is read into the place of an open log where it is that log. Another file may come in
its place where nothing on the disk stands in the way. -/
theorem cases_of_place_load {path : String} {file : FileId} {obstacle : Option StoreError}
    (h : (b.load d).place = .log path file obstacle true) :
    (∃ s, b = log path file s ∧ s.isOpen = true) ∧
      (obstacle = none → d.canReplace (Log.compactPathOf path) path = .ok ()) := by
  cases b with
  | memory s => cases h
  | log path' file' s =>
    cases hopen : s.isOpen with
    | false =>
      rw [load_closed _ _ _ hopen] at h
      simp [place, hopen] at h
    | true =>
      rw [load_open _ _ _ hopen] at h
      simp only [place, LogStore.reread, Place.log.injEq] at h
      obtain ⟨rfl, rfl, hobstacle, -⟩ := h
      refine ⟨⟨s, rfl, hopen⟩, fun hnone => ?_⟩
      rw [hnone, obstacleAt] at hobstacle
      split at hobstacle
      · cases hobstacle
      next hreplace => exact hreplace

/-- On disks that have the same in its file a store is read the same. -/
theorem reads_load (hsame : ∀ path file s, b = log path file s → s.isOpen = true →
      e.read file = d.read file) :
    (∀ id, (RecordStore.get id (b.load e)).1 = (RecordStore.get id (b.load d)).1) ∧
      ∀ range, (RecordStore.scan range (b.load e)).1 = (RecordStore.scan range (b.load d)).1 := by
  cases b with
  | memory s => exact ⟨fun _ => rfl, fun _ => rfl⟩
  | log path file s =>
    cases hs : s.isOpen with
    | false =>
      rw [load_closed d _ _ hs, load_closed e _ _ hs]
      exact ⟨fun _ => rfl, fun _ => rfl⟩
    | true =>
      rw [load_open d _ _ hs, load_open e _ _ hs, hsame path file s rfl hs]
      exact ⟨LogStore.get_reread s _ _ _, LogStore.scan_reread s _ _ _⟩

/-- Stores in the place that the first of them is in. -/
def Paired (b c : Backend) : Prop := Alike b.place b c

theorem Alike.paired (h : Alike p b c) : Paired b c := by
  cases h with
  | memory h => exact .memory h
  | log h =>
    refine .log ⟨h.rest, h.valid, h.valid', rfl, fun hleft => ?_, fun hopen => hopen⟩
    rw [h.kept.obstacle_eq]
    exact h.kept.left hleft

/-- Stores that were alike when they were loaded are alike on another disk that has the same
in their file. -/
theorem Paired.load (h : Paired (b.load d) (c.load d))
    (hsame : ∀ path file s, b = log path file s → s.isOpen = true → e.read file = d.read file) :
    Paired (b.load e) (c.load e) := by
  cases b with
  | memory s =>
    cases c with
    | memory t => exact h
    | log path file t =>
      rw [load_log] at h
      cases h
  | log path file s =>
    cases c with
    | memory t =>
      rw [load_log] at h
      cases h
    | log path' file' t =>
      have hopen : t.isOpen = s.isOpen := by
        rw [load_log, load_log] at h
        cases h with
        | log h =>
          obtain ⟨cache, counts, hrest⟩ := h.rest
          have hisOpen := congrArg LogStore.isOpen hrest
          cases hs : s.isOpen <;> cases ht : t.isOpen <;>
            simp [hs, ht, LogStore.reread, LogStore.tracked] at hisOpen ⊢
      cases hs : s.isOpen with
      | false =>
        rw [load_closed d _ _ hs, load_closed d _ _ (hopen.trans hs)] at h
        rwa [load_closed e _ _ hs, load_closed e _ _ (hopen.trans hs)]
      | true =>
        rw [load_open d _ _ hs, load_open d _ _ (hopen.trans hs)] at h
        rw [load_open e _ _ hs, load_open e _ _ (hopen.trans hs)]
        cases h with
        | log h =>
          rw [hsame path file s rfl hs]
          exact (Alike.log (h.reread (obstacleAt e path))).paired

/-! ## Writing back -/

theorem flush_tracked (d : Disk) (path : String) (file : FileId) (s : LogStore) (cache : Log.Cache)
    (counts : OpCounts) : ∃ file' e, (log path file s).flush d = (log path file' s, e) ∧
      (log path file (s.tracked cache counts)).flush d =
        (log path file' (s.tracked cache counts), e) := by
  obtain ⟨_, _, left, isOpen, _, _, _, _, _, _, _, _⟩ := s
  cases isOpen with
  | false => exact ⟨_, _, rfl, rfl⟩
  | true => cases left <;> exact ⟨_, _, rfl, rfl⟩

theorem flush_closed (d : Disk) (path : String) (file : FileId) {s : LogStore}
    (h : s.isOpen = false) : (log path file s).flush d = (log path file s, d) := by
  rw [flush.eq_def]
  dsimp only
  rw [if_neg (by simp [h])]

theorem eq_of_flush {s : LogStore} (h : (b.flush d).1 = log path file s) :
    ∃ file', b = log path file' s := by
  cases b with
  | memory t => cases h
  | log path' file' t =>
    rw [flush.eq_def] at h
    dsimp only at h
    split at h
    · split at h <;> cases h <;> exact ⟨_, rfl⟩
    · cases h
      exact ⟨_, rfl⟩

theorem isOpen_of_close {s : LogStore} (h : (RecordStore.close b).2 = log path file s) :
    s.isOpen = false := by
  cases b with
  | memory t => cases h
  | log path' file' t =>
    cases h
    change t.close.2.isOpen = false
    rw [LogStore.close]
    split
    · rfl
    next hclosed => simpa using hclosed

/-- What two alike stores write back is the same. It goes to where the path of an open log leads,
and nowhere else. -/
theorem Alike.flush (hd : d.Sound) (h : Alike p b c)
    (hp : ∀ path file obstacle, p = .log path file obstacle true →
      d.linked path = some file ∧ (obstacle = none → ∃ way, d.locate path = .ok way)) :
    ∃ b' c' e, b.flush d = (b', e) ∧ c.flush d = (c', e) ∧ e.Sound ∧
      Paired (b'.load e) (c'.load e) ∧
      (∀ k, (∀ path file obstacle, p = .log path file obstacle true → k ≠ key (wayOf path)) →
        Spares k d e) ∧
      ∀ path file s, b' = Backend.log path file s → s.isOpen = true →
        e.linked path = some file ∧ ∃ file' obstacle, p = .log path file' obstacle true := by
  cases h with
  | memory h =>
    exact ⟨_, _, d, rfl, rfl, hd, .memory h, fun k _ => .refl k d, fun _ _ _ h => nomatch h⟩
  | @log path file obstacle opened s t h =>
    obtain ⟨cache, counts, rfl⟩ := h.rest
    have hsame : (s.tracked cache counts).isOpen = s.isOpen := rfl
    cases hopen : s.isOpen with
    | false =>
      refine ⟨_, _, d, flush_closed d path file hopen, flush_closed d path file hopen, hd, ?_,
        fun k _ => .refl k d, ?_⟩
      · rw [load_closed d _ _ hopen, load_closed d _ _ (hsame.trans hopen)]
        exact (Alike.log h).paired
      · rintro path' file' s' heq hs'
        cases heq
        rw [hopen] at hs'
        cases hs'
    | true =>
      have hopened := h.kept.opened hopen
      subst hopened
      obtain ⟨hlinked, hlocate⟩ := hp path file obstacle rfl
      obtain ⟨file', e, hflush, he, hlinked', hread, hspares⟩ :=
        flush_linked hd hlinked fun hleft => hlocate (h.kept.left hleft)
      obtain ⟨_, _, hfirst, hsecond⟩ := flush_tracked d path file s cache counts
      rw [hflush] at hfirst
      cases hfirst
      refine ⟨_, _, e, hflush, hsecond, he, ?_, fun k hk => hspares k (hk path file obstacle rfl),
        ?_⟩
      · rw [load_open e _ _ hopen, load_open e _ _ (hsame.trans hopen), hread hopen]
        exact (Alike.log (h.reread (obstacleAt e path))).paired
      · rintro path' file'' s' heq -
        cases heq
        exact ⟨hlinked', file, obstacle, rfl⟩

/-- A store that was only read from writes back what it found. -/
theorem Alike.flush_read (h : Alike p b (c.load d)) :
    ∃ b', b.flush d = (b', d) ∧ Paired (b'.load d) (c.load d) ∧
      ∀ path file s, b' = Backend.log path file s → s.isOpen = true →
        ∃ obstacle, p = .log path file obstacle true := by
  cases c with
  | memory t =>
    rw [load_memory] at h ⊢
    cases h with
    | memory h => exact ⟨_, rfl, .memory h, fun _ _ _ heq => nomatch heq⟩
  | log path file t =>
    cases hopen : t.isOpen with
    | false =>
      rw [load_closed d _ _ hopen] at h ⊢
      cases h with
      | @log _ _ _ _ s _ h =>
        obtain ⟨cache, counts, rfl⟩ := h.rest
        have hclosed : s.isOpen = false := hopen
        refine ⟨_, flush_closed d path file hclosed, ?_, ?_⟩
        · rw [load_closed d _ _ hclosed]
          exact (Alike.log h).paired
        · rintro path' file' s' heq hs'
          cases heq
          rw [hclosed] at hs'
          cases hs'
    | true =>
      rw [load_open d _ _ hopen] at h ⊢
      cases h with
      | @log _ _ obstacle _ s _ h =>
        obtain ⟨cache, counts, hrest⟩ := h.rest
        have hs : s.isOpen = true := (congrArg LogStore.isOpen hrest).symm.trans hopen
        have hleft : s.left = none := (congrArg LogStore.left hrest).symm
        have hfile : s.file = d.read file := (congrArg LogStore.file hrest).symm
        have hopened := h.kept.opened hs
        subst hopened
        refine ⟨Backend.log path file s, ?_, ?_, ?_⟩
        · rw [Backend.flush.eq_def]
          dsimp only
          rw [if_pos hs, hleft, hfile]
          dsimp only
          rw [write_read]
        · rw [load_open d _ _ hs, ← hfile]
          exact (Alike.log (h.reread (obstacleAt d path))).paired
        · rintro path' file' s' heq -
          cases heq
          exact ⟨obstacle, rfl⟩

end Backend
end DocBase
