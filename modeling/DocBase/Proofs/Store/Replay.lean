import DocBase.Proofs.Keyed
import DocBase.Proofs.Store.Frame
import DocBase.Store.Log.Replay

/-! Reading a log back is the inverse of writing frames one after another, also where the
log was cut; and what replay gathers are the records that the frames describe. -/
namespace DocBase.Log
open Keyed Std

theorem extract_append_rest {b : Bytes} {n : Nat} (h : n ≤ b.size) :
    b.extract 0 n ++ b.extract n b.size = b := by
  rw [← ByteArray.extract_eq_extract_append_extract n (Nat.zero_le _) h,
    ByteArray.extract_zero_size]

theorem exists_split {log b : Bytes} {pos : Nat} (hsize : pos + b.size ≤ log.size)
    (hb : log.extract pos (pos + b.size) = b) :
    ∃ pre post, log = pre ++ (b ++ post) ∧ pre.size = pos := by
  refine ⟨log.extract 0 pos, log.extract (pos + b.size) log.size, ?_, ?_⟩
  · have hrest : b ++ log.extract (pos + b.size) log.size = log.extract pos log.size := by
      rw [ByteArray.extract_eq_extract_append_extract (a := log) (i := pos) (pos + b.size)
        (Nat.le_add_right _ _) hsize, hb]
    rw [hrest, extract_append_rest (by omega)]
  · rw [ByteArray.size_extract]; omega

/-- What is read at a place are the frames whose bytes stand there. -/
theorem Frame.readAt?_eq_some_iff {sum : Bytes → UInt32} {log : Bytes} {pos : Nat} {f : Frame} :
    readAt? sum log pos = some f ↔
      f.Fits ∧ pos + f.size ≤ log.size ∧ log.extract pos (pos + f.size) = f.bytes sum := by
  refine ⟨extract_of_readAt?, fun ⟨hfits, hsize, hbytes⟩ => ?_⟩
  rw [← size_bytes sum f] at hsize hbytes
  obtain ⟨pre, post, rfl, rfl⟩ := exists_split hsize hbytes
  exact readAt?_append sum hfits pre post

theorem Frame.readAt?_some {sum : Bytes → UInt32} {log : Bytes} {pos : Nat} {f : Frame}
    (h : readAt? sum log pos = some f) :
    f.Fits ∧ ∃ pre post, log = pre ++ (f.bytes sum ++ post) ∧ pre.size = pos := by
  obtain ⟨hfits, hsize, hbytes⟩ := readAt?_eq_some_iff.mp h
  rw [← size_bytes sum f] at hsize hbytes
  exact ⟨hfits, exists_split hsize hbytes⟩

/-- What stands before a place makes no difference to what is read there. -/
theorem Frame.readAt?_shift (sum : Bytes → UInt32) (pre log : Bytes) (pos : Nat) :
    readAt? sum (pre ++ log) (pre.size + pos) = readAt? sum log pos := by
  refine Option.ext fun f => ?_
  rw [readAt?_eq_some_iff, readAt?_eq_some_iff, ByteArray.size_append, Nat.add_assoc,
    Nat.add_le_add_iff_left, ByteArray.extract_append_size_add]

/-- A frame stays where it is when the log grows. -/
theorem Frame.readAt?_grow {sum : Bytes → UInt32} {log : Bytes} {pos : Nat} {f : Frame}
    (h : readAt? sum log pos = some f) (more : Bytes) :
    readAt? sum (log ++ more) pos = some f := by
  obtain ⟨hfits, pre, post, rfl, rfl⟩ := readAt?_some h
  rw [ByteArray.append_assoc, ByteArray.append_assoc]
  exact readAt?_append sum hfits pre _

theorem Frame.readAt?_eq_none {sum : Bytes → UInt32} {log : Bytes} {pos : Nat}
    (h : log.size ≤ pos) : readAt? sum log pos = none := by
  rw [readAt?, if_pos (by rw [headerSize]; omega)]

/-! ## Logs of frames -/

def bytesOf (sum : Bytes → UInt32) : List Frame → Bytes
  | [] => .empty
  | f :: fs => f.bytes sum ++ bytesOf sum fs

theorem bytesOf_append (sum : Bytes → UInt32) (fs gs : List Frame) :
    bytesOf sum (fs ++ gs) = bytesOf sum fs ++ bytesOf sum gs := by
  induction fs with
  | nil => simp [bytesOf]
  | cons f fs ih => simp only [List.cons_append, bytesOf, ih, ByteArray.append_assoc]

theorem bytesOf_concat (sum : Bytes → UInt32) (fs : List Frame) (f : Frame) :
    bytesOf sum (fs ++ [f]) = bytesOf sum fs ++ f.bytes sum := by
  simp [bytesOf_append, bytesOf]

theorem length_le_size_bytesOf (sum : Bytes → UInt32) (fs : List Frame) :
    fs.length ≤ (bytesOf sum fs).size := by
  induction fs with
  | nil => exact Nat.zero_le _
  | cons f fs ih =>
    have := f.size_pos
    simp only [List.length_cons, bytesOf, ByteArray.size_append, Frame.size_bytes]
    omega

theorem framesFrom_of_none {sum : Bytes → UInt32} {log : Bytes} {pos : Nat}
    (h : Frame.readAt? sum log pos = none) (fuel : Nat) : framesFrom sum log fuel pos = [] := by
  cases fuel with
  | zero => rfl
  | succ fuel => rw [framesFrom, h]

/-- Frames that stand together are read one after another. -/
theorem framesFrom_bytesOf (sum : Bytes → UInt32) {fs : List Frame} (h : ∀ f ∈ fs, f.Fits)
    (pre post : Bytes) (fuel : Nat) :
    framesFrom sum (pre ++ (bytesOf sum fs ++ post)) (fs.length + fuel) pre.size =
      fs ++ framesFrom sum (pre ++ (bytesOf sum fs ++ post)) fuel
        (pre.size + (bytesOf sum fs).size) := by
  induction fs generalizing pre with
  | nil => simp [bytesOf]
  | cons f fs ih =>
    have hrest := ih (fun g hg => h g (List.mem_cons_of_mem _ hg)) (pre ++ f.bytes sum)
    simp only [ByteArray.append_assoc, ByteArray.size_append, Frame.size_bytes] at hrest
    have hread := Frame.readAt?_append sum (h f List.mem_cons_self) pre (bytesOf sum fs ++ post)
    rw [List.length_cons, Nat.add_right_comm, bytesOf, ByteArray.append_assoc, framesFrom, hread]
    simp only [hrest, List.cons_append, ByteArray.size_append, Frame.size_bytes, Nat.add_assoc]

/-- The frames that are read from a place on stand there, and none follows them. -/
theorem extract_of_framesFrom (sum : Bytes → UInt32) (log : Bytes) (fuel pos : Nat)
    (hpos : pos ≤ log.size) (hfuel : log.size ≤ pos + fuel) {fs : List Frame}
    (hfs : framesFrom sum log fuel pos = fs) :
    (∀ f ∈ fs, f.Fits) ∧ pos + (bytesOf sum fs).size ≤ log.size ∧
      log.extract pos (pos + (bytesOf sum fs).size) = bytesOf sum fs ∧
      Frame.readAt? sum log (pos + (bytesOf sum fs).size) = none := by
  induction fuel generalizing pos fs with
  | zero =>
    subst hfs
    simpa [framesFrom, bytesOf, hpos] using Frame.readAt?_eq_none hfuel
  | succ fuel ih =>
    cases hread : Frame.readAt? sum log pos with
    | none =>
      rw [framesFrom, hread] at hfs
      subst hfs
      simpa [bytesOf, hpos] using hread
    | some f =>
      obtain ⟨hfits, hsize, hbytes⟩ := Frame.extract_of_readAt? hread
      have hf := f.size_pos
      rw [framesFrom, hread] at hfs
      subst hfs
      obtain ⟨hall, hrest, hextract, hend⟩ := ih (pos + f.size) hsize (by omega) rfl
      simp only [bytesOf, ByteArray.size_append, Frame.size_bytes, ← Nat.add_assoc]
      refine ⟨List.forall_mem_cons.mpr ⟨hfits, hall⟩, hrest, ?_, hend⟩
      rw [ByteArray.extract_eq_extract_append_extract (a := log) (i := pos) (pos + f.size)
        (by omega) (by omega), hbytes, hextract]

/-- The frames of a log stand at its start. -/
theorem frames_split (sum : Bytes → UInt32) (log : Bytes) :
    (∀ f ∈ frames sum log, f.Fits) ∧ (bytesOf sum (frames sum log)).size ≤ log.size ∧
      log.extract 0 (bytesOf sum (frames sum log)).size = bytesOf sum (frames sum log) := by
  obtain ⟨hfits, hsize, hbytes, -⟩ :=
    extract_of_framesFrom sum log log.size 0 (Nat.zero_le _) (by omega) rfl
  rw [Nat.zero_add] at hsize hbytes
  exact ⟨hfits, hsize, hbytes⟩

/-- A log is its frames and the bytes behind them. -/
theorem bytesOf_frames_append (sum : Bytes → UInt32) (log : Bytes) :
    bytesOf sum (frames sum log) ++ log.extract (bytesOf sum (frames sum log)).size log.size =
      log := by
  obtain ⟨-, hsize, hbytes⟩ := frames_split sum log
  have hlog := extract_append_rest hsize
  rwa [hbytes] at hlog

theorem framesFrom_shift (sum : Bytes → UInt32) (pre log : Bytes) (fuel pos : Nat) :
    framesFrom sum (pre ++ log) fuel (pre.size + pos) = framesFrom sum log fuel pos := by
  induction fuel generalizing pos with
  | zero => rfl
  | succ fuel ih =>
    simp only [framesFrom, Frame.readAt?_shift, Nat.add_assoc, ih]

/-- More fuel than there are bytes left changes nothing. -/
theorem framesFrom_eq {sum : Bytes → UInt32} {log : Bytes} {pos fuel fuel' : Nat}
    (h : log.size ≤ pos + fuel) (h' : log.size ≤ pos + fuel') :
    framesFrom sum log fuel pos = framesFrom sum log fuel' pos := by
  induction fuel generalizing pos fuel' with
  | zero =>
    have hend : Frame.readAt? sum log pos = none := Frame.readAt?_eq_none h
    rw [framesFrom_of_none hend, framesFrom_of_none hend]
  | succ fuel ih =>
    cases hread : Frame.readAt? sum log pos with
    | none => rw [framesFrom_of_none hread, framesFrom_of_none hread]
    | some f =>
      have hsize := (Frame.readAt?_eq_some_iff.mp hread).2.1
      have hf := f.size_pos
      obtain ⟨fuel', rfl⟩ : ∃ n, fuel' = n + 1 := ⟨fuel' - 1, by omega⟩
      simp only [framesFrom, hread]
      rw [ih (by omega) (by omega : log.size ≤ pos + f.size + fuel')]

/-- A log that begins with frames holds them, and then the frames of the rest. -/
theorem frames_bytesOf_append (sum : Bytes → UInt32) {fs : List Frame} (h : ∀ f ∈ fs, f.Fits)
    (rest : Bytes) : frames sum (bytesOf sum fs ++ rest) = fs ++ frames sum rest := by
  have hlength := length_le_size_bytesOf sum fs
  obtain ⟨fuel, hfuel⟩ : ∃ fuel, (bytesOf sum fs ++ rest).size = fs.length + fuel :=
    ⟨(bytesOf sum fs ++ rest).size - fs.length, by simp only [ByteArray.size_append]; omega⟩
  have hframes := framesFrom_bytesOf sum h .empty rest fuel
  have hshift := framesFrom_shift sum (bytesOf sum fs) rest fuel 0
  rw [Nat.add_zero] at hshift
  simp only [ByteArray.empty_append, ByteArray.size_empty, Nat.zero_add, hshift] at hframes
  rw [ByteArray.size_append] at hfuel
  rw [frames, ByteArray.size_append, hfuel, hframes, frames,
    framesFrom_eq (by omega : rest.size ≤ 0 + fuel) (Nat.le_add_left _ _)]

/-- Frames are all that a log holds when no other follows them. -/
theorem frames_append {sum : Bytes → UInt32} {fs : List Frame} (h : ∀ f ∈ fs, f.Fits)
    {post : Bytes}
    (hend : Frame.readAt? sum (bytesOf sum fs ++ post) (bytesOf sum fs).size = none) :
    frames sum (bytesOf sum fs ++ post) = fs := by
  have hnone := Frame.readAt?_shift sum (bytesOf sum fs) post 0
  rw [Nat.add_zero, hend] at hnone
  rw [frames_bytesOf_append sum h, frames, framesFrom_of_none hnone.symm, List.append_nil]

theorem frames_bytesOf (sum : Bytes → UInt32) {fs : List Frame} (h : ∀ f ∈ fs, f.Fits) :
    frames sum (bytesOf sum fs) = fs := by
  have hend : Frame.readAt? sum (bytesOf sum fs ++ .empty) (bytesOf sum fs).size = none :=
    Frame.readAt?_eq_none (by simp)
  simpa using frames_append h hend

/-- Of a frame that was cut nothing is read. -/
theorem frames_cut (sum : Bytes → UInt32) {fs : List Frame} (h : ∀ f ∈ fs, f.Fits) {f : Frame}
    (hf : f.Fits) {n : Nat} (hn : (bytesOf sum fs).size ≤ n)
    (hcut : n < (bytesOf sum fs).size + f.size) :
    frames sum ((bytesOf sum (fs ++ [f])).extract 0 n) = fs := by
  have hextract : (bytesOf sum (fs ++ [f])).extract 0 n =
      bytesOf sum fs ++ (f.bytes sum).extract 0 (n - (bytesOf sum fs).size) := by
    rw [bytesOf_concat, ByteArray.extract_append, Nat.zero_sub]
    congr 1
    exact extract_zero_of_le hn
  rw [hextract]
  refine frames_append h ?_
  cases hread : Frame.readAt? sum (bytesOf sum fs ++
      (f.bytes sum).extract 0 (n - (bytesOf sum fs).size)) (bytesOf sum fs).size with
  | none => rfl
  | some g =>
    -- the frame would stand in the whole log, where the one that was cut stands
    have hsize := (Frame.extract_of_readAt? hread).2.1
    have hgrown := Frame.readAt?_grow hread
      ((f.bytes sum).extract (n - (bytesOf sum fs).size) (f.bytes sum).size)
    rw [ByteArray.append_assoc, extract_append_rest (by rw [Frame.size_bytes]; omega)] at hgrown
    have hwhole := Frame.readAt?_append sum hf (bytesOf sum fs) .empty
    rw [ByteArray.append_empty, hgrown] at hwhole
    cases hwhole
    simp only [ByteArray.size_append, ByteArray.size_extract, Frame.size_bytes] at hsize
    omega

/-! ## The records of a log -/

/-- The change that a frame makes to the records before it. -/
def applyFrame (m : Keyed String Bytes) (f : Frame) : Keyed String Bytes :=
  match f.op with
  | .put => m.insert f.id f.data
  | .delete => m.erase f.id

def recordsOf (fs : List Frame) : Keyed String Bytes := fs.foldl applyFrame []

theorem recordsOf_concat (fs : List Frame) (f : Frame) :
    recordsOf (fs ++ [f]) = applyFrame (recordsOf fs) f := by
  simp [recordsOf, List.foldl_append]

def Slot.data (log : Bytes) (slot : Slot) : Bytes :=
  log.extract slot.offset (slot.offset + slot.length)

/-- What replay gathered fits the log that it read. -/
structure Replay.Sound (log : Bytes) (r : Replay) : Prop where
  ascending : Ascending r.index
  within : ∀ e ∈ r.index, e.2.offset + e.2.length ≤ log.size
  named : ∀ e ∈ r.index, e.1.utf8ByteSize ≤ maxIdLength
  stop : r.stop = log.size
  live : r.liveBytes = weigh Slot.length r.index

theorem Slot.data_append {log : Bytes} {slot : Slot} (h : slot.offset + slot.length ≤ log.size)
    (more : Bytes) : slot.data (log ++ more) = slot.data log :=
  extract_append_left h more

theorem Slot.size_data {log : Bytes} {slot : Slot} (h : slot.offset + slot.length ≤ log.size) :
    (slot.data log).size = slot.length := by
  rw [data, ByteArray.size_extract]; omega

theorem Slot.data_ofFrame (sum : Bytes → UInt32) (log : Bytes) (f : Frame) :
    (Slot.ofFrame log.size f).data (log ++ f.bytes sum) = f.data := by
  refine extract_eq (log ++ (leBytes 4 f.body.size ++ (leBytes 4 (sum f.body).toNat ++
    (ByteArray.empty.push f.op.code ++ (leBytes 2 f.id.utf8ByteSize ++ f.id.toUTF8)))))
    .empty ?_ ?_ rfl
  · simp only [Frame.bytes, Frame.body, ByteArray.append_assoc, ByteArray.append_empty]
  · simp [Slot.ofFrame, headerSize, bodyHeaderSize]; omega

/-- The records that an index finds in a log. -/
def contents (log : Bytes) (index : Keyed String Slot) : Keyed String Bytes :=
  mapValues (Slot.data log) index

namespace Replay

theorem sound_empty : Sound .empty {} :=
  ⟨ascending_nil, by simp, by simp, rfl, rfl⟩

theorem Sound.contents_append {log : Bytes} {r : Replay} (h : Sound log r) (more : Bytes) :
    contents (log ++ more) r.index = contents log r.index :=
  mapValues_congr fun e he => Slot.data_append (h.within e he) more

theorem Sound.within_append {log : Bytes} {r : Replay} (h : Sound log r) (more : Bytes) :
    ∀ e ∈ r.index, e.2.offset + e.2.length ≤ (log ++ more).size := by
  intro e he
  have := h.within e he
  rw [ByteArray.size_append]; omega

theorem Sound.step (sum : Bytes → UInt32) {log : Bytes} {r : Replay} (h : Sound log r)
    {f : Frame} (hf : f.Fits) : Sound (log ++ f.bytes sum) (r.step f) := by
  have hwithin := h.within_append (f.bytes sum)
  have hstop : r.stop + f.size = (log ++ f.bytes sum).size := by
    rw [h.stop, ByteArray.size_append, Frame.size_bytes]
  have hold := weigh_get?_le Slot.length f.id r.index
  have hlive := h.live
  cases hop : f.op with
  | put =>
    have hweigh := weigh_insert Slot.length f.id (Slot.ofFrame r.stop f) r.index
    have hnew : (Slot.ofFrame r.stop f).length = f.data.size := rfl
    simp only [Replay.step, hop]
    refine ⟨h.ascending.insert _ _, ?_, ?_, hstop, by dsimp only; omega⟩
    · intro e he
      rcases mem_insert he with ⟨-, he⟩ | he
      · rw [he, ← hstop, Frame.size]
        dsimp only [Slot.ofFrame]
        omega
      · exact hwithin e he
    · intro e he
      rcases mem_insert he with ⟨hid, -⟩ | he
      · rw [← LawfulEqOrd.eq_of_compare hid]; exact hf.1
      · exact h.named e he
  | delete =>
    have hweigh := weigh_erase Slot.length f.id r.index
    simp only [Replay.step, hop]
    have hsub := (erase_sublist f.id r.index).subset
    exact ⟨h.ascending.erase _, fun e he => hwithin e (hsub he),
      fun e he => h.named e (hsub he), hstop, by dsimp only; omega⟩

/-- Replaying a frame changes the records as the frame says. -/
theorem Sound.contents_step (sum : Bytes → UInt32) {log : Bytes} {r : Replay} (h : Sound log r)
    (f : Frame) :
    contents (log ++ f.bytes sum) (r.step f).index = applyFrame (contents log r.index) f := by
  rw [← h.contents_append (f.bytes sum)]
  cases hop : f.op with
  | put =>
    simp only [Replay.step, applyFrame, contents, hop, mapValues_insert, h.stop,
      Slot.data_ofFrame]
  | delete => simp only [Replay.step, applyFrame, contents, hop, mapValues_erase]

theorem sound_foldl (sum : Bytes → UInt32) {fs : List Frame} (h : ∀ f ∈ fs, f.Fits) :
    Sound (bytesOf sum fs) (fs.foldl Replay.step {}) ∧
      contents (bytesOf sum fs) (fs.foldl Replay.step {}).index = recordsOf fs := by
  induction fs using List.reverseRecOn with
  | nil => exact ⟨sound_empty, rfl⟩
  | append_singleton fs f ih =>
    obtain ⟨hsound, hcontents⟩ := ih fun g hg => h g (List.mem_append_left _ hg)
    rw [List.foldl_append, bytesOf_concat, recordsOf_concat, ← hcontents]
    exact ⟨hsound.step sum (h f (by simp)), hsound.contents_step sum f⟩

end Replay
end DocBase.Log
