import DocBase.Proofs.Store.Accounting

/-! The grammar of logs, and replay as the reader of it. Replay takes the longest part of a log
from its start that is made of well-formed frames, whatever stands behind, and reads what was
encoded there. Its loop comes to an end, and no range that it asks for is out of bounds. -/
namespace DocBase.Log
open Keyed

/-! ## Well-formed frames -/

/-- The body of a frame: a known operation, an identifier within the body that is valid UTF-8,
and any data. -/
structure IsBody (b : Bytes) : Prop where
  header : bodyHeaderSize ≤ b.size
  operation : b[0]? = some Op.put.code ∨ b[0]? = some Op.delete.code
  within : bodyHeaderSize + leNat b 1 2 ≤ b.size
  identifier : (b.extract bodyHeaderSize (bodyHeaderSize + leNat b 1 2)).IsValidUTF8

/-- A body behind its length and its checksum. -/
def IsFrame (sum : Bytes → UInt32) (b : Bytes) : Prop :=
  ∃ body, IsBody body ∧ body.size < UInt32.size ∧
    b = leBytes 4 body.size ++ leBytes 4 (sum body).toNat ++ body

/-- Well-formed frames one after another. -/
inductive IsLog (sum : Bytes → UInt32) : Bytes → Prop
  | empty : IsLog sum .empty
  | cons {frame rest : Bytes} (hframe : IsFrame sum frame) (hrest : IsLog sum rest) :
      IsLog sum (frame ++ rest)

theorem Op.exists_code_iff {c : UInt8} :
    (c = Op.put.code ∨ c = Op.delete.code) ↔ ∃ op : Op, op.code = c := by
  constructor
  · rintro (rfl | rfl)
    · exact ⟨.put, rfl⟩
    · exact ⟨.delete, rfl⟩
  · rintro ⟨op | op, rfl⟩
    · exact Or.inl rfl
    · exact Or.inr rfl

theorem Frame.isBody_body {f : Frame} (h : f.Fits) : IsBody f.body := by
  have hfields : f.body = ByteArray.empty.push f.op.code ++
      (leBytes 2 f.id.utf8ByteSize ++ (f.id.toUTF8 ++ f.data)) := by
    simp only [body, ByteArray.append_assoc]
  have hop : f.body[0]? = some f.op.code := by
    rw [hfields, ← ByteArray.empty_append (b := _ ++ _)]
    exact getElem?_append_cons .empty _ f.op.code
  have hlength : leNat f.body 1 2 = f.id.utf8ByteSize :=
    leNat_eq (ByteArray.empty.push f.op.code) hfields rfl (by
      have := h.1
      unfold maxIdLength at this
      omega)
  have hid : f.body.extract 3 (3 + f.id.utf8ByteSize) = f.id.toUTF8 :=
    extract_eq (ByteArray.empty.push f.op.code ++ leBytes 2 f.id.utf8ByteSize) f.data
      (by simp only [hfields, ByteArray.append_assoc]) (by simp) rfl
  have hsize := f.size_body
  constructor
  · omega
  · rw [hop, Option.some_inj, Option.some_inj]
    exact Op.exists_code_iff.mpr ⟨f.op, rfl⟩
  · omega
  · rw [hlength, bodyHeaderSize, hid]
    exact f.id.isValidUTF8

/-- Every body is that of a frame. -/
theorem IsBody.exists_frame {b : Bytes} (h : IsBody b) (hsize : b.size < UInt32.size) :
    ∃ f : Frame, f.Fits ∧ f.body = b := by
  obtain ⟨hheader, hop, hwithin, hid⟩ := h
  rw [bodyHeaderSize] at hheader hwithin hid
  have hlength := leNat_lt b 1 2
  have hfirst : b[0]? = some b[0] := getElem?_pos b 0 (by omega)
  obtain ⟨op, hcode⟩ : ∃ op : Op, op.code = b[0] := by
    rw [hfirst, Option.some_inj, Option.some_inj] at hop
    exact Op.exists_code_iff.mp hop
  let id : String := ⟨_, hid⟩
  have hidSize : id.utf8ByteSize = leNat b 1 2 := by
    rw [← size_toUTF8, show id.toUTF8 = b.extract 3 (3 + leNat b 1 2) from rfl,
      ByteArray.size_extract]
    omega
  let f : Frame := ⟨op, id, b.extract (3 + leNat b 1 2) b.size⟩
  have hbody : f.body = b := by
    have hopByte : ByteArray.empty.push op.code = b.extract 0 1 := by
      rw [hcode, ByteArray.extract_add_one (by omega : 0 + 1 ≤ b.size)]
      rfl
    have hlengthBytes : leBytes 2 id.utf8ByteSize = b.extract 1 3 := by
      rw [hidSize, leBytes_leNat b 1 2 (by omega)]
    rw [Frame.body, hopByte, hlengthBytes, show id.toUTF8 = b.extract 3 (3 + leNat b 1 2) from rfl,
      ← ByteArray.extract_eq_extract_append_extract _ (by omega) (by omega),
      ← ByteArray.extract_eq_extract_append_extract _ (by omega) (by omega),
      ← ByteArray.extract_eq_extract_append_extract _ (by omega) (by omega),
      ByteArray.extract_zero_size]
  refine ⟨f, ⟨?_, hbody ▸ hsize⟩, hbody⟩
  rw [hidSize, maxIdLength]
  omega

theorem isFrame_iff {sum : Bytes → UInt32} {b : Bytes} :
    IsFrame sum b ↔ ∃ f : Frame, f.Fits ∧ b = f.bytes sum := by
  constructor
  · rintro ⟨body, hbody, hsize, rfl⟩
    obtain ⟨f, hfits, rfl⟩ := hbody.exists_frame hsize
    exact ⟨f, hfits, rfl⟩
  · rintro ⟨f, hfits, rfl⟩
    exact ⟨f.body, Frame.isBody_body hfits, hfits.2, rfl⟩

theorem isLog_bytesOf (sum : Bytes → UInt32) {fs : List Frame} (h : ∀ f ∈ fs, f.Fits) :
    IsLog sum (bytesOf sum fs) := by
  induction fs with
  | nil => exact .empty
  | cons f fs ih =>
    obtain ⟨hf, hfs⟩ := List.forall_mem_cons.mp h
    exact .cons (isFrame_iff.mpr ⟨f, hf, rfl⟩) (ih hfs)

theorem IsLog.exists_frames {sum : Bytes → UInt32} {b : Bytes} (h : IsLog sum b) :
    ∃ fs, (∀ f ∈ fs, f.Fits) ∧ b = bytesOf sum fs := by
  induction h with
  | empty => exact ⟨[], by simp, rfl⟩
  | cons hframe hrest ih =>
    obtain ⟨f, hf, rfl⟩ := isFrame_iff.mp hframe
    obtain ⟨fs, hfs, rfl⟩ := ih
    exact ⟨f :: fs, List.forall_mem_cons.mpr ⟨hf, hfs⟩, rfl⟩

/-! ## Replay with its ranges checked -/

/-- The bytes between two places, unless one of these is out of range. -/
def slice? (b : Bytes) (start stop : Nat) : Option Bytes :=
  if start ≤ stop ∧ stop ≤ b.size then some (b.extract start stop) else none

/-- A difference, unless it would fall below zero. -/
def minus? (n m : Nat) : Option Nat := if m ≤ n then some (n - m) else none

/-- The number in the first bytes and the bytes behind it, unless there are too few. -/
def number? (count : Nat) (b : Bytes) : Option (Nat × Bytes) := do
  let front ← slice? b 0 count
  let rest ← slice? b count b.size
  return (leNat front 0 count, rest)

/-- A number as it is kept in 32 bits. -/
def low32 (n : Nat) : Nat := n % UInt32.size

/-- What replay makes out of the bytes of a frame, and the place behind them. -/
structure Found where
  op : Op
  id : String
  dataSize : Nat
  frameSize : Nat
  next : Nat

/-- One look at a log: the frame at a place, or nothing more to read there. Neither, if a range
is out of bounds. -/
def look? (sum : Bytes → UInt32) (log : Bytes) (pos : Nat) : Option (Option Found) := do
  let left ← minus? log.size pos
  if left < headerSize then return none
  let header ← slice? log pos (pos + headerSize)
  let (bodySize, header) ← number? 4 header
  let (checksum, _) ← number? 4 header
  let start := pos + headerSize
  let stop := start + bodySize
  if bodySize < bodyHeaderSize ∨ log.size < stop then return none
  let body ← slice? log start stop
  if (sum body).toNat ≠ checksum then return none
  let (code, cursor) ← number? 1 body
  let (idSize, cursor) ← number? 2 cursor
  if cursor.size < idSize then return none
  let idBytes ← slice? cursor 0 idSize
  let dataSize ← minus? cursor.size idSize
  match String.fromUTF8? idBytes, Op.ofCode? (UInt8.ofNat code) with
  | some id, some op => return some ⟨op, id, dataSize, low32 (headerSize + bodySize), stop⟩
  | _, _ => return none

/-- What the live and the dead bytes are once the record under an identifier is dead, unless more
live bytes would go than there are. -/
def Replay.release? (r : Replay) (id : String) (live dead : Nat) : Option (Nat × Nat) :=
  match r.index.get? id with
  | none => some (live, dead)
  | some old => (minus? live old.length).map fun live => (live, dead + old.frameSize)

/-- What is gathered once a frame that was found took effect. -/
def Replay.take? (r : Replay) (f : Found) : Option Replay :=
  match f.op with
  | .put =>
    let offset := r.stop + headerSize + bodyHeaderSize + f.id.utf8ByteSize
    (r.release? f.id (r.liveBytes + f.dataSize) r.deadBytes).map fun (live, dead) =>
      ⟨r.index.insert f.id ⟨offset, low32 f.dataSize, f.frameSize⟩, f.next, live, dead⟩
  | .delete =>
    (r.release? f.id r.liveBytes (r.deadBytes + f.frameSize)).map fun (live, dead) =>
      ⟨r.index.erase f.id, f.next, live, dead⟩

/-- The loop of replay, from what was gathered so far to where it ends. -/
inductive Runs (sum : Bytes → UInt32) (log : Bytes) : Replay → Replay → Prop
  | done {r : Replay} (h : look? sum log r.stop = some none) : Runs sum log r r
  | round {r r' out : Replay} {f : Found} (hlook : look? sum log r.stop = some (some f))
      (htake : r.take? f = some r') (hrest : Runs sum log r' out) : Runs sum log r out

/-- From the same start the loop has no two ends. -/
theorem Runs.unique {sum : Bytes → UInt32} {log : Bytes} {r out out' : Replay}
    (h : Runs sum log r out) (h' : Runs sum log r out') : out = out' := by
  induction h generalizing out' with
  | done hlook =>
    cases h' with
    | done => rfl
    | round hlook' =>
      rw [hlook] at hlook'
      cases hlook'
  | round hlook htake hrest ih =>
    cases h' with
    | done hlook' =>
      rw [hlook] at hlook'
      cases hlook'
    | round hlook' htake' hrest' =>
      rw [hlook] at hlook'
      cases hlook'
      rw [htake] at htake'
      cases htake'
      exact ih hrest'

theorem slice?_eq_some {b : Bytes} {start stop : Nat} (h : start ≤ stop) (hsize : stop ≤ b.size) :
    slice? b start stop = some (b.extract start stop) := if_pos ⟨h, hsize⟩

theorem minus?_eq_some {n m : Nat} (h : m ≤ n) : minus? n m = some (n - m) := if_pos h

theorem low32_eq {n : Nat} (h : n < UInt32.size) : low32 n = n := Nat.mod_eq_of_lt h

theorem getElem?_extract {b : Bytes} {start stop i : Nat} (h : start + i < stop)
    (hstop : stop ≤ b.size) : (b.extract start stop)[i]? = b[start + i]? := by
  have hi : i < (b.extract start stop).size := by
    rw [ByteArray.size_extract]
    omega
  rw [getElem?_pos (b.extract start stop) i hi, getElem?_pos b (start + i) (by omega),
    ByteArray.getElem_extract]

theorem leNat_extract {b : Bytes} {start stop pos count : Nat} (h : start + pos + count ≤ stop)
    (hstop : stop ≤ b.size) :
    leNat (b.extract start stop) pos count = leNat b (start + pos) count := by
  induction count generalizing pos with
  | zero => rfl
  | succ count ih =>
    rw [leNat, leNat, getElem?_extract (by omega) hstop, ih (by omega)]
    rfl

theorem extract_extract_of_le {b : Bytes} {start stop i j : Nat} (h : start + j ≤ stop) :
    (b.extract start stop).extract i j = b.extract (start + i) (start + j) := by
  rw [ByteArray.extract_extract, Nat.min_eq_left h]

/-- The number at the front of a slice is read from the log itself. -/
theorem number?_extract {b : Bytes} {start stop count : Nat} (h : start + count ≤ stop)
    (hstop : stop ≤ b.size) :
    number? count (b.extract start stop) =
      some (leNat b start count, b.extract (start + count) stop) := by
  have hsize : (b.extract start stop).size = stop - start := by
    rw [ByteArray.size_extract, Nat.min_eq_left hstop]
  have hall : start + (stop - start) = stop := by omega
  rw [number?, hsize, slice?_eq_some (Nat.zero_le _) (by omega),
    slice?_eq_some (by omega) (Nat.le_of_eq hsize.symm), extract_extract_of_le (by omega),
    extract_extract_of_le (by omega), hall]
  simp only [Option.bind_eq_bind, Option.bind_some, Nat.add_zero]
  rw [leNat_extract (by omega) (by omega)]
  rfl

theorem ofNat_leNat_one (b : Bytes) (pos : Nat) : UInt8.ofNat (leNat b pos 1) = b[pos]?.getD 0 := by
  simp only [leNat, Nat.mul_zero, Nat.add_zero, UInt8.ofNat_toNat]

/-- What replay makes out of a frame at a place. -/
def Found.ofFrame (pos : Nat) (f : Frame) : Found :=
  ⟨f.op, f.id, f.data.size, f.size, pos + f.size⟩

/-- A look at a log within its bounds sees the frame that stands there, and nothing that is
out of bounds. -/
theorem look?_eq (sum : Bytes → UInt32) {log : Bytes} {pos : Nat} (hpos : pos ≤ log.size)
    (hlog : log.size < UInt32.size) :
    look? sum log pos = some ((Frame.readAt? sum log pos).map (Found.ofFrame pos)) := by
  have hhs : headerSize = 8 := rfl
  have hbs : bodyHeaderSize = 3 := rfl
  rw [look?, minus?_eq_some hpos, Frame.readAt?]
  dsimp only [Option.bind_eq_bind, Option.bind_some]
  by_cases hheader : log.size < pos + headerSize
  · rw [if_pos (by omega), if_pos hheader]
    rfl
  rw [if_neg (by omega), if_neg hheader, slice?_eq_some (by omega) (by omega), Option.bind_some,
    number?_extract (by omega) (by omega), Option.bind_some]
  dsimp only
  rw [number?_extract (by omega) (by omega), Option.bind_some]
  dsimp only
  generalize hbodySize : leNat log pos 4 = bodySize
  generalize hstart : pos + headerSize = start at *
  by_cases hbody : bodySize < bodyHeaderSize ∨ log.size < start + bodySize
  · rw [if_pos hbody, if_pos hbody]
    rfl
  rw [if_neg hbody, if_neg hbody, slice?_eq_some (by omega) (by omega), Option.bind_some]
  by_cases hsum : (sum (log.extract start (start + bodySize))).toNat ≠ leNat log (pos + 4) 4
  · rw [if_pos hsum, if_pos hsum]
    rfl
  rw [if_neg hsum, if_neg hsum, number?_extract (by omega) (by omega), Option.bind_some]
  dsimp only
  rw [number?_extract (by omega) (by omega), Option.bind_some]
  dsimp only
  generalize hidSize : leNat log (start + 1) 2 = idSize
  have hcursor : (log.extract (start + 1 + 2) (start + bodySize)).size = bodySize - 3 := by
    rw [ByteArray.size_extract]
    omega
  rw [hcursor]
  by_cases hid : bodySize < bodyHeaderSize + idSize
  · rw [if_pos (by omega), if_pos hid]
    rfl
  rw [if_neg (by omega), if_neg hid, slice?_eq_some (by omega) (by omega), Option.bind_some,
    extract_extract_of_le (by omega), minus?_eq_some (by omega), Option.bind_some, Nat.add_zero,
    ofNat_leNat_one, show start + 1 + 2 = start + bodyHeaderSize from rfl]
  cases hread : String.fromUTF8? (log.extract (start + bodyHeaderSize)
      (start + bodyHeaderSize + idSize)) with
  | none => rfl
  | some id =>
    cases hop : Op.ofCode? (log[start]?.getD 0) with
    | none => rfl
    | some op =>
      have hidLength := Frame.utf8ByteSize_of_extract hread (by omega)
      have hdata : (log.extract (start + bodyHeaderSize + idSize) (start + bodySize)).size =
          bodySize - 3 - idSize := by
        rw [ByteArray.size_extract]
        omega
      have hsize : headerSize + bodySize = headerSize + bodyHeaderSize + idSize +
          (bodySize - 3 - idSize) := by omega
      simp only [Found.ofFrame, Frame.size, Option.map_some, hidLength, hdata, ← hsize]
      rw [low32_eq (by omega), ← Nat.add_assoc, hstart]
      rfl

theorem Replay.release?_eq_some {r : Replay} {id : String} {live : Nat} (dead : Nat)
    (h : ((r.index.get? id).map Slot.length).getD 0 ≤ live) :
    r.release? id live dead = some (live - ((r.index.get? id).map Slot.length).getD 0,
      dead + ((r.index.get? id).map Slot.frameSize).getD 0) := by
  unfold release?
  cases hold : r.index.get? id with
  | none => rfl
  | some old =>
    rw [hold] at h
    simp only [Option.map_some, Option.getD_some] at h ⊢
    rw [minus?_eq_some h]
    rfl

/-- What is there under the identifier of a frame was counted, so that the frame takes effect. -/
theorem Replay.take?_ofFrame {r : Replay} {f : Frame} (hsize : f.size < UInt32.size)
    (hlive : ((r.index.get? f.id).map Slot.length).getD 0 ≤ r.liveBytes) :
    r.take? (Found.ofFrame r.stop f) = some (r.step f) := by
  have hdata : f.data.size < UInt32.size := by
    unfold Frame.size at hsize
    omega
  unfold take? Found.ofFrame Replay.step
  cases f.op with
  | put =>
    dsimp only
    rw [release?_eq_some _ (Nat.le_add_right_of_le hlive), low32_eq hdata]
    rfl
  | delete =>
    dsimp only
    rw [release?_eq_some _ hlive]
    rfl

/-- Behind frames that were read stands the next one. -/
theorem readAt?_of_frames {sum : Bytes → UInt32} {log : Bytes} {read rest : List Frame}
    (h : frames sum log = read ++ rest) :
    Frame.readAt? sum log (bytesOf sum read).size = rest.head? := by
  obtain ⟨hfits, -, -, hend⟩ :=
    extract_of_framesFrom sum log log.size 0 (Nat.zero_le _) (by omega) (rfl : _ = frames sum log)
  rw [Nat.zero_add] at hend
  cases rest with
  | nil =>
    rw [h, List.append_nil] at hend
    exact hend
  | cons f rest =>
    have hlog := bytesOf_frames_append sum log
    rw [h, bytesOf_append, bytesOf, ByteArray.append_assoc, ByteArray.append_assoc] at hlog
    rw [← hlog]
    exact Frame.readAt?_append sum (hfits f (by simp [h])) _ _

theorem Replay.stop_step (r : Replay) (f : Frame) : (r.step f).stop = r.stop + f.size := by
  unfold step
  cases f.op with
  | put => rfl
  | delete => rfl

theorem Replay.stop_foldl (sum : Bytes → UInt32) (fs : List Frame) :
    (fs.foldl Replay.step {}).stop = (bytesOf sum fs).size := by
  induction fs using List.reverseRecOn with
  | nil => rfl
  | append_singleton fs f ih =>
    rw [List.foldl_append, List.foldl_cons, List.foldl_nil, stop_step, ih, bytesOf_concat,
      ByteArray.size_append, Frame.size_bytes]

/-- The loop goes on behind any of the frames to the end of replay, with every range in bounds. -/
theorem runs_of_frames {sum : Bytes → UInt32} {log : Bytes} (hlog : log.size < UInt32.size)
    {read rest : List Frame} (h : frames sum log = read ++ rest) :
    Runs sum log (read.foldl Replay.step {}) (replay sum log) := by
  induction rest generalizing read with
  | nil =>
    have hlook := look?_eq sum (replay_covered sum h).1 hlog
    rw [Replay.stop_foldl sum, readAt?_of_frames h] at hlook
    rw [List.append_nil] at h
    rw [replay, h]
    refine .done ?_
    rw [Replay.stop_foldl sum, hlook]
    rfl
  | cons f rest ih =>
    obtain ⟨hstop, hlive⟩ := replay_covered sum h
    have hlook := look?_eq sum hstop hlog
    have hread := readAt?_of_frames h
    rw [Replay.stop_foldl sum, hread] at hlook
    have hsize := (Frame.extract_of_readAt? hread).2.1
    have hframes : frames sum log = (read ++ [f]) ++ rest := by
      rw [h, List.append_assoc]
      rfl
    have hrest := ih hframes
    rw [List.foldl_append] at hrest
    refine .round (f := Found.ofFrame (read.foldl Replay.step {}).stop f) ?_
      (Replay.take?_ofFrame (by omega) (hlive f.id)) hrest
    rw [Replay.stop_foldl sum, hlook]
    rfl

/-! ## Where the records lie -/

/-- The data of each frame lies where its slot says. -/
theorem data_of_frames {sum : Bytes → UInt32} {log : Bytes} {read rest : List Frame} {f : Frame}
    (h : frames sum log = read ++ f :: rest) :
    (Slot.ofFrame (bytesOf sum read).size f).data log = f.data := by
  obtain ⟨-, pre, post, rfl, hpre⟩ := Frame.readAt?_some (readAt?_of_frames h)
  rw [← hpre, ← ByteArray.append_assoc, Slot.data_append _ post, Slot.data_ofFrame]
  rw [ByteArray.size_append, Frame.size_bytes, Slot.ofFrame, Frame.size]
  dsimp only
  omega

theorem Replay.ascending_foldl (fs : List Frame) :
    Ascending (fs.foldl Replay.step {}).index := by
  induction fs using List.reverseRecOn with
  | nil => exact ascending_nil
  | append_singleton fs f ih =>
    rw [List.foldl_append, List.foldl_cons, List.foldl_nil]
    unfold step
    cases f.op with
    | put => exact ih.insert _ _
    | delete => exact ih.erase _

theorem Replay.get?_step_self {r : Replay} (h : Ascending r.index) (f : Frame) :
    (r.step f).index.get? f.id =
      match f.op with
      | .put => some (.ofFrame r.stop f)
      | .delete => none := by
  unfold step
  cases f.op with
  | put => exact get?_insert_same f.id _ _
  | delete => exact get?_erase_self h f.id

theorem Replay.get?_step_ne {r : Replay} (h : Ascending r.index) {f : Frame} {id : String}
    (hid : f.id ≠ id) : (r.step f).index.get? id = r.index.get? id := by
  unfold step
  cases f.op with
  | put => exact get?_insert_ne (Ne.symm hid) _
  | delete => exact get?_erase_ne h (Ne.symm hid)

/-- The last of some frames is the one that is singled out among them, or stands behind it. -/
theorem concat_eq_append_cons_iff {fs read rest : List Frame} {f g : Frame} :
    fs ++ [f] = read ++ g :: rest ↔
      rest = [] ∧ fs = read ∧ f = g ∨ ∃ rest', rest = rest' ++ [f] ∧ fs = read ++ g :: rest' := by
  constructor
  · intro h
    rcases rest.eq_nil_or_concat with rfl | ⟨rest, last, rfl⟩
    · obtain ⟨hread, hlast⟩ := List.append_inj' h rfl
      exact Or.inl ⟨rfl, hread, List.singleton_inj.mp hlast⟩
    · rw [List.concat_eq_append, ← List.cons_append, ← List.append_assoc] at h
      obtain ⟨hread, hlast⟩ := List.append_inj' h rfl
      cases hlast
      exact Or.inr ⟨rest, List.concat_eq_append, hread⟩
  · rintro (⟨rfl, rfl, rfl⟩ | ⟨rest, rfl, rfl⟩)
    · rfl
    · rw [List.append_assoc, List.cons_append]

/-- What the index holds under an identifier is the frame that put it last, unless a deletion
followed. -/
theorem Replay.get?_foldl (fs : List Frame) (id : String) (slot : Slot) :
    (fs.foldl Replay.step {}).index.get? id = some slot ↔
      ∃ read data rest, fs = read ++ ⟨.put, id, data⟩ :: rest ∧ (∀ f ∈ rest, f.id ≠ id) ∧
        slot = .ofFrame (read.foldl Replay.step {}).stop ⟨.put, id, data⟩ := by
  induction fs using List.reverseRecOn with
  | nil => simp [Keyed.get?]
  | append_singleton fs f ih =>
    have hasc := ascending_foldl fs
    rw [List.foldl_append, List.foldl_cons, List.foldl_nil]
    simp only [concat_eq_append_cons_iff]
    by_cases hid : f.id = id
    · -- no frame of the identifier stands behind the last one
      have hlast : ((fs.foldl Replay.step {}).step f).index.get? id = some slot ↔
          f.op = .put ∧ slot = .ofFrame (fs.foldl Replay.step {}).stop f := by
        rw [← hid, get?_step_self hasc]
        cases f.op with
        | put => simp [eq_comm]
        | delete => simp
      rw [hlast]
      constructor
      · rintro ⟨hop, rfl⟩
        have hf : f = ⟨.put, id, f.data⟩ := by rw [← hop, ← hid]
        exact ⟨fs, f.data, [], Or.inl ⟨rfl, rfl, hf⟩, by simp, by rw [← hf]⟩
      · rintro ⟨read, data, rest, ⟨rfl, rfl, rfl⟩ | ⟨rest, rfl, rfl⟩, hrest, rfl⟩
        · exact ⟨rfl, rfl⟩
        · exact absurd hid (hrest f (by simp))
    · rw [get?_step_ne hasc hid, ih]
      constructor
      · rintro ⟨read, data, rest, rfl, hrest, rfl⟩
        refine ⟨read, data, rest ++ [f], Or.inr ⟨rest, rfl, rfl⟩, ?_, rfl⟩
        rw [List.forall_mem_append]
        exact ⟨hrest, by simpa using hid⟩
      · rintro ⟨read, data, rest, ⟨rfl, rfl, rfl⟩ | ⟨rest, rfl, rfl⟩, hrest, rfl⟩
        · exact absurd rfl hid
        · exact ⟨read, data, rest, rfl, (List.forall_mem_append.mp hrest).1, rfl⟩

/-! ## Replay as the reader of the grammar -/

theorem stop_replay (sum : Bytes → UInt32) (log : Bytes) :
    (replay sum log).stop = (bytesOf sum (frames sum log)).size :=
  Replay.stop_foldl sum (frames sum log)

theorem extract_stop_replay (sum : Bytes → UInt32) (log : Bytes) :
    log.extract 0 (replay sum log).stop = bytesOf sum (frames sum log) := by
  rw [stop_replay, (frames_split sum log).2.2]

/-- What follows a log of its own is read as if it stood alone, and its frames take effect on
what the log before it left. -/
theorem IsLog.replay_append {sum : Bytes → UInt32} {a : Bytes} (h : IsLog sum a) (b : Bytes) :
    ∃ fs, frames sum (a ++ b) = fs ++ frames sum b ∧
      replay sum a = fs.foldl Replay.step {} ∧ (bytesOf sum fs).size = a.size := by
  obtain ⟨fs, hfs, rfl⟩ := h.exists_frames
  refine ⟨fs, frames_bytesOf_append sum hfs b, ?_, rfl⟩
  rw [replay, frames_bytesOf sum hfs]

/-- No longer part of a log from its start is made of frames. -/
theorem le_stop_of_isLog {sum : Bytes → UInt32} {log : Bytes} {n : Nat} (hn : n ≤ log.size)
    (h : IsLog sum (log.extract 0 n)) : n ≤ (replay sum log).stop := by
  obtain ⟨fs, hframes, -, hsize⟩ := h.replay_append (log.extract n log.size)
  rw [extract_append_rest hn] at hframes
  rw [ByteArray.size_extract] at hsize
  rw [stop_replay, hframes, bytesOf_append, ByteArray.size_append]
  omega

theorem contents_replay (sum : Bytes → UInt32) (log : Bytes) :
    contents log (replay sum log).index = recordsOf (frames sum log) := by
  obtain ⟨hsound, hrecords⟩ := Replay.sound_foldl sum (frames_split sum log).1
  have hsame := hsound.contents_append (log.extract (bytesOf sum (frames sum log)).size log.size)
  rw [bytesOf_frames_append, hrecords] at hsame
  exact hsame

/-- That some frames, and what is gathered from them, are what replay is to make out of a log. -/
structure Reads (sum : Bytes → UInt32) (log : Bytes) (fs : List Frame) (r : Replay) : Prop where
  /-- The loop ends, ends there alone, and asks for nothing out of range. -/
  runs : ∀ out, Runs sum log {} out ↔ out = r
  within : r.stop ≤ log.size
  isLog : IsLog sum (log.extract 0 r.stop)
  longest : ∀ n ≤ log.size, IsLog sum (log.extract 0 n) → n ≤ r.stop
  encoded : ∀ f ∈ fs, f.encode sum = .ok (f.bytes sum)
  pieces : log.extract 0 r.stop = bytesOf sum fs
  fold : r = fs.foldl Replay.step {}
  records : contents log r.index = recordsOf fs
  /-- The index holds the frames that put their identifiers last, and nothing more. -/
  slots : ∀ id slot, r.index.get? id = some slot ↔ ∃ read data rest,
    fs = read ++ ⟨.put, id, data⟩ :: rest ∧ (∀ f ∈ rest, f.id ≠ id) ∧
      slot = .ofFrame (bytesOf sum read).size ⟨.put, id, data⟩
  /-- From the offset of a slot to its end stand the data of its frame, and these alone. -/
  delimits : ∀ read f rest, fs = read ++ f :: rest →
    (Slot.ofFrame (bytesOf sum read).size f).data log = f.data ∧
      (Slot.ofFrame (bytesOf sum read).size f).length = f.data.size
  again : replay sum (log.extract 0 r.stop) = r
  /-- Behind a part that is a log of its own, replay goes on from what it gathered there. -/
  continued : ∀ a b, log = a ++ b → IsLog sum a →
    r = (frames sum b).foldl Replay.step (replay sum a) ∧ Runs sum log (replay sum a) r

/-- Replay reads the grammar of logs, whatever the bytes and the checksums are. -/
theorem reads_replay (sum : Bytes → UInt32) {log : Bytes} (hlog : log.size < UInt32.size) :
    Reads sum log (frames sum log) (replay sum log) := by
  obtain ⟨hfits, hsize, -⟩ := frames_split sum log
  have hruns : Runs sum log {} (replay sum log) :=
    runs_of_frames hlog (List.nil_append (frames sum log)).symm
  constructor
  case runs =>
    intro out
    constructor
    · intro h
      exact h.unique hruns
    · rintro rfl
      exact hruns
  case within => rwa [stop_replay]
  case isLog =>
    rw [extract_stop_replay]
    exact isLog_bytesOf sum hfits
  case longest =>
    intro n hn h
    exact le_stop_of_isLog hn h
  case encoded =>
    intro f hf
    have hle := size_le_of_mem sum hf
    exact Frame.encode_of_small sum (hfits f hf).1 (by omega)
  case pieces => exact extract_stop_replay sum log
  case fold => rfl
  case records => exact contents_replay sum log
  case slots =>
    intro id slot
    simp only [← Replay.stop_foldl sum]
    exact Replay.get?_foldl (frames sum log) id slot
  case delimits =>
    intro read f rest h
    exact ⟨data_of_frames h, rfl⟩
  case again =>
    rw [extract_stop_replay, replay, frames_bytesOf sum hfits]
    rfl
  case continued =>
    rintro a b rfl ha
    obtain ⟨fs, hframes, hfront, -⟩ := ha.replay_append b
    rw [hfront]
    refine ⟨?_, runs_of_frames hlog hframes⟩
    rw [replay, hframes, List.foldl_append]

/-- The bytes of a frame whose identifier would reach behind its body. -/
def overreaching : Bytes :=
  leBytes 4 3 ++ leBytes 4 0 ++ (ByteArray.empty.push Op.put.code ++ leBytes 2 9)

def putThenDelete : List Frame := [⟨.put, "a", ByteArray.empty.push 7⟩, ⟨.delete, "a", .empty⟩]

theorem reads_replay_overreaching :
    (bytesOf (fun _ => 0) putThenDelete ++ overreaching).size < UInt32.size ∧
      Reads (fun _ => 0) (bytesOf (fun _ => 0) putThenDelete ++ overreaching) putThenDelete
        (replay (fun _ => 0) (bytesOf (fun _ => 0) putThenDelete ++ overreaching)) := by
  have hsize : (bytesOf (fun _ => 0) putThenDelete ++ overreaching).size < UInt32.size := by
    simp only [putThenDelete, bytesOf, ByteArray.size_append, Frame.size_bytes]
    decide
  have hfits : ∀ f ∈ putThenDelete, f.Fits := by
    simp only [putThenDelete, List.forall_mem_cons, Frame.Fits, Frame.size_body]
    refine ⟨by decide, by decide, by simp⟩
  have hnone : frames (fun _ => 0) overreaching = [] := by rfl
  have hframes := frames_bytesOf_append (fun _ => 0) hfits overreaching
  rw [hnone, List.append_nil] at hframes
  have hreads := reads_replay (fun _ => 0) hsize
  rw [hframes] at hreads
  exact ⟨hsize, hreads⟩

end DocBase.Log
