import DocBase.Store.Log.Frame
import Mathlib

/-! Frames are self-delimiting: a frame whose lengths fit is read back from wherever it
stands, whatever is around it, and whatever is read stands there with its exact bytes. -/
namespace DocBase.Log

/-! ## Numbers in bytes -/

@[simp] theorem size_leBytes (count n : Nat) : (leBytes count n).size = count := by
  induction count generalizing n with
  | zero => rfl
  | succ count ih => simp [leBytes, ih, Nat.add_comm]

theorem getElem?_append_cons (pre post : Bytes) (b : UInt8) :
    (pre ++ (ByteArray.empty.push b ++ post))[pre.size]? = some b := by
  have hlt : pre.size < (pre ++ (ByteArray.empty.push b ++ post)).size := by
    rw [ByteArray.size_append, ByteArray.size_append, ByteArray.size_push]
    omega
  rw [getElem?_pos (pre ++ _) _ hlt, ByteArray.getElem_append_right (Nat.le_refl _),
    ByteArray.getElem_append_left (by simp)]
  simp only [Nat.sub_self]
  rfl

/-- A number is read back wherever it stands. -/
theorem leNat_leBytes (pre post : Bytes) (count n : Nat) (h : n < 256 ^ count) :
    leNat (pre ++ (leBytes count n ++ post)) pre.size count = n := by
  induction count generalizing pre n with
  | zero => simp only [Nat.pow_zero] at h; simp [leNat]; omega
  | succ count ih =>
    have hn : n / 256 < 256 ^ count := Nat.div_lt_of_lt_mul (by rwa [Nat.pow_succ'] at h)
    have hrest := ih (pre ++ ByteArray.empty.push (UInt8.ofNat n)) (n / 256) hn
    simp only [ByteArray.size_append, ByteArray.size_push, ByteArray.size_empty,
      ByteArray.append_assoc, Nat.zero_add] at hrest
    rw [leBytes, ByteArray.append_assoc, leNat, hrest, getElem?_append_cons]
    simp only [Option.getD_some, UInt8.toNat_ofNat']
    omega

theorem leNat_eq {log : Bytes} (pre : Bytes) {post : Bytes} {pos count n : Nat}
    (hlog : log = pre ++ (leBytes count n ++ post)) (hpos : pos = pre.size)
    (h : n < 256 ^ count) : leNat log pos count = n := by
  rw [hlog, hpos, leNat_leBytes pre post count n h]

theorem extract_eq {log mid : Bytes} (pre post : Bytes) {start stop : Nat}
    (hlog : log = pre ++ (mid ++ post)) (hstart : start = pre.size)
    (hstop : stop = start + mid.size) : log.extract start stop = mid := by
  have h := ByteArray.extract_append_size_add (a := pre) (b := mid ++ post) (i := 0)
    (j := mid.size)
  rw [Nat.add_zero] at h
  rw [hlog, hstop, hstart, h, ByteArray.extract_append_eq_left rfl]

theorem extract_zero_of_le {b : Bytes} {n : Nat} (h : b.size ≤ n) : b.extract 0 n = b := by
  rw [← Nat.max_eq_left h, ByteArray.extract_zero_max_size]

theorem extract_append_left {a : Bytes} {start stop : Nat} (h : stop ≤ a.size) (b : Bytes) :
    (a ++ b).extract start stop = a.extract start stop := by
  rw [ByteArray.extract_append, Nat.sub_eq_zero_of_le h,
    ByteArray.extract_eq_empty_iff.mpr (by omega : min 0 b.size ≤ _), ByteArray.append_empty]

theorem leNat_lt (b : Bytes) (pos count : Nat) : leNat b pos count < 256 ^ count := by
  induction count generalizing pos with
  | zero => simp [leNat]
  | succ count ih =>
    have h := ih (pos + 1)
    have hb := (b[pos]?.getD 0).toNat_lt
    rw [leNat, Nat.pow_succ]
    omega

/-- The bytes of a number that was read are those that it was read from. -/
theorem leBytes_leNat (b : Bytes) (pos count : Nat) (h : pos + count ≤ b.size) :
    leBytes count (leNat b pos count) = b.extract pos (pos + count) := by
  induction count generalizing pos with
  | zero => simp [leBytes]
  | succ count ih =>
    have hpos : pos < b.size := by omega
    have hdiv : leNat b pos (count + 1) / 256 = leNat b (pos + 1) count := by
      have hb := (b[pos]?.getD 0).toNat_lt
      rw [leNat]; omega
    have hmod : UInt8.ofNat (leNat b pos (count + 1)) = b[pos] := by
      have hb := (b[pos]?.getD 0).toNat_lt
      apply UInt8.toNat_inj.mp
      rw [leNat, getElem?_pos b pos hpos]
      simp only [Option.getD_some, UInt8.toNat_ofNat']
      have := b[pos].toNat_lt
      omega
    rw [leBytes, hdiv, hmod, ih (pos + 1) (by omega),
      ByteArray.extract_eq_extract_append_extract (a := b) (i := pos) (pos + 1) (by omega)
        (by omega : pos + 1 ≤ pos + (count + 1)),
      ByteArray.extract_add_one hpos, Nat.add_assoc, Nat.add_comm 1 count]
    rfl

/-! ## Identifiers and operations in bytes -/

theorem fromUTF8?_eq_some {b : Bytes} {s : String} :
    String.fromUTF8? b = some s ↔ b = s.toUTF8 := by
  rw [String.fromUTF8?]
  constructor
  · intro h
    split at h
    · rw [← Option.some.inj h]; rfl
    · cases h
  · rintro rfl
    rw [String.toUTF8_eq_toByteArray, dif_pos s.isValidUTF8]
    rfl

@[simp] theorem size_toUTF8 (s : String) : s.toUTF8.size = s.utf8ByteSize := rfl

@[simp] theorem Op.ofCode?_code (op : Op) : Op.ofCode? op.code = some op := by
  cases op <;> rfl

theorem Op.code_of_ofCode? {c : UInt8} {op : Op} (h : Op.ofCode? c = some op) : op.code = c := by
  rw [Op.ofCode?] at h
  split at h
  · cases h; symm; assumption
  · split at h
    · cases h; symm; assumption
    · cases h

/-! ## Frames -/
namespace Frame

@[simp] theorem size_body (f : Frame) :
    f.body.size = bodyHeaderSize + f.id.utf8ByteSize + f.data.size := by
  simp [body, bodyHeaderSize]

@[simp] theorem size_bytes (sum : Bytes → UInt32) (f : Frame) : (f.bytes sum).size = f.size := by
  simp [bytes, size, headerSize]; omega

theorem size_eq_body (f : Frame) : f.size = headerSize + f.body.size := by
  rw [size_body, size]
  omega

theorem size_pos (f : Frame) : 0 < f.size := by
  rw [size, headerSize]; omega

/-- The lengths of the identifier and of the body fit their places. -/
def Fits (f : Frame) : Prop := f.id.utf8ByteSize ≤ maxIdLength ∧ f.body.size < UInt32.size

theorem encode_eq_ok {sum : Bytes → UInt32} {f : Frame} {b : Bytes} (h : f.encode sum = .ok b) :
    b = f.bytes sum ∧ f.id.utf8ByteSize ≤ maxIdLength ∧ f.size < UInt32.size := by
  rw [encode] at h
  split at h
  · cases h
  · split at h
    · cases h
    · cases h; exact ⟨rfl, by omega, by omega⟩

theorem encode_of_small (sum : Bytes → UInt32) {f : Frame} (hid : f.id.utf8ByteSize ≤ maxIdLength)
    (hf : f.size < UInt32.size) : f.encode sum = .ok (f.bytes sum) := by
  rw [encode, if_neg (by omega), if_neg (by omega)]

theorem Fits.of_size {f : Frame} (hid : f.id.utf8ByteSize ≤ maxIdLength) (hf : f.size < UInt32.size) :
    f.Fits := by
  rw [size_eq_body] at hf
  exact ⟨hid, by omega⟩

/-- A fitting frame is read back wherever it stands. -/
theorem readAt?_append (sum : Bytes → UInt32) {f : Frame} (h : f.Fits) (pre post : Bytes) :
    readAt? sum (pre ++ (f.bytes sum ++ post)) pre.size = some f := by
  obtain ⟨hid, hbody⟩ := h
  let lengths := leBytes 4 f.body.size
  let header := lengths ++ leBytes 4 (sum f.body).toNat
  let op := ByteArray.empty.push f.op.code
  let idLength := leBytes 2 f.id.utf8ByteSize
  generalize hlog : pre ++ (f.bytes sum ++ post) = log
  have hframe : log = pre ++ (header ++ (f.body ++ post)) := by
    simp only [← hlog, bytes, ByteArray.append_assoc, header, lengths]
  have hfields : log =
      pre ++ (header ++ (op ++ (idLength ++ (f.id.toUTF8 ++ (f.data ++ post))))) := by
    simp only [hframe, body, ByteArray.append_assoc, op, idLength]
  have hheader : header.size = 8 := by simp [header, lengths]
  have hsize : pre.size + 8 + f.body.size ≤ log.size := by rw [hframe]; simp [hheader]; omega
  -- the fields from the front to the back, each with what stands before it
  have hbodySize : leNat log pre.size 4 = f.body.size :=
    leNat_eq pre (by simp only [hframe, header, lengths, ByteArray.append_assoc]; rfl) rfl hbody
  have hsum : leNat log (pre.size + 4) 4 = (sum f.body).toNat :=
    leNat_eq (pre ++ lengths)
      (by simp only [hframe, header, ByteArray.append_assoc]; rfl) (by simp [lengths])
      (sum f.body).toNat_lt
  have hwhole : log.extract (pre.size + 8) (pre.size + 8 + f.body.size) = f.body :=
    extract_eq (pre ++ header) _
      (by simp only [hframe, ByteArray.append_assoc]; rfl) (by simp [hheader]) rfl
  have hop : log[pre.size + 8]? = some f.op.code := by
    rw [hfields, ← ByteArray.append_assoc, ← hheader, ← ByteArray.size_append]
    exact getElem?_append_cons _ _ _
  have hidLength : leNat log (pre.size + 8 + 1) 2 = f.id.utf8ByteSize :=
    leNat_eq (pre ++ (header ++ op))
      (by simp only [hfields, ByteArray.append_assoc]; rfl) (by simp [hheader, op])
      (by rw [maxIdLength] at hid; omega)
  have hidBytes : log.extract (pre.size + 8 + 3) (pre.size + 8 + 3 + f.id.utf8ByteSize) =
      f.id.toUTF8 :=
    extract_eq (pre ++ (header ++ (op ++ idLength))) _
      (by simp only [hfields, ByteArray.append_assoc]; rfl)
      (by simp [hheader, op, idLength]) rfl
  have hdata : log.extract (pre.size + 8 + 3 + f.id.utf8ByteSize)
      (pre.size + 8 + f.body.size) = f.data :=
    extract_eq (pre ++ (header ++ (op ++ (idLength ++ f.id.toUTF8)))) _
      (by simp only [hfields, ByteArray.append_assoc]; rfl)
      (by simp [hheader, op, idLength]; omega) (by rw [size_body, bodyHeaderSize]; omega)
  have hmin : 3 + f.id.utf8ByteSize ≤ f.body.size := by rw [size_body, bodyHeaderSize]; omega
  simp only [readAt?, headerSize, bodyHeaderSize, hbodySize, hsum, hwhole, hop, hidLength,
    hidBytes, hdata]
  rw [if_neg (by omega), if_neg (by omega), if_neg (by simp), if_neg (by omega),
    fromUTF8?_eq_some.mpr rfl, Option.getD_some, Op.ofCode?_code]

theorem utf8ByteSize_of_extract {log : Bytes} {pos count : Nat} {id : String}
    (h : String.fromUTF8? (log.extract pos (pos + count)) = some id)
    (hcount : pos + count ≤ log.size) : id.utf8ByteSize = count := by
  rw [← size_toUTF8, ← fromUTF8?_eq_some.mp h, ByteArray.size_extract]
  omega

/-- Fields that are read one after the other are together the body they were read from. -/
theorem body_of_fields {log : Bytes} {start stop : Nat} {op : Op} {id : String}
    (hop : Op.ofCode? (log[start]?.getD 0) = some op)
    (hid : String.fromUTF8? (log.extract (start + bodyHeaderSize)
      (start + bodyHeaderSize + leNat log (start + 1) 2)) = some id)
    (hmin : start + bodyHeaderSize + leNat log (start + 1) 2 ≤ stop) (hstop : stop ≤ log.size) :
    let f : Frame :=
      ⟨op, id, log.extract (start + bodyHeaderSize + leNat log (start + 1) 2) stop⟩
    f.body = log.extract start stop ∧ f.id.utf8ByteSize = leNat log (start + 1) 2 := by
  have hbs : bodyHeaderSize = 3 := rfl
  have hidLength := utf8ByteSize_of_extract hid (by omega)
  rw [fromUTF8?_eq_some] at hid
  have hopBytes : ByteArray.empty.push op.code = log.extract start (start + 1) := by
    have hpos : start < log.size := by omega
    rw [Op.code_of_ofCode? hop, ByteArray.extract_add_one hpos, getElem?_pos log _ hpos]
    rfl
  have hlengthBytes : leBytes 2 id.utf8ByteSize = log.extract (start + 1) (start + 1 + 2) := by
    rw [hidLength, leBytes_leNat _ _ _ (by omega)]
  refine ⟨?_, hidLength⟩
  rw [body]
  dsimp only
  rw [hopBytes, hlengthBytes, ← hid, hbs,
    ← ByteArray.extract_eq_extract_append_extract _ (by omega) (by omega),
    ← ByteArray.extract_eq_extract_append_extract _ (by omega) (by omega),
    ← ByteArray.extract_eq_extract_append_extract _ (by omega) (by omega)]

/-- What stands at the place of a frame that is read: its body within the log, and before it
the length and the checksum of the body. -/
structure StandsAt (sum : Bytes → UInt32) (log : Bytes) (pos : Nat) (f : Frame) : Prop where
  within : pos + f.size ≤ log.size
  bodyLength : leNat log pos 4 = f.body.size
  checksum : leNat log (pos + 4) 4 = (sum f.body).toNat
  whole : log.extract (pos + headerSize) (pos + f.size) = f.body
  idLength : f.id.utf8ByteSize ≤ maxIdLength

theorem standsAt_of_readAt? {sum : Bytes → UInt32} {log : Bytes} {pos : Nat} {f : Frame}
    (h : readAt? sum log pos = some f) : f.StandsAt sum log pos := by
  simp only [readAt?] at h
  split_ifs at h with hheader hbody hsum hmin
  rw [not_or] at hbody
  rw [not_not] at hsum
  split at h
  case h_2 => cases h
  case h_1 id op hid hop =>
    obtain ⟨hwhole, hidLength⟩ := body_of_fields hop hid (by omega) (Nat.not_lt.mp hbody.2)
    injection h with h
    rw [h] at hwhole hidLength
    have hbodyLength : f.body.size = leNat log pos 4 := by
      rw [hwhole, ByteArray.size_extract]; omega
    have hend : pos + f.size = pos + headerSize + leNat log pos 4 := by
      rw [size_eq_body, hbodyLength, Nat.add_assoc]
    have hidLt := leNat_lt log (pos + headerSize + 1) 2
    exact {
      within := by omega
      bodyLength := hbodyLength.symm
      checksum := by rw [hwhole, hsum]
      whole := by rw [hwhole, hend]
      idLength := by rw [maxIdLength]; omega }

/-- What is read as a frame is its exact bytes. -/
theorem extract_of_readAt? {sum : Bytes → UInt32} {log : Bytes} {pos : Nat} {f : Frame}
    (h : readAt? sum log pos = some f) :
    f.Fits ∧ pos + f.size ≤ log.size ∧ log.extract pos (pos + f.size) = f.bytes sum := by
  have hf := standsAt_of_readAt? h
  have hwithin := hf.within
  have hsize := f.size_eq_body
  have hhs : headerSize = 8 := rfl
  have hbodyLt := leNat_lt log pos 4
  rw [hf.bodyLength] at hbodyLt
  refine ⟨⟨hf.idLength, hbodyLt⟩, hwithin, ?_⟩
  rw [bytes, ← hf.checksum, ← hf.bodyLength, leBytes_leNat _ _ _ (by omega),
    leBytes_leNat _ _ _ (by omega),
    ← ByteArray.extract_eq_extract_append_extract _ (by omega) (by omega), ← hf.whole,
    show pos + headerSize = pos + 4 + 4 from rfl,
    ← ByteArray.extract_eq_extract_append_extract _ (by omega) (by omega)]

end Frame
end DocBase.Log
