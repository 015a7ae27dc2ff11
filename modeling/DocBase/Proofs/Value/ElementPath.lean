import DocBase.Proofs.Json.Number
import DocBase.Proofs.Text.Split
import DocBase.Value.Path

/-! Paths to elements of lists. Paths are kept in the order of their text, which follows the
indices only as long as these have equally many digits. -/
namespace DocBase

/-! ## Numerals as text -/
namespace Json
variable {ds es : List Char} {m n : Nat}

theorem natOfDigits_cons (c : Char) (ds : List Char) :
    natOfDigits (c :: ds) = (c.toNat - '0'.toNat) * 10 ^ ds.length + natOfDigits ds := by
  have hone : natOfDigits [c] = c.toNat - '0'.toNat := by simp [natOfDigits]
  rw [← hone, ← natOfDigits_append]
  rfl

theorem isDigit_bounds {c : Char} (h : c.isDigit) : 48 ≤ c.toNat ∧ c.toNat ≤ 57 :=
  Char.isDigit_iff_toNat.mp h

theorem natOfDigits_lt (h : Digits ds) : natOfDigits ds < 10 ^ ds.length := by
  induction ds with
  | nil => exact Nat.one_pos
  | cons c ds ih =>
    have hc := isDigit_bounds (h c List.mem_cons_self)
    have hds := ih fun e he => h e (List.mem_cons_of_mem c he)
    have hle : (c.toNat - '0'.toNat) * 10 ^ ds.length ≤ 9 * 10 ^ ds.length :=
      Nat.mul_le_mul_right _ (by change c.toNat - 48 ≤ 9; omega)
    rw [natOfDigits_cons, List.length_cons, Nat.pow_succ]
    omega

theorem mul_add_lt_iff {b x y r s : Nat} (hr : r < b) (hs : s < b) :
    x * b + r < y * b + s ↔ x < y ∨ x = y ∧ r < s := by
  have hstep (h : x < y) : x * b + b ≤ y * b := by
    rw [← Nat.succ_mul]
    exact Nat.mul_le_mul_right b h
  have hback (h : y < x) : y * b + b ≤ x * b := by
    rw [← Nat.succ_mul]
    exact Nat.mul_le_mul_right b h
  rcases Nat.lt_trichotomy x y with h | rfl | h
  · have := hstep h
    omega
  · omega
  · have := hback h
    omega

/-- Of equally many digits the order is that of what they say. -/
theorem lt_iff_natOfDigits_lt (hd : Digits ds) (he : Digits es) (h : ds.length = es.length) :
    ds < es ↔ natOfDigits ds < natOfDigits es := by
  induction ds generalizing es with
  | nil =>
    rw [List.length_eq_zero_iff.mp h.symm]
    simp
  | cons c ds ih =>
    obtain ⟨e, es, rfl⟩ := List.exists_cons_of_length_eq_add_one h.symm
    have hlength : ds.length = es.length := Nat.succ.inj h
    have hds : Digits ds := fun x hx => hd x (List.mem_cons_of_mem c hx)
    have hes : Digits es := fun x hx => he x (List.mem_cons_of_mem e hx)
    have hds' := natOfDigits_lt hds
    have hes' := natOfDigits_lt hes
    have hc := isDigit_bounds (hd c List.mem_cons_self)
    have he := isDigit_bounds (he e List.mem_cons_self)
    have hlt : c < e ↔ c.toNat - '0'.toNat < e.toNat - '0'.toNat := by
      change c.toNat < e.toNat ↔ c.toNat - 48 < e.toNat - 48
      omega
    have heq : c = e ↔ c.toNat - '0'.toNat = e.toNat - '0'.toNat := by
      rw [← Char.toNat_inj]
      change c.toNat = e.toNat ↔ c.toNat - 48 = e.toNat - 48
      omega
    rw [hlength] at hds'
    rw [List.cons_lt_cons_iff, ih hds hes hlength, natOfDigits_cons, natOfDigits_cons, hlength,
      mul_add_lt_iff hds' hes', hlt, heq]

theorem toDigits_lt_iff (h : (Nat.toDigits 10 m).length = (Nat.toDigits 10 n).length) :
    Nat.toDigits 10 m < Nat.toDigits 10 n ↔ m < n := by
  rw [lt_iff_natOfDigits_lt (digits_toDigits m) (digits_toDigits n) h, natOfDigits_toDigits,
    natOfDigits_toDigits]

/-- Where a number takes one digit more than the one before it, its text comes first. -/
theorem toDigits_succ_lt (h : (Nat.toDigits 10 n).length < (Nat.toDigits 10 (n + 1)).length) :
    Nat.toDigits 10 (n + 1) < Nat.toDigits 10 n := by
  obtain ⟨c, ds, hds⟩ := List.exists_cons_of_ne_nil (Nat.toDigits_ne_nil (n := n) (b := 10))
  obtain ⟨e, es, hes⟩ := List.exists_cons_of_ne_nil (Nat.toDigits_ne_nil (n := n + 1) (b := 10))
  have hvalue := natOfDigits_toDigits n
  have hvalue' := natOfDigits_toDigits (n + 1)
  have hrest : natOfDigits ds < 10 ^ ds.length := natOfDigits_lt fun x hx =>
    digits_toDigits n x (hds ▸ List.mem_cons_of_mem c hx)
  have hupto (m k : Nat) : (Nat.toDigits 10 m).length ≤ k + 1 ↔ m < 10 ^ (k + 1) :=
    Nat.length_toDigits_le_iff (by decide) k.succ_pos
  have hn := (hupto n ds.length).mp (by rw [hds]; rfl)
  have hcarry : ¬ n + 1 < 10 ^ (ds.length + 1) := by
    rw [← hupto, hes]
    rw [hds, hes] at h
    exact Nat.not_le.mpr h
  have hpos : 0 < 10 ^ ds.length := Nat.pow_pos (by decide)
  rw [Nat.pow_succ] at hn hcarry
  have hlength : es.length = ds.length + 1 := by
    have hle := (hupto (n + 1) (ds.length + 1)).mpr (by rw [Nat.pow_succ, Nat.pow_succ]; omega)
    rw [hes] at hle
    rw [hds, hes] at h
    simp only [List.length_cons] at hle h
    omega
  rw [hds, natOfDigits_cons] at hvalue
  rw [hes, natOfDigits_cons, hlength, Nat.pow_succ] at hvalue'
  have hlast : 9 ≤ c.toNat - '0'.toNat := by
    by_contra hc
    have hle : (c.toNat - '0'.toNat) * 10 ^ ds.length ≤ 8 * 10 ^ ds.length :=
      Nat.mul_le_mul_right _ (by omega)
    omega
  have hfirst : e.toNat - '0'.toNat ≤ 1 := by
    by_contra he
    have hle : 2 * (10 ^ ds.length * 10) ≤ (e.toNat - '0'.toNat) * (10 ^ ds.length * 10) :=
      Nat.mul_le_mul_right _ (by omega)
    omega
  rw [hds, hes, List.cons_lt_cons_iff]
  refine Or.inl ?_
  change e.toNat < c.toNat
  change e.toNat - 48 ≤ 1 at hfirst
  change 9 ≤ c.toNat - 48 at hlast
  omega

theorem length_toDigits_mono (h : m ≤ n) :
    (Nat.toDigits 10 m).length ≤ (Nat.toDigits 10 n).length :=
  (Nat.length_toDigits_le_iff (by decide) Nat.length_toDigits_pos).mpr <| h.trans_lt <|
    (Nat.length_toDigits_le_iff (by decide) Nat.length_toDigits_pos).mp le_rfl

/-- Numbers of different lengths have two neighbours of different lengths between them. -/
theorem exists_carry {k : Nat}
    (h : (Nat.toDigits 10 n).length ≠ (Nat.toDigits 10 (n + k)).length) :
    ∃ i < k, (Nat.toDigits 10 (n + i)).length < (Nat.toDigits 10 (n + i + 1)).length := by
  induction k with
  | zero => exact absurd rfl h
  | succ k ih =>
    rcases (length_toDigits_mono (Nat.le_succ (n + k))).lt_or_eq with hlt | heq
    · exact ⟨k, k.lt_succ_self, hlt⟩
    · obtain ⟨i, hi, hcarry⟩ := ih fun hsame => h (hsame.trans heq)
      exact ⟨i, hi.trans k.lt_succ_self, hcarry⟩

end Json

/-! ## The paths -/
namespace Path
variable {m n i : Nat}

def element (path : String) (i : Nat) : String := path ++ "." ++ toString i

theorem toList_element (path : String) (i : Nat) :
    (element path i).toList = path.toList ++ '.' :: Nat.toDigits 10 i := by
  rw [element, String.toList_append, String.toList_append, Nat.toString_eq_repr, Nat.toList_repr,
    List.append_assoc]
  rfl

theorem segments_element (path : String) (i : Nat) :
    segments (element path i) = segments path ++ [toString i] := by
  have hdot : '.' ∉ Nat.toDigits 10 i := fun h => by
    have := Json.digits_toDigits i '.' h
    simp at this
  rw [segments, toList_element, Text.split_append, Text.split_of_notMem hdot, List.map_append]
  rfl

theorem element_injective {path : String} (h : element path m = element path n) : m = n := by
  have hlist := congrArg String.toList h
  rw [toList_element, toList_element] at hlist
  have hdigits := (List.cons.inj (List.append_cancel_left hlist)).2
  rw [← Json.natOfDigits_toDigits m, hdigits, Json.natOfDigits_toDigits]

theorem join_segments (path : String) : join (segments path) = path := by
  have hdot : ".".toList = ['.'] := rfl
  have hid : String.toList ∘ String.ofList = id := funext fun _ => String.toList_ofList
  rw [← String.toList_inj, join, String.toList_intercalate, segments, List.map_map, hid,
    List.map_id, Text.split_eq_splitOn, hdot, List.intercalate_splitOn]

theorem arrayIndex_toString (n : Nat) :
    arrayIndex (toString n) = if n < UInt64.size then some n else none := by
  have hall : (Nat.toDigits 10 n).all Char.isDigit := List.all_eq_true.mpr (Json.digits_toDigits n)
  have hne : (Nat.toDigits 10 n).isEmpty = false := by simp
  rw [arrayIndex, Nat.toString_eq_repr, Nat.toList_repr]
  split
  next r h =>
    have hplus := Json.digits_toDigits n '+' (h ▸ List.mem_cons_self)
    simp at hplus
  next =>
    rw [if_neg (by simp [hall, hne])]
    simp [Json.natOfDigits_toDigits]

/-- The order of two elements, as their paths have it. -/
theorem compare_element (path : String) (m n : Nat) :
    compare (element path m) (element path n) = .lt ↔ Nat.toDigits 10 m < Nat.toDigits 10 n := by
  refine compareOfLessAndEq_eq_lt.trans ?_
  rw [String.lt_iff_toList_lt, toList_element, toList_element]
  induction path.toList with
  | nil => simp
  | cons c cs ih => simpa [List.cons_lt_cons_iff] using ih

end Path
end DocBase
