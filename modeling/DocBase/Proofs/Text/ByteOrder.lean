import Mathlib

/-! Texts are ordered by their code points, and this is the order of their UTF-8 bytes; and a text
begins with another exactly if its bytes do. -/
namespace DocBase

/-- The bytes of a text. -/
def utf8Bytes (s : String) : List UInt8 := s.toUTF8.data.toList

theorem utf8Bytes_eq (s : String) : utf8Bytes s = s.toList.flatMap String.utf8EncodeChar := by
  obtain ⟨cs, rfl⟩ : ∃ cs, s = String.ofList cs := ⟨s.toList, String.ofList_toList.symm⟩
  rw [utf8Bytes, String.toUTF8_eq_toByteArray, String.toByteArray_ofList, String.toList_ofList,
    List.utf8Encode, List.data_toByteArray]

/-- Characters are settled by their own bytes, whatever follows. -/
theorem utf8EncodeChar_append_lt {c d : Char} (h : c < d) (xs ys : List UInt8) :
    String.utf8EncodeChar c ++ xs < String.utf8EncodeChar d ++ ys := by
  have hlt : c.val.toNat < d.val.toNat := h
  have htop : d.val.toNat < 1114112 := by
    rcases d.valid with hvalid | hvalid
    · exact hvalid.trans (by decide)
    · exact hvalid.2
  rw [String.utf8EncodeChar.eq_1, String.utf8EncodeChar.eq_1]
  generalize c.val.toNat = m at hlt
  generalize d.val.toNat = n at hlt htop
  -- the places of the digits to the base 64, one after the other
  have hdigits : ∀ k : Nat, k / 4096 = k / 64 / 64 ∧ k / 262144 = k / 64 / 64 / 64 := by omega
  rw [(hdigits m).1, (hdigits m).2, (hdigits n).1, (hdigits n).2]
  split_ifs <;>
    simp only [List.cons_append, List.nil_append, List.cons_lt_cons_iff, UInt8.lt_iff_toNat_lt,
      ← UInt8.toNat_inj, UInt8.toNat_ofNat'] <;>
    omega

theorem flatMap_utf8EncodeChar_lt {cs ds : List Char} (h : cs < ds) :
    cs.flatMap String.utf8EncodeChar < ds.flatMap String.utf8EncodeChar := by
  induction cs generalizing ds with
  | nil =>
    cases ds with
    | nil => exact absurd h (lt_irrefl _)
    | cons d ds =>
      rw [List.flatMap_nil, List.flatMap_cons]
      cases hd : String.utf8EncodeChar d with
      | nil => exact absurd hd String.utf8EncodeChar_ne_nil
      | cons b bs => exact List.nil_lt_cons b _
  | cons c cs ih =>
    cases ds with
    | nil => exact absurd h (List.not_lt_nil _)
    | cons d ds =>
      rw [List.flatMap_cons, List.flatMap_cons]
      rcases List.cons_lt_cons_iff.mp h with hcd | ⟨rfl, htail⟩
      · exact utf8EncodeChar_append_lt hcd _ _
      · exact List.append_left_lt (ih htail)

/-- The order of texts is that of their bytes. -/
theorem compare_eq_lt_iff_utf8Bytes {a b : String} :
    compare a b = .lt ↔ utf8Bytes a < utf8Bytes b := by
  have hbytes : ∀ {s t : String}, s < t → utf8Bytes s < utf8Bytes t := by
    intro s t hst
    rw [utf8Bytes_eq, utf8Bytes_eq]
    exact flatMap_utf8EncodeChar_lt (String.lt_iff_toList_lt.mp hst)
  constructor
  · intro h
    exact hbytes (compareOfLessAndEq_eq_lt.mp h)
  · intro h
    refine compareOfLessAndEq_eq_lt.mpr ?_
    rcases lt_trichotomy a b with hlt | rfl | hgt
    · exact hlt
    · exact absurd h (List.lt_irrefl _)
    · exact absurd h (List.lt_asymm (hbytes hgt))

theorem compare_eq_gt_iff_utf8Bytes {a b : String} :
    compare a b = .gt ↔ utf8Bytes b < utf8Bytes a := by
  rw [Std.OrientedCmp.gt_iff_lt, compare_eq_lt_iff_utf8Bytes]

/-! ## Beginnings -/

/-- Where bytes of texts begin alike, the first characters are the same. -/
theorem eq_of_utf8EncodeChar_append {c d : Char} {xs ys : List UInt8}
    (h : String.utf8EncodeChar c ++ xs = String.utf8EncodeChar d ++ ys) : c = d := by
  rcases lt_trichotomy c d with hlt | heq | hgt
  · exact absurd (utf8EncodeChar_append_lt hlt xs ys) (h ▸ List.lt_irrefl _)
  · exact heq
  · exact absurd (utf8EncodeChar_append_lt hgt ys xs) (h ▸ List.lt_irrefl _)

theorem prefix_of_flatMap_utf8EncodeChar {cs ds : List Char}
    (h : cs.flatMap String.utf8EncodeChar <+: ds.flatMap String.utf8EncodeChar) : cs <+: ds := by
  induction cs generalizing ds with
  | nil => exact List.nil_prefix
  | cons c cs ih =>
    obtain ⟨rest, hrest⟩ := h
    rw [List.flatMap_cons, List.append_assoc] at hrest
    cases ds with
    | nil => exact absurd (List.append_eq_nil_iff.mp hrest).1 String.utf8EncodeChar_ne_nil
    | cons d ds =>
      rw [List.flatMap_cons] at hrest
      obtain rfl := eq_of_utf8EncodeChar_append hrest
      exact List.cons_prefix_cons.mpr ⟨rfl, ih ⟨rest, List.append_cancel_left hrest⟩⟩

theorem utf8Bytes_prefix_iff {s t : String} :
    utf8Bytes s <+: utf8Bytes t ↔ s.toList <+: t.toList := by
  rw [utf8Bytes_eq, utf8Bytes_eq]
  refine ⟨prefix_of_flatMap_utf8EncodeChar, fun ⟨rest, hrest⟩ => ?_⟩
  rw [← hrest, List.flatMap_append]
  exact List.prefix_append _ _

end DocBase
