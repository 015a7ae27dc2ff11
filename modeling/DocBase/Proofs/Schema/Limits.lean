import DocBase.Proofs.Number.Exact
import DocBase.Proofs.Schema.Conforms
import DocBase.Proofs.Value.Order

/-! The limits of a field, next to the order of values. A check rounds a whole number before it
compares, and the order compares the number itself. So a check never refuses what lies within the
limits, and accepts beyond them just the whole numbers that are rounded to a limit. There are none
up to `2 ^ 53`, and none is beyond the limit by more than one part in `2 ^ 53` of itself. -/
namespace DocBase

namespace Binary64

theorem below_iff {x y : Binary64} (hx : x.isFinite) (hy : y.isFinite) :
    x.below y ↔ x.rank < y.rank := by
  simp [below, not_isNaN_of_isFinite hx, not_isNaN_of_isFinite hy]

end Binary64

/-! ## Numbers in order -/
namespace Value

/-- A whole number that rounding takes to `m`. -/
def IsRoundedTo (v : Value) (m : Binary64) : Prop :=
  ∃ n, v = int n ∧ (Binary64.ofInt n.toInt).rank = m.rank

section
variable {v : Value} {x m : Binary64} {n : Int64}

theorem rank_of_isRoundedTo (hv : v.toBinary64? = some x) (h : v.IsRoundedTo m) :
    x.rank = m.rank := by
  obtain ⟨n, rfl, hrank⟩ := h
  cases hv
  exact hrank

/-- Numbers are in the order that they are in when rounded, unless rounding makes them one. -/
theorem compare_of_not_isRoundedTo (hv : v.toBinary64? = some x) (h : ¬ v.IsRoundedTo m) :
    compare v (float m) = compare x.rank m.rank := by
  cases v with
  | int n =>
    cases hv
    show (compare (Binary64.ofInt n.toInt).rank m.rank).then _ = _
    cases horder : compare (Binary64.ofInt n.toInt).rank m.rank with
    | eq => exact absurd ⟨n, rfl, compare_eq_iff_eq.mp horder⟩ h
    | lt => rfl
    | gt => rfl
  | float y =>
    cases hv
    rfl
  | _ => cases hv

theorem rank_le_iff (hv : v.toBinary64? = some x) :
    x.rank ≤ m.rank ↔ (compare v (float m)).isLE ∨ v.IsRoundedTo m := by
  by_cases h : v.IsRoundedTo m
  · simp [h, rank_of_isRoundedTo hv h]
  · rw [compare_of_not_isRoundedTo hv h, Std.isLE_compare]
    simp [h]

theorem le_rank_iff (hv : v.toBinary64? = some x) :
    m.rank ≤ x.rank ↔ (compare (float m) v).isLE ∨ v.IsRoundedTo m := by
  by_cases h : v.IsRoundedTo m
  · simp [h, rank_of_isRoundedTo hv h]
  · rw [Std.OrientedOrd.eq_swap (a := float m), compare_of_not_isRoundedTo hv h,
      ← Std.OrientedOrd.eq_swap, Std.isLE_compare]
    simp [h]

/-- A whole number that rounding leaves as it is equals what it is rounded to. -/
theorem compare_of_isRoundedTo (h : (int n).IsRoundedTo m) (hn : n.toInt.natAbs ≤ 2 ^ 53) :
    compare (int n) (float m) = .eq := by
  obtain ⟨n, hv, hrank⟩ := h
  cases hv
  have htruncate : m.truncate = n := by
    rw [← Binary64.truncate_of_rank hrank, Binary64.truncate_ofInt hn]
  have horder : compare (int n) (float m) = comparePlaces
      ((Binary64.ofInt n.toInt).rank, n.toInt) (m.rank, m.truncate.toInt) :=
    compare_numbers rfl rfl
  rw [horder, comparePlaces, hrank, htruncate, compare_eq_iff_eq.mpr rfl,
    compare_eq_iff_eq.mpr rfl]
  rfl

end

end Value

/-! ## Limits -/

/-- Between the limits in the order of values. -/
structure FieldRules.Within (r : FieldRules) (v : Value) : Prop where
  least : ∀ m, r.min = some m → (compare (Value.float m) v).isLE
  greatest : ∀ m, r.max = some m → (compare v (Value.float m)).isLE

namespace FieldSchema
variable {f : FieldSchema} {v : Value} {x : Binary64}

theorem validate_eq_ok_iff : f.validate v = .ok () ↔ f.Conforms v := by
  rw [← f.check_eq_nil_iff "" v]
  unfold validate
  cases f.check "" v <;> simp

/-- Only the type, the choice of values and the limits speak of a number. -/
theorem conforms_number_iff (hv : v.toBinary64? = some x) : f.Conforms v ↔
    (f.rules.types = [] ∨ ∃ t ∈ f.rules.types, t.Accepts v) ∧
      (∀ vs, f.rules.enumValues = some vs → ∃ w ∈ vs, v.same w) ∧
      (∀ m, f.rules.min = some m → ¬ x.isNaN ∧ ¬ x.below m) ∧
      ∀ m, f.rules.max = some m → ¬ x.isNaN ∧ ¬ m.below x := by
  obtain ⟨rules, items, properties⟩ := f
  have hnull : v ≠ .null := by rintro rfl; cases hv
  have hlength : v.length? = none := by
    cases v with
    | int n => rfl
    | float y => rfl
    | _ => cases hv
  have hstring : ∀ s, v ≠ .string s := by rintro s rfl; cases hv
  have harray : ∀ xs, v ≠ .array xs := by rintro xs rfl; cases hv
  have hobject : ∀ fs, v ≠ .object fs := by rintro fs rfl; cases hv
  rw [conforms_mk_iff]
  constructor
  · rintro (⟨h, -⟩ | ⟨h, -⟩)
    · exact absurd h hnull
    · exact ⟨h.type, h.value, fun m => h.least x m hv, fun m => h.greatest x m hv⟩
  · rintro ⟨htype, hvalue, hleast, hgreatest⟩
    have hallows : rules.Allows v := by
      constructor
      · exact htype
      · exact hvalue
      · intro y m hy
        cases hv.symm.trans hy
        exact hleast m
      · intro y m hy
        cases hv.symm.trans hy
        exact hgreatest m
      · simp [hlength]
      · simp [hlength]
      · intro s p hs
        exact absurd hs (hstring s)
    exact Or.inr ⟨hallows, fun xs _ h => absurd h (harray xs), fun fs _ h => absurd h (hobject fs)⟩

/-- A check accepts a number just where the number, rounded, is between the limits. -/
theorem validate_number_iff (hv : v.toBinary64? = some x) (hx : x.isFinite)
    (htype : f.rules.types = [] ∨ ∃ t ∈ f.rules.types, t.Accepts v)
    (henum : f.rules.enumValues = none) (hmin : ∀ m, f.rules.min = some m → m.isFinite)
    (hmax : ∀ m, f.rules.max = some m → m.isFinite) : f.validate v = .ok () ↔
      (∀ m, f.rules.min = some m → m.rank ≤ x.rank) ∧
        ∀ m, f.rules.max = some m → x.rank ≤ m.rank := by
  have hnan := Binary64.not_isNaN_of_isFinite hx
  have hleast : ∀ m, f.rules.min = some m → (¬ x.isNaN ∧ ¬ x.below m ↔ m.rank ≤ x.rank) := by
    intro m hm
    rw [Binary64.below_iff hx (hmin m hm), not_lt]
    exact and_iff_right hnan
  have hgreatest : ∀ m, f.rules.max = some m → (¬ x.isNaN ∧ ¬ m.below x ↔ x.rank ≤ m.rank) := by
    intro m hm
    rw [Binary64.below_iff (hmax m hm) hx, not_lt]
    exact and_iff_right hnan
  have hvalue : ∀ vs, f.rules.enumValues = some vs → ∃ w ∈ vs, v.same w := by
    rw [henum]
    nofun
  rw [validate_eq_ok_iff, conforms_number_iff hv, and_iff_right htype, and_iff_right hvalue]
  exact and_congr (forall₂_congr hleast) (forall₂_congr hgreatest)

/-- A check accepts a number just where each limit is kept in the order of values or is what the
number, a whole one, is rounded to. Up to `2 ^ 53` this is to be within the limits; beyond, the
number may be past a limit by one part in `2 ^ 53` of itself. -/
theorem validate_up_to_rounding
    (hv : (∃ n, v = .int n) ∨ ∃ x, v = .float x ∧ x.isFinite)
    (htype : f.rules.types = [] ∨ ∃ t ∈ f.rules.types, t.Accepts v)
    (henum : f.rules.enumValues = none) (hmin : ∀ m, f.rules.min = some m → m.isFinite)
    (hmax : ∀ m, f.rules.max = some m → m.isFinite) :
    (f.validate v = .ok () ↔
        (∀ m, f.rules.min = some m → (compare (Value.float m) v).isLE ∨ v.IsRoundedTo m) ∧
          ∀ m, f.rules.max = some m → (compare v (Value.float m)).isLE ∨ v.IsRoundedTo m) ∧
      ((∀ n, v = .int n → n.toInt.natAbs ≤ 2 ^ 53) →
        (f.validate v = .ok () ↔ f.rules.Within v)) ∧
      ∀ n, v = .int n → f.validate v = .ok () →
        (∀ m, f.rules.min = some m → m.exact - n.toInt ≤ |(n.toInt : ℚ)| / 2 ^ 53) ∧
          ∀ m, f.rules.max = some m → n.toInt - m.exact ≤ |(n.toInt : ℚ)| / 2 ^ 53 := by
  obtain ⟨x, hx, hfinite⟩ : ∃ x, v.toBinary64? = some x ∧ x.isFinite := by
    rcases hv with ⟨n, rfl⟩ | ⟨x, rfl, hfinite⟩
    · exact ⟨_, rfl, Binary64.isFinite_ofInt ((natAbs_toInt_le n).trans (by decide))⟩
    · exact ⟨x, rfl, hfinite⟩
  have hranks := validate_number_iff hx hfinite htype henum hmin hmax
  have hrounded : f.validate v = .ok () ↔
      (∀ m, f.rules.min = some m → (compare (Value.float m) v).isLE ∨ v.IsRoundedTo m) ∧
        ∀ m, f.rules.max = some m → (compare v (Value.float m)).isLE ∨ v.IsRoundedTo m := by
    simp only [hranks, Value.le_rank_iff hx, Value.rank_le_iff hx]
  refine ⟨hrounded, fun hsmall => ?_, ?_⟩
  · have heq : ∀ m, v.IsRoundedTo m → compare v (Value.float m) = .eq := by
      rintro m ⟨n, rfl, hrank⟩
      exact Value.compare_of_isRoundedTo ⟨n, rfl, hrank⟩ (hsmall n rfl)
    rw [hrounded]
    constructor
    · rintro ⟨hleast, hgreatest⟩
      refine ⟨fun m hm => (hleast m hm).elim id fun h => ?_,
        fun m hm => (hgreatest m hm).elim id fun h => ?_⟩
      · rw [Std.OrientedOrd.eq_swap (a := Value.float m), heq m h]
        rfl
      · rw [heq m h]
        rfl
    · intro h
      exact ⟨fun m hm => Or.inl (h.least m hm), fun m hm => Or.inl (h.greatest m hm)⟩
  · rintro n rfl hok
    cases hx
    have herror := abs_le.mp (Binary64.abs_exact_ofInt_sub_le (natAbs_toInt_le n))
    obtain ⟨hleast, hgreatest⟩ := hranks.mp hok
    refine ⟨fun m hm => ?_, fun m hm => ?_⟩
    · have hexact := Binary64.exact_le_of_rank_le (hmin m hm) hfinite (hleast m hm)
      linarith
    · have hexact := Binary64.exact_le_of_rank_le hfinite (hmax m hm) (hgreatest m hm)
      linarith

/-- A limit of `2 ^ 53` lets the next whole number pass. -/
theorem validate_beyond_limit :
    let f := (ofType .int).max ⟨0x4340000000000000⟩
    let v := Value.int 9007199254740993
    f.validate v = .ok () ∧ compare v (.float ⟨0x4340000000000000⟩) = .gt := by
  intro f v
  have h := validate_up_to_rounding (f := f) (v := v) (Or.inl ⟨_, rfl⟩)
    (Or.inr ⟨.int, List.mem_singleton.mpr rfl, Or.inr (Or.inl rfl)⟩) rfl nofun
    (by rintro m ⟨⟩; decide)
  refine ⟨h.1.mpr ⟨nofun, ?_⟩, by decide +kernel⟩
  rintro m ⟨⟩
  exact Or.inr ⟨9007199254740993, rfl, by decide +kernel⟩

end FieldSchema
end DocBase
