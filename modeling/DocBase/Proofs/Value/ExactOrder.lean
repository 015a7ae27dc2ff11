import DocBase.Proofs.Number.Whole
import DocBase.Proofs.Value.Order

/-! Whole and floating-point numbers are in the order of what they are exactly, although the
comparison rounds the whole one. Beyond `2 ^ 53` what tells them apart is the whole part of the
floating-point number, and that is exact but for `2 ^ 63`, which is held at the greatest whole
number of 64 bits. -/
namespace DocBase

/-- Rational numbers and an infinity at each end. -/
abbrev ExtendedRat := WithBot (WithTop ℚ)

/-- A rational number between the infinities. -/
def ExtendedRat.ofRat (q : ℚ) : ExtendedRat := ((q : WithTop ℚ) : WithBot (WithTop ℚ))

theorem compare_map_of_strictMono {α β : Type} [LinearOrder α] [LinearOrder β] {f : α → β}
    (hf : StrictMono f) (a b : α) : compare (f a) (f b) = compare a b := by
  rw [← cmp_eq_compare, ← cmp_eq_compare, hf.cmp_map_eq]

theorem ExtendedRat.compare_ofRat (p q : ℚ) : compare (ofRat p) (ofRat q) = compare p q :=
  compare_map_of_strictMono (WithBot.coe_strictMono.comp WithTop.coe_strictMono) p q

namespace Binary64
variable {x : Binary64} {n : Int64}

/-- The number or the infinity that a pattern stands for that is no NaN. -/
def extended (x : Binary64) : ExtendedRat :=
  if x.isFinite then .ofRat x.exact else if x.negative then ⊥ else ⊤

/-! ## Finite numbers -/

theorem exact_eq_iff {i : Int} : x.exact = i ↔ x.units = i * one := by
  rw [exact, div_eq_iff one_pos_rat.ne']
  exact_mod_cast Iff.rfl

theorem compare_exact (i : Int) (x : Binary64) :
    compare (i : ℚ) x.exact = compare (i * one) x.units := by
  have hmono : StrictMono fun u : Int => (u : ℚ) / one := fun u v huv =>
    div_lt_div_of_pos_right (by exact_mod_cast huv) one_pos_rat
  have hi : (i : ℚ) = ((i * one : Int) : ℚ) / one := by
    push_cast
    rw [mul_div_cancel_right₀ _ one_pos_rat.ne']
  rw [hi]
  exact compare_map_of_strictMono hmono _ _

theorem compare_of_rank_lt (hx : x.isFinite) {i : Int} (h : (ofInt i).rank < x.rank) :
    compare (i : ℚ) x.exact = .lt := by
  rw [compare_exact, compare_lt_iff_lt]
  exact not_le.mp fun hle => not_le.mpr h (rank_le_rank_ofInt hx hle)

theorem compare_of_rank_gt (hx : x.isFinite) {i : Int} (h : x.rank < (ofInt i).rank) :
    compare (i : ℚ) x.exact = .gt := by
  rw [compare_exact, compare_gt_iff_gt]
  exact not_le.mp fun hle => not_le.mpr h (rank_ofInt_le_rank hx hle)

/-- The greatest whole number of 64 bits is rounded to `2 ^ 63`. -/
theorem rank_of_two_pow_63 (hx : x.isFinite) (h : x.exact = 2 ^ 63) :
    (ofInt Int64.maxValue.toInt).rank = x.rank := by
  have hunits : x.units = 2 ^ 63 * one := exact_eq_iff.mp (by exact_mod_cast h)
  have hrank : (ofInt Int64.maxValue.toInt).rank = (ofInt (2 ^ 63)).rank := by decide +kernel
  rw [hrank]
  exact Int.le_antisymm (rank_ofInt_le_rank hx hunits.ge) (rank_le_rank_ofInt hx hunits.le)

/-- What a whole number is rounded to is whole, and truncation gives it back unless it is
`2 ^ 63`. -/
theorem exists_exact_of_rank (hx : x.isFinite) (h : (ofInt n.toInt).rank = x.rank) :
    ∃ r : Int, x.exact = r ∧ r ≤ 2 ^ 63 ∧
      x.truncate.toInt = if r = 2 ^ 63 then Int64.maxValue.toInt else r := by
  obtain ⟨r, hr, hunits⟩ := exists_units_ofInt (natAbs_toInt_le n)
  rw [units_of_rank h] at hunits
  refine ⟨r, exact_eq_iff.mpr hunits, by omega, ?_⟩
  rw [toInt_truncate_of_units (by simpa using not_isNaN_of_isFinite hx) hunits]
  have hmin : Int64.minValue.toInt = -2 ^ 63 := rfl
  have hmax : Int64.maxValue.toInt = 2 ^ 63 - 1 := rfl
  rw [clamp]
  split <;> split <;> omega

/-! ## With infinities -/

theorem compare_extended_of_isFinite (hx : x.isFinite) (q : ℚ) :
    compare (.ofRat q) x.extended = compare q x.exact := by
  rw [extended, if_pos hx, ExtendedRat.compare_ofRat]

theorem extended_eq_ofRat_iff {q : ℚ} : x.extended = .ofRat q ↔ x.isFinite ∧ x.exact = q := by
  rw [extended]
  split
  next hx => simp [ExtendedRat.ofRat, hx]
  next hx => split <;> simp [ExtendedRat.ofRat, hx]

/-- Infinities are beyond all finite numbers. -/
theorem compare_rank_of_infinite (hnan : x.isNaN = false) (hfinite : ¬ x.isFinite) {y : Binary64}
    (hy : y.isFinite) (q : ℚ) : compare y.rank x.rank = compare (.ofRat q) x.extended := by
  have hx : x.magnitude = topMagnitude := by
    simp only [isNaN, isFinite, decide_eq_true_eq, decide_eq_false_iff_not] at hnan hfinite
    omega
  have hlt : y.rank.natAbs < topMagnitude := by
    rw [natAbs_rank]
    exact of_decide_eq_true hy
  have hrank : x.rank = if x.negative then -(topMagnitude : Int) else topMagnitude := by
    rw [rank, hx]
  rw [extended, if_neg hfinite, hrank]
  split
  · have hbot : ⊥ < ExtendedRat.ofRat q := WithBot.bot_lt_coe _
    rw [compare_gt_iff_gt.mpr (by omega : -(topMagnitude : Int) < y.rank),
      compare_gt_iff_gt.mpr hbot]
  · have htop : ExtendedRat.ofRat q < ⊤ := WithBot.coe_lt_coe.mpr (WithTop.coe_lt_top q)
    rw [compare_lt_iff_lt.mpr (by omega : y.rank < (topMagnitude : Int)),
      compare_lt_iff_lt.mpr htop]

end Binary64

/-! ## The comparison -/
open Binary64

variable {n : Int64} {x : Binary64}

/-- Where rounding makes one of two numbers, the whole part decides. -/
theorem compareIntFloat_of_rank (h : (ofInt n.toInt).rank = x.rank) :
    compareIntFloat n x = compare n.toInt x.truncate.toInt := by
  rw [compareIntFloat, Binary64.compare, h, compare_eq_iff_eq.mpr rfl, Ordering.eq_then]

theorem compareIntFloat_at_top (h : x.extended = .ofRat (2 ^ 63)) :
    compareIntFloat Int64.maxValue x = .eq := by
  obtain ⟨hx, hexact⟩ := extended_eq_ofRat_iff.mp h
  have hrank := rank_of_two_pow_63 hx hexact
  obtain ⟨r, hr, -, htruncate⟩ := exists_exact_of_rank hx hrank
  have htop : r = 2 ^ 63 := by
    rw [hr] at hexact
    exact_mod_cast hexact
  rw [compareIntFloat_of_rank hrank, htruncate, if_pos htop, compare_eq_iff_eq.mpr rfl]

theorem compareIntFloat_of_finite (hx : x.isFinite)
    (hbelow : ¬ (n = Int64.maxValue ∧ x.exact = 2 ^ 63)) :
    compareIntFloat n x = compare (n.toInt : ℚ) x.exact := by
  rcases lt_trichotomy (ofInt n.toInt).rank x.rank with hlt | heq | hgt
  · rw [compare_of_rank_lt hx hlt, compareIntFloat, Binary64.compare, compare_lt_iff_lt.mpr hlt]
    rfl
  · obtain ⟨r, hr, -, htruncate⟩ := exists_exact_of_rank hx heq
    have hexact : compare (n.toInt : ℚ) x.exact = compare n.toInt r := by
      rw [hr]
      exact compare_map_of_strictMono Int.cast_strictMono n.toInt r
    rw [compareIntFloat_of_rank heq, htruncate, hexact]
    split
    next htop =>
      -- the whole part is held one below the number, and so is still above all other integers
      have hne : n ≠ Int64.maxValue := fun hn => hbelow ⟨hn, by rw [hr, htop]; norm_num⟩
      have hlt : n.toInt < Int64.maxValue.toInt :=
        lt_of_le_of_ne n.toInt_le fun heq => hne (Int64.toInt_inj.mp heq)
      rw [compare_lt_iff_lt.mpr hlt, compare_lt_iff_lt.mpr (htop ▸ n.toInt_lt)]
    next => rfl
  · rw [compare_of_rank_gt hx hgt, compareIntFloat, Binary64.compare, compare_gt_iff_gt.mpr hgt]
    rfl

theorem compareIntFloat_of_infinite (hnan : x.isNaN = false) (hx : ¬ x.isFinite) :
    compareIntFloat n x = compare (.ofRat n.toInt) x.extended := by
  have hfinite : (ofInt n.toInt).isFinite :=
    isFinite_ofInt ((natAbs_toInt_le n).trans (by decide))
  have horder := compare_rank_of_infinite hnan hx hfinite n.toInt
  have hne : compare (ofInt n.toInt).rank x.rank ≠ .eq := by
    rw [horder, ne_eq, compare_eq_iff_eq]
    exact fun heq => hx (extended_eq_ofRat_iff.mp heq.symm).1
  rw [compareIntFloat, Binary64.compare, ← horder]
  cases hcompare : compare (ofInt n.toInt).rank x.rank with
  | eq => exact absurd hcompare hne
  | lt => rfl
  | gt => rfl

namespace Value

/-- A whole number and a floating-point number that is no NaN stand in the order of what they
are exactly, either way round. The one exception is the greatest whole number of 64 bits, which
is taken for equal to `2 ^ 63`. -/
theorem compare_int_float_iff (hnan : x.isNaN = false) :
    (Value.compare (int n) (float x) = compare (.ofRat n.toInt) x.extended ↔
      ¬ (n = Int64.maxValue ∧ x.extended = .ofRat (2 ^ 63))) ∧
    (n = Int64.maxValue ∧ x.extended = .ofRat (2 ^ 63) →
      Value.compare (int n) (float x) = .eq) ∧
    Value.compare (float x) (int n) = (Value.compare (int n) (float x)).swap := by
  have htop : n = Int64.maxValue ∧ x.extended = .ofRat (2 ^ 63) →
      Value.compare (int n) (float x) = .eq := by
    rintro ⟨rfl, hx⟩
    exact compareIntFloat_at_top hx
  refine ⟨⟨fun heq hboth => ?_, fun hbelow => ?_⟩, htop, rfl⟩
  · rw [htop hboth, hboth.1, hboth.2, eq_comm, compare_eq_iff_eq] at heq
    have hexact : ((Int64.maxValue.toInt : Int) : ℚ) = 2 ^ 63 :=
      WithTop.coe_injective (WithBot.coe_injective heq)
    have hmax : Int64.maxValue.toInt = 2 ^ 63 - 1 := rfl
    rw [hmax] at hexact
    norm_num at hexact
  · by_cases hx : x.isFinite
    · rw [extended_eq_ofRat_iff, and_iff_right hx] at hbelow
      rw [compare_extended_of_isFinite hx]
      exact compareIntFloat_of_finite hx hbelow
    · exact compareIntFloat_of_infinite hnan hx

/-- At the end of the 64-bit range: the greatest whole number meets `2 ^ 63`, and the next one
below does not. -/
theorem compare_int_float_at_two_pow_63 :
    let top : Binary64 := ⟨0x43E0000000000000⟩
    top.isNaN = false ∧ top.extended = .ofRat (2 ^ 63) ∧
      Value.compare (int 9223372036854775807) (float top) = .eq ∧
      compare (.ofRat 9223372036854775807) top.extended = .lt ∧
      Value.compare (int 9223372036854775806) (float top) =
        compare (.ofRat 9223372036854775806) top.extended := by
  intro top
  have hnan : top.isNaN = false := by decide
  have hunits : top.units = 2 ^ 63 * one := by decide +kernel
  have hexact : top.exact = 2 ^ 63 := by exact_mod_cast exact_eq_iff.mpr hunits
  have hx : top.extended = .ofRat (2 ^ 63) := extended_eq_ofRat_iff.mpr ⟨by decide, hexact⟩
  obtain ⟨-, hmeet, -⟩ := compare_int_float_iff (n := 9223372036854775807) hnan
  obtain ⟨hbelow, -, -⟩ := compare_int_float_iff (n := 9223372036854775806) hnan
  refine ⟨hnan, hx, hmeet ⟨rfl, hx⟩, ?_, hbelow.mpr fun hboth => absurd hboth.1 (by decide)⟩
  rw [hx, ExtendedRat.compare_ofRat, compare_lt_iff_lt]
  norm_num

end Value
end DocBase
