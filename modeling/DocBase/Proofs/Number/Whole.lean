import DocBase.Proofs.Number.Exact

/-! Whole numbers of 64 bits next to floating-point numbers. Rounding does not pass a
floating-point number by, what comes of it is whole, and the whole part of that is kept. -/
namespace DocBase
namespace Binary64

variable {x : Binary64} {i : Int}

/-! ## Magnitudes -/

theorem le_magnitudeOfRatio {m k : Nat} (hm : m ≤ topMagnitude) (h : unitsOf m ≤ k * one) :
    m ≤ magnitudeOfRatio k 1 := by
  rw [← magnitudeOfRatio_unitsOf hm]
  refine magnitudeOfRatio_le one_pos Nat.one_pos ?_
  rw [Nat.cast_one, div_one, div_le_iff₀ one_pos_rat]
  exact_mod_cast h

theorem magnitudeOfRatio_le_of_le {m k : Nat} (hm : m ≤ topMagnitude) (h : k * one ≤ unitsOf m) :
    magnitudeOfRatio k 1 ≤ m := by
  rw [← magnitudeOfRatio_unitsOf hm]
  refine magnitudeOfRatio_le Nat.one_pos one_pos ?_
  rw [Nat.cast_one, div_one, le_div_iff₀ one_pos_rat]
  exact_mod_cast h

theorem unitsOf_two_pow_63 : unitsOf (magnitudeOfRatio (2 ^ 63) 1) = 2 ^ 63 * one := by
  decide +kernel

/-- What a whole number is rounded to is whole. -/
theorem exists_unitsOf_natCast {k : Nat} (hk : k ≤ 2 ^ 63) :
    ∃ r ≤ 2 ^ 63, unitsOf (magnitudeOfRatio k 1) = r * one := by
  have hwhole : ∃ r : Nat, unitsOf (magnitudeOfRatio k 1) = r * one := by
    rcases Nat.lt_or_ge (2 ^ 53) k with hlt | hle
    · obtain ⟨e, q, hscaled, -, hmagnitude⟩ := exists_scaled_natCast (by omega) hk
      -- the steps are longer than one there
      have he : 0 ≤ e := by
        have hbelow : (2 : ℚ) ^ (53 : ℤ) < 2 ^ (e + 53) := by
          refine lt_trans ?_ hscaled.below
          exact_mod_cast hlt
        have := (zpow_lt_zpow_iff_right₀ (one_lt_two : (1 : ℚ) < 2)).mp hbelow
        omega
      obtain ⟨j, rfl⟩ := Int.eq_ofNat_of_zero_le he
      refine ⟨q * 2 ^ j, ?_⟩
      have hunits := hscaled.unitsOf_place
      rw [← hmagnitude, div_eq_iff one_pos_rat.ne', zpow_natCast] at hunits
      exact_mod_cast hunits
    · exact ⟨k, unitsOf_natCast hle⟩
  obtain ⟨r, hr⟩ := hwhole
  refine ⟨r, ?_, hr⟩
  have hle : unitsOf (magnitudeOfRatio k 1) ≤ unitsOf (magnitudeOfRatio (2 ^ 63) 1) := by
    refine unitsOf_le (magnitudeOfRatio_le Nat.one_pos Nat.one_pos ?_)
      (magnitudeOfRatio_le_top _ _)
    have hcast : (k : ℚ) ≤ ((2 ^ 63 : Nat) : ℚ) := by exact_mod_cast hk
    simpa using hcast
  rw [hr, unitsOf_two_pow_63] at hle
  exact Nat.le_of_mul_le_mul_right hle one_pos

/-! ## Both signs -/

theorem magnitude_lt (x : Binary64) : x.magnitude < 2 ^ 63 := Nat.mod_lt _ (Nat.two_pow_pos 63)

theorem rank_neg (x : Binary64) : x.neg.rank = -x.rank := by
  rw [neg, rank, rank, negative_ofMagnitude _ x.magnitude_lt,
    magnitude_ofMagnitude _ x.magnitude_lt]
  cases x.negative <;> simp

theorem units_neg (x : Binary64) : x.neg.units = -x.units := by
  rw [neg, units, units, negative_ofMagnitude _ x.magnitude_lt,
    magnitude_ofMagnitude _ x.magnitude_lt]
  cases x.negative <;> simp

theorem isFinite_neg (x : Binary64) : x.neg.isFinite = x.isFinite := by
  rw [neg, isFinite, isFinite, magnitude_ofMagnitude _ x.magnitude_lt]

theorem rank_ofInt_neg (i : Int) : (ofInt (-i)).rank = -(ofInt i).rank := by
  rw [rank_ofInt, rank_ofInt, Int.natAbs_neg]
  rcases lt_trichotomy i 0 with hneg | rfl | hpos
  · rw [if_neg (by omega), if_pos hneg, neg_neg]
  · rfl
  · rw [if_pos (by omega), if_neg (by omega)]

theorem natCast_natAbs_mul_one (i : Int) :
    ((i.natAbs * one : Nat) : Int) = if i < 0 then -(i * one) else i * one := by
  push_cast
  split
  next hneg => rw [abs_of_neg hneg, Int.neg_mul]
  next hnonneg => rw [abs_of_nonneg (not_lt.mp hnonneg)]

/-- A floating-point number up to a whole one stays up to it when that is rounded. -/
theorem rank_le_rank_ofInt (hx : x.isFinite) (h : x.units ≤ i * one) :
    x.rank ≤ (ofInt i).rank := by
  have htop : x.magnitude ≤ topMagnitude := (of_decide_eq_true hx : x.magnitude < _).le
  have hcast := natCast_natAbs_mul_one i
  rw [units] at h
  rw [rank_ofInt, rank]
  rcases lt_or_ge i 0 with hneg | hnonneg
  · rw [if_pos hneg] at hcast ⊢
    have hlt : i * one < 0 := Int.mul_neg_of_neg_of_pos hneg (by exact_mod_cast one_pos)
    split
    next hnegative =>
      rw [if_pos hnegative] at h
      have hle := magnitudeOfRatio_le_of_le htop (by omega : i.natAbs * one ≤ unitsOf x.magnitude)
      omega
    next hnegative =>
      rw [if_neg hnegative] at h
      omega
  · rw [if_neg (not_lt.mpr hnonneg)] at hcast ⊢
    split
    next => omega
    next hnegative =>
      rw [if_neg hnegative] at h
      have hle := le_magnitudeOfRatio htop (by omega : unitsOf x.magnitude ≤ i.natAbs * one)
      exact_mod_cast hle

theorem rank_ofInt_le_rank (hx : x.isFinite) (h : i * one ≤ x.units) :
    (ofInt i).rank ≤ x.rank := by
  have hneg : x.neg.rank ≤ (ofInt (-i)).rank := by
    refine rank_le_rank_ofInt (x.isFinite_neg ▸ hx) ?_
    rw [units_neg, Int.neg_mul]
    omega
  rw [rank_neg, rank_ofInt_neg] at hneg
  omega

/-! ## Whole parts -/

theorem units_of_rank {y : Binary64} (h : x.rank = y.rank) : x.units = y.units := by
  rcases eq_or_zeros_of_rank h with rfl | ⟨hx, hy⟩
  · rfl
  · rw [units, units, magnitude_of_rank_zero hx, magnitude_of_rank_zero hy, unitsOf_zero]
    simp

theorem exists_units_ofInt {i : Int} (hi : i.natAbs ≤ 2 ^ 63) :
    ∃ r : Int, r.natAbs ≤ 2 ^ 63 ∧ (ofInt i).units = r * one := by
  obtain ⟨r, hr, hunits⟩ := exists_unitsOf_natCast hi
  have hlt := magnitudeOfRatio_lt i.natAbs 1
  rw [units, ofInt, ofRatio, negative_ofMagnitude _ hlt, magnitude_ofMagnitude _ hlt, hunits]
  split
  · exact ⟨-r, by omega, by push_cast; ring⟩
  · exact ⟨r, by omega, by push_cast; rfl⟩

theorem magnitude_of_units {r : Int} (h : x.units = r * one) :
    unitsOf x.magnitude = r.natAbs * one ∧
      r = if x.negative then -(r.natAbs : Int) else r.natAbs := by
  have hone : (0 : Int) < one := by exact_mod_cast one_pos
  have hsign : if x.negative then r ≤ 0 else 0 ≤ r := by
    rw [units] at h
    split
    next hnegative =>
      rw [if_pos hnegative] at h
      exact nonpos_of_mul_nonpos_left (by omega) hone
    next hnegative =>
      rw [if_neg hnegative] at h
      exact nonneg_of_mul_nonneg_left (by omega) hone
  have hcast := natCast_natAbs_mul_one r
  rw [units] at h
  split at hsign
  next hnegative =>
    rw [if_pos hnegative] at h ⊢
    refine ⟨?_, by omega⟩
    split at hcast
    · omega
    · have hzero : r = 0 := by omega
      rw [hzero, Int.zero_mul] at h
      rw [hzero, Int.natAbs_zero, Nat.zero_mul]
      omega
  next hnegative =>
    rw [if_neg hnegative] at h ⊢
    rw [if_neg (by omega)] at hcast
    omega

theorem le_clamp {lo hi n : Int} (h : lo ≤ hi) : lo ≤ clamp lo hi n ∧ clamp lo hi n ≤ hi := by
  rw [clamp]
  split
  · omega
  · split <;> omega

/-- A whole number is its own whole part, held within 64 bits. -/
theorem toInt_truncate_of_units {r : Int} (hx : x.isNaN = false) (h : x.units = r * one) :
    x.truncate.toInt = clamp Int64.minValue.toInt Int64.maxValue.toInt r := by
  obtain ⟨hmagnitude, hr⟩ := magnitude_of_units h
  have hwhole : ((unitsOf x.magnitude : Nat) : Int) / one = r.natAbs := by
    rw [hmagnitude, Nat.cast_mul]
    exact Int.mul_ediv_cancel _ (by exact_mod_cast one_pos.ne')
  have hrange : Int64.minValue.toInt ≤ Int64.maxValue.toInt := by decide
  obtain ⟨hlow, hhigh⟩ := le_clamp (n := r) hrange
  rw [truncate, hx, hwhole]
  simp only [Bool.false_eq_true, if_false]
  rw [← hr]
  exact Int64.toInt_ofInt_of_le hlow (Int.lt_of_le_sub_one hhigh)

theorem isIntegral_of_units {r : Int} (hx : x.isFinite) (h : x.units = r * one) :
    x.isIntegral := by
  rw [isIntegral, hx, (magnitude_of_units h).1, Nat.mul_mod_left]
  rfl

end Binary64
end DocBase
