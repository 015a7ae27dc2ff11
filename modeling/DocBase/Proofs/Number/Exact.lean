import DocBase.Proofs.Number.Rounding

/-! What floating-point numbers are exactly, and how near a whole number stays to itself when it is
rounded: up to `2 ^ 53` nothing is lost, and beyond at most one part in `2 ^ 53`. -/
namespace DocBase

theorem RoundsTo.eq_of_natCast {q r : Nat} (h : RoundsTo r q) : q = r :=
  Nat.le_antisymm (h.le (roundsTo_natCast r) le_rfl) ((roundsTo_natCast r).le h le_rfl)

theorem natAbs_toInt_le (n : Int64) : n.toInt.natAbs ≤ 2 ^ 63 := by
  have hlow := n.le_toInt
  have hhigh := n.toInt_lt
  omega

namespace Binary64

theorem not_isNaN_of_isFinite {x : Binary64} (h : x.isFinite) : ¬ x.isNaN := by
  simp only [isFinite, isNaN, decide_eq_true_eq] at h ⊢
  omega

/-! ## Places -/

theorem natAbs_rank (x : Binary64) : x.rank.natAbs = x.magnitude := by
  rw [rank]
  split <;> omega

theorem magnitude_of_rank {x y : Binary64} (h : x.rank = y.rank) : x.magnitude = y.magnitude := by
  rw [← natAbs_rank, ← natAbs_rank, h]

theorem magnitude_of_rank_zero {x : Binary64} (h : x.rank = 0) : x.magnitude = 0 := by
  rw [← natAbs_rank, h, Int.natAbs_zero]

/-- A number is known by its place, up to the sign of a zero. -/
theorem eq_or_zeros_of_rank {x y : Binary64} (h : x.rank = y.rank) :
    x = y ∨ x.rank = 0 ∧ y.rank = 0 := by
  by_cases hzero : x.rank = 0
  · exact Or.inr ⟨hzero, h ▸ hzero⟩
  · have hmagnitude := magnitude_of_rank h
    have hnegative : x.negative = y.negative := by
      rw [rank] at hzero
      rw [rank, rank] at h
      cases hx : x.negative <;> cases hy : y.negative <;> simp [hx, hy] at h hzero ⊢ <;> omega
    rw [← x.ofMagnitude_magnitude, ← y.ofMagnitude_magnitude, hmagnitude, hnegative]
    exact Or.inl rfl

/-- The number that a finite pattern stands for. -/
def exact (x : Binary64) : ℚ := x.units / one

/-! ## Magnitudes -/

theorem unitsOf_zero : unitsOf 0 = 0 := rfl

theorem magnitudeOfRatio_zero (d : Nat) : magnitudeOfRatio 0 d = 0 := by
  rw [magnitudeOfRatio, if_pos (Or.inl rfl)]

theorem unitsOf_le {m m' : Nat} (h : m ≤ m') (htop : m' ≤ topMagnitude) :
    unitsOf m ≤ unitsOf m' := by
  by_contra hlt
  have hle : magnitudeOfRatio (unitsOf m') one ≤ magnitudeOfRatio (unitsOf m) one := by
    refine magnitudeOfRatio_le one_pos one_pos ?_
    have hle : (unitsOf m' : ℚ) ≤ unitsOf m := by exact_mod_cast Nat.le_of_not_le hlt
    exact div_le_div_of_nonneg_right hle one_pos_rat.le
  rw [magnitudeOfRatio_unitsOf htop, magnitudeOfRatio_unitsOf (h.trans htop)] at hle
  rw [Nat.le_antisymm h hle] at hlt
  exact hlt le_rfl

/-- The number at the place of `q` steps of `2 ^ e`. -/
theorem Scaled.unitsOf_place {x : ℚ} {e : ℤ} {q : Nat} (h : Scaled x e q) :
    (unitsOf (place e q) : ℚ) / one = q * 2 ^ e := by
  have he := h.least
  have hq := h.count_le
  have habove := h.le_count
  obtain ⟨t, ht⟩ := Int.eq_ofNat_of_zero_le (by omega : 0 ≤ e + 1074)
  have he' : e = (t : ℤ) - 1074 := by omega
  have hplace : place e q = t * 2 ^ 52 + q := by rw [place, ht, Int.toNat_natCast]
  have hunits : unitsOf (place e q) = q * 2 ^ t := by
    rw [hplace, unitsOf]
    rcases Nat.lt_or_ge q (2 ^ 52) with hlt | hge
    · have hzero : t = 0 := by omega
      rw [hzero, Nat.zero_mul, Nat.zero_add, if_pos hlt, Nat.pow_zero, Nat.mul_one]
    rw [if_neg (by omega)]
    rcases Nat.eq_or_lt_of_le hq with rfl | hlt
    · -- the steps fill up the range of one exponent, so the place is the first of the next
      have hdiv : (t * 2 ^ 52 + 2 ^ 53) / 2 ^ 52 - 1 = t + 1 := by omega
      have hmod : (t * 2 ^ 52 + 2 ^ 53) % 2 ^ 52 = 0 := by omega
      rw [hdiv, hmod, Nat.pow_succ]
      omega
    · have hdiv : (t * 2 ^ 52 + q) / 2 ^ 52 - 1 = t := by omega
      have hmod : (t * 2 ^ 52 + q) % 2 ^ 52 + 2 ^ 52 = q := by omega
      rw [hdiv, hmod]
  rw [he', two_zpow_eq, ← he', hunits]
  push_cast
  ring

/-! ## Whole numbers -/

/-- How a whole number of 64 bits is scaled, and that it does not overflow. -/
theorem exists_scaled_natCast {k : Nat} (hpos : 0 < k) (hk : k ≤ 2 ^ 63) :
    ∃ e q, Scaled k e q ∧ (2 : ℚ) ^ (e + 52) ≤ k ∧ magnitudeOfRatio k 1 = place e q := by
  obtain ⟨e, q, hscaled, hmagnitude⟩ := exists_scaled hpos Nat.one_pos
  rw [Nat.cast_one, div_one] at hscaled
  have hone : (1 : ℚ) ≤ k := by exact_mod_cast hpos
  have hlow : (2 : ℚ) ^ (e + 52) ≤ k := by
    refine hscaled.above.resolve_left ?_
    rintro rfl
    have hsmall : (2 : ℚ) ^ (-1074 + 53 : ℤ) ≤ 2 ^ (0 : ℤ) :=
      zpow_le_zpow_right₀ one_le_two (by omega)
    rw [zpow_zero] at hsmall
    exact absurd hscaled.below (not_lt.mpr (hsmall.trans hone))
  have he : e ≤ 11 := by
    have hhigh : (2 : ℚ) ^ (e + 52) ≤ 2 ^ (63 : ℤ) := by
      refine hlow.trans ?_
      exact_mod_cast hk
    have := (zpow_le_zpow_iff_right₀ (one_lt_two : (1 : ℚ) < 2)).mp hhigh
    omega
  have hplace : place e q ≤ topMagnitude := by
    have hcount := hscaled.count_le
    rw [place, topMagnitude]
    omega
  exact ⟨e, q, hscaled, hlow, by rw [hmagnitude, Nat.min_eq_right hplace]⟩

/-- Rounding moves a whole number by one part in `2 ^ 53` at most. -/
theorem abs_unitsOf_sub_le {k : Nat} (hk : k ≤ 2 ^ 63) :
    |(unitsOf (magnitudeOfRatio k 1) : ℚ) / one - k| ≤ k / 2 ^ 53 := by
  rcases Nat.eq_zero_or_pos k with rfl | hpos
  · rw [magnitudeOfRatio_zero, unitsOf_zero, Nat.cast_zero, zero_div, sub_zero, abs_zero, zero_div]
  obtain ⟨e, q, hscaled, hlow, hmagnitude⟩ := exists_scaled_natCast hpos hk
  have hstep : (0 : ℚ) < 2 ^ e := by positivity
  have hhigh := hscaled.rounds.high
  have hbelow := hscaled.rounds.low
  rw [div_le_iff₀ hstep] at hhigh
  rw [le_div_iff₀ hstep] at hbelow
  -- the step is the last power of two over 2 ^ 52, and rounding moves by half a step
  have hhalf : (2 : ℚ) ^ e / 2 ≤ k / 2 ^ 53 := by
    rw [zpow_add₀ two_ne_zero] at hlow
    rw [le_div_iff₀ (by positivity)]
    calc (2 : ℚ) ^ e / 2 * 2 ^ 53 = 2 ^ e * 2 ^ (52 : ℤ) := by norm_cast; ring
      _ ≤ k := hlow
  rw [hmagnitude, hscaled.unitsOf_place, abs_le]
  constructor <;> linarith

/-- Up to `2 ^ 53` whole numbers are not changed. -/
theorem unitsOf_natCast {k : Nat} (hk : k ≤ 2 ^ 53) :
    unitsOf (magnitudeOfRatio k 1) = k * one := by
  rcases Nat.eq_zero_or_pos k with rfl | hpos
  · rw [magnitudeOfRatio_zero, unitsOf_zero, Nat.zero_mul]
  obtain ⟨e, q, hscaled, hlow, hmagnitude⟩ := exists_scaled_natCast hpos (hk.trans (by omega))
  have hstep : (0 : ℚ) < 2 ^ e := by positivity
  have hwhole : ∃ r : Nat, (k : ℚ) / 2 ^ e = r := by
    rcases le_or_gt e 0 with he | he
    · obtain ⟨j, hj⟩ := Int.eq_ofNat_of_zero_le (by omega : 0 ≤ -e)
      refine ⟨k * 2 ^ j, ?_⟩
      rw [show e = -(j : ℤ) by omega, zpow_neg, zpow_natCast, div_inv_eq_mul]
      push_cast
      rfl
    · -- steps longer than one begin at 2 ^ 53
      have hle : (2 : ℚ) ^ (53 : ℤ) ≤ 2 ^ (e + 52) :=
        zpow_le_zpow_right₀ one_le_two (by omega)
      have hge : 2 ^ 53 ≤ k := by exact_mod_cast hle.trans hlow
      have heq : k = 2 ^ 53 := Nat.le_antisymm hk hge
      have he' : e = 1 := by
        have hupper : (2 : ℚ) ^ (e + 52) ≤ 2 ^ (53 : ℤ) := by
          refine hlow.trans ?_
          rw [heq]
          norm_num
        have := (zpow_le_zpow_iff_right₀ (one_lt_two : (1 : ℚ) < 2)).mp hupper
        omega
      refine ⟨2 ^ 52, ?_⟩
      rw [heq, he']
      norm_num
  obtain ⟨r, hr⟩ := hwhole
  have hq : q = r := by
    have hrounds := hscaled.rounds
    rw [hr] at hrounds
    exact hrounds.eq_of_natCast
  have hexact : (unitsOf (magnitudeOfRatio k 1) : ℚ) = k * one := by
    rw [← div_eq_iff one_pos_rat.ne', hmagnitude, hscaled.unitsOf_place, hq, ← hr,
      div_mul_cancel₀ _ hstep.ne']
  exact_mod_cast hexact

/-! ## Signs -/

theorem exact_ofInt (i : Int) : (ofInt i).exact =
    if i < 0 then -((unitsOf (magnitudeOfRatio i.natAbs 1) : ℚ) / one)
      else (unitsOf (magnitudeOfRatio i.natAbs 1) : ℚ) / one := by
  have hlt := magnitudeOfRatio_lt i.natAbs 1
  rw [exact, units, ofInt, ofRatio, negative_ofMagnitude _ hlt, magnitude_ofMagnitude _ hlt]
  by_cases h : i < 0
  · simp only [h, decide_true, if_true]
    push_cast
    ring
  · simp only [h, decide_false, Bool.false_eq_true, if_false]
    push_cast
    rfl

theorem abs_exact_ofInt_sub_le {i : Int} (hi : i.natAbs ≤ 2 ^ 63) :
    |(ofInt i).exact - i| ≤ |(i : ℚ)| / 2 ^ 53 := by
  have hle := abs_unitsOf_sub_le hi
  have habs : (i.natAbs : ℚ) = |(i : ℚ)| := by rw [Nat.cast_natAbs, Int.cast_abs]
  rw [habs] at hle
  rw [exact_ofInt]
  split
  next hneg =>
    have hneg' : (i : ℚ) < 0 := by exact_mod_cast hneg
    rw [abs_of_neg hneg'] at hle ⊢
    rw [← abs_neg]
    convert hle using 2
    ring
  next hnonneg =>
    have hnonneg' : (0 : ℚ) ≤ i := by exact_mod_cast not_lt.mp hnonneg
    rwa [abs_of_nonneg hnonneg'] at hle ⊢

/-- The order of finite numbers is that of their places. -/
theorem exact_le_of_rank_le {x y : Binary64} (hx : x.isFinite) (hy : y.isFinite)
    (h : x.rank ≤ y.rank) : x.exact ≤ y.exact := by
  have hx' : x.magnitude < topMagnitude := of_decide_eq_true hx
  have hy' : y.magnitude < topMagnitude := of_decide_eq_true hy
  have hunits : x.units ≤ y.units := by
    rw [units, units]
    rw [rank, rank] at h
    split at h <;> split at h
    · have := unitsOf_le (by omega : y.magnitude ≤ x.magnitude) hx'.le
      simp only [*, if_true]
      omega
    · simp only [*, if_true]
      simp only [Bool.false_eq_true, if_false]
      omega
    · have hxzero : x.magnitude = 0 := by omega
      have hyzero : y.magnitude = 0 := by omega
      simp [hxzero, hyzero, unitsOf]
    · have := unitsOf_le (by omega : x.magnitude ≤ y.magnitude) hy'.le
      simp only [*]
      simp only [Bool.false_eq_true, if_false]
      omega
  have hcast : (x.units : ℚ) ≤ y.units := by exact_mod_cast hunits
  exact div_le_div_of_nonneg_right hcast one_pos_rat.le

/-- Up to `2 ^ 53` truncation gives back the whole number that was rounded. -/
theorem truncate_ofInt {n : Int64} (hn : n.toInt.natAbs ≤ 2 ^ 53) :
    (ofInt n.toInt).truncate = n := by
  have hlt := magnitudeOfRatio_lt n.toInt.natAbs 1
  have htop := magnitudeOfRatio_le_top n.toInt.natAbs 1
  have hnan : (ofInt n.toInt).isNaN = false := by
    rw [isNaN, ofInt, ofRatio, magnitude_ofMagnitude _ hlt]
    exact decide_eq_false (by omega)
  have hwhole : ((unitsOf (magnitudeOfRatio n.toInt.natAbs 1) : Nat) : Int) / one =
      n.toInt.natAbs := by
    rw [unitsOf_natCast hn]
    push_cast
    exact Int.mul_ediv_cancel _ (by exact_mod_cast one_pos.ne')
  rw [truncate, hnan, ofInt, ofRatio, negative_ofMagnitude _ hlt, magnitude_ofMagnitude _ hlt,
    hwhole]
  have hsign : (if decide (n.toInt < 0) then -(n.toInt.natAbs : Int) else n.toInt.natAbs) =
      n.toInt := by
    simp only [decide_eq_true_eq]
    split <;> omega
  have hlow := n.minValue_le_toInt
  have hhigh := n.toInt_le
  simp only [Bool.false_eq_true, if_false, hsign]
  rw [clamp, if_neg (by omega), if_neg (by omega), Int64.ofInt_toInt]

end Binary64
end DocBase
