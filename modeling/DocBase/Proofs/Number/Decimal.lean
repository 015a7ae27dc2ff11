import DocBase.Proofs.Number.Rounding
import DocBase.Number.Decimal

/-! The decimal of a floating-point number reads back as that number, however its digits
are laid out: reading depends on the exact value alone. -/
namespace DocBase

/-! ## Reading decimals -/

namespace Binary64

theorem ten_pow_le_two_pow {k l : Nat} (h : k ≤ l * 3 / 10) : 10 ^ k ≤ 2 ^ l := by
  have hpow : (10 ^ k) ^ 10 ≤ (2 ^ l) ^ 10 := by
    calc (10 ^ k) ^ 10 = 10 ^ (k * 10) := (pow_mul 10 k 10).symm
      _ ≤ 10 ^ (l * 3) := Nat.pow_le_pow_right (by decide) (by omega)
      _ = (10 ^ 3) ^ l := by rw [← pow_mul, mul_comm]
      _ ≤ (2 ^ 10) ^ l := Nat.pow_le_pow_left (by decide) l
      _ = (2 ^ l) ^ 10 := by rw [← pow_mul, ← pow_mul, mul_comm]
  exact (Nat.pow_le_pow_iff_left (by decide)).mp hpow

/-- Powers of ten from here on are beyond all finite numbers, and their inverses below all. -/
def farExponent : Nat := 401

theorem le_of_far_above {digits : Nat} {e : ℤ} (hdigits : digits ≠ 0)
    (h : 400 < e + (digits.log2 * 3 / 10 : Nat)) :
    ((10 ^ farExponent : Nat) : ℚ) ≤ digits * 10 ^ e := by
  have hfar : (farExponent : ℤ) = 401 := rfl
  have hlog : ((10 : ℚ) ^ (digits.log2 * 3 / 10 : Nat)) ≤ digits := by
    have := (ten_pow_le_two_pow (le_refl (digits.log2 * 3 / 10))).trans (Nat.log2_self_le hdigits)
    exact_mod_cast this
  calc ((10 ^ farExponent : Nat) : ℚ) = 10 ^ (farExponent : ℤ) := by
        rw [Nat.cast_pow, Nat.cast_ofNat, zpow_natCast]
    _ ≤ 10 ^ ((digits.log2 * 3 / 10 : Nat) + e : ℤ) :=
        zpow_le_zpow_right₀ (by norm_num) (by omega)
    _ = 10 ^ (digits.log2 * 3 / 10 : Nat) * 10 ^ e := by
        rw [zpow_add₀ (by norm_num), zpow_natCast]
    _ ≤ digits * 10 ^ e := by gcongr

theorem le_of_far_below {digits : Nat} {e : ℤ}
    (h : e + (digits.log2 + 1 : Nat) < -400) :
    digits * (10 : ℚ) ^ e ≤ (1 : Nat) / (10 ^ farExponent : Nat) := by
  have hfar : (farExponent : ℤ) = 401 := rfl
  have hlog : (digits : ℚ) ≤ 10 ^ (digits.log2 + 1) := by
    have := Nat.lt_log2_self (n := digits)
    have hle := Nat.pow_le_pow_left (show 2 ≤ 10 by decide) (digits.log2 + 1)
    exact_mod_cast (by omega : digits ≤ 10 ^ (digits.log2 + 1))
  calc digits * (10 : ℚ) ^ e ≤ 10 ^ (digits.log2 + 1) * 10 ^ e := by gcongr
    _ = 10 ^ ((digits.log2 + 1 : Nat) + e : ℤ) := by rw [zpow_add₀ (by norm_num), zpow_natCast]
    _ ≤ 10 ^ (-(farExponent : ℤ)) := zpow_le_zpow_right₀ (by norm_num) (by omega)
    _ = (1 : Nat) / (10 ^ farExponent : Nat) := by
        rw [zpow_neg, zpow_natCast, Nat.cast_one, one_div, Nat.cast_pow, Nat.cast_ofNat]

theorem top_le_ten_pow : unitsOf topMagnitude ≤ 10 ^ farExponent * one := by decide +kernel

theorem magnitudeOfRatio_tiny : magnitudeOfRatio 1 (10 ^ farExponent) = 0 := by decide +kernel

/-- Reading rounds the exact number that digits and exponent stand for. -/
theorem magnitude_ofDecimal (negative : Bool) {digits : Nat} {e : ℤ} {n d : Nat} (hd : 0 < d)
    (h : (digits : ℚ) * 10 ^ e = n / d) :
    (ofDecimal negative digits e).magnitude = magnitudeOfRatio n d := by
  rw [ofDecimal]
  split
  next hzero =>
    subst hzero
    have hn : n = 0 := by
      rw [Nat.cast_zero, zero_mul, eq_comm, div_eq_zero_iff] at h
      rcases h with h | h
      · exact_mod_cast h
      · have : d = 0 := by exact_mod_cast h
        omega
    rw [magnitude_ofMagnitude _ (by decide), hn, magnitudeOfRatio, if_pos (Or.inl rfl)]
  next hdigits =>
  split
  next habove =>
    have hge := le_of_far_above hdigits habove
    have htop : ((unitsOf topMagnitude : Nat) : ℚ) / one ≤ n / d := by
      rw [← h]
      refine le_trans ?_ hge
      rw [div_le_iff₀ one_pos_rat]
      exact_mod_cast top_le_ten_pow
    have hle := magnitudeOfRatio_le one_pos hd htop
    rw [magnitudeOfRatio_unitsOf le_rfl] at hle
    rw [magnitude_ofMagnitude _ (by decide)]
    exact Nat.le_antisymm hle (magnitudeOfRatio_le_top n d)
  next =>
  split
  next hbelow =>
    have hle := le_of_far_below hbelow
    rw [h] at hle
    have hle := magnitudeOfRatio_le hd (Nat.pow_pos (by decide)) hle
    rw [magnitudeOfRatio_tiny] at hle
    rw [magnitude_ofMagnitude _ (by decide)]
    omega
  next =>
  split
  next hpos =>
    rw [ofRatio, magnitude_ofMagnitude _ (magnitudeOfRatio_lt _ _)]
    refine magnitudeOfRatio_congr Nat.one_pos hd ?_
    rw [← h, Nat.cast_one, div_one, Nat.cast_mul, Nat.cast_pow, Nat.cast_ofNat, ← zpow_natCast,
      Int.toNat_of_nonneg hpos]
  next hneg =>
    rw [ofRatio, magnitude_ofMagnitude _ (magnitudeOfRatio_lt _ _)]
    refine magnitudeOfRatio_congr (Nat.pow_pos (by decide)) hd ?_
    rw [← h, Nat.cast_pow, Nat.cast_ofNat, ← zpow_natCast, Int.toNat_of_nonneg (by omega),
      zpow_neg, div_inv_eq_mul]

theorem negative_ofDecimal (negative : Bool) (digits : Nat) (e : ℤ) :
    (ofDecimal negative digits e).negative = negative := by
  rw [ofDecimal]
  repeat' split
  · exact negative_ofMagnitude _ (by decide)
  · exact negative_ofMagnitude _ (by decide)
  · exact negative_ofMagnitude _ (by decide)
  · exact negative_ofMagnitude _ (magnitudeOfRatio_lt _ _)
  · exact negative_ofMagnitude _ (magnitudeOfRatio_lt _ _)

end Binary64

namespace Decimal
open Binary64

def value (d : Decimal) : ℚ := d.digits * 10 ^ d.exponent

/-- Any digits and exponent of this exact value read as the magnitude `m`. -/
def Reads (m : Nat) (x : ℚ) : Prop :=
  ∀ negative (digits : Nat) (e : ℤ), digits * (10 : ℚ) ^ e = x →
    (ofDecimal negative digits e).magnitude = m

theorem exists_ratio (d : Decimal) : ∃ n k : Nat, 0 < k ∧ d.value = n / k := by
  by_cases h : 0 ≤ d.exponent
  · refine ⟨d.digits * 10 ^ d.exponent.toNat, 1, Nat.one_pos, ?_⟩
    rw [value, Nat.cast_one, div_one, Nat.cast_mul, Nat.cast_pow, Nat.cast_ofNat, ← zpow_natCast,
      Int.toNat_of_nonneg h]
  · refine ⟨d.digits, 10 ^ (-d.exponent).toNat, Nat.pow_pos (by decide), ?_⟩
    rw [value, Nat.cast_pow, Nat.cast_ofNat, ← zpow_natCast, Int.toNat_of_nonneg (by omega),
      zpow_neg, div_inv_eq_mul]

theorem reads_of_readsAs {m : Nat} {d : Decimal} (h : d.readsAs m) : Reads m d.value := by
  intro negative digits e hvalue
  obtain ⟨n, k, hk, hratio⟩ := d.exists_ratio
  rw [readsAs, beq_iff_eq, magnitude_ofDecimal false hk hratio] at h
  rw [magnitude_ofDecimal negative hk (hvalue.trans hratio), h]

theorem trim_value (d : Decimal) : d.trim.value = d.value := by
  rw [trim]
  split
  next h =>
    have hdigits : d.digits = d.digits / 10 * 10 := by omega
    rw [trim_value, value, value]
    dsimp only
    rw [zpow_add₀ (by norm_num), zpow_one]
    conv_rhs => rw [hdigits]
    push_cast
    ring
  next => rfl
termination_by d.digits

theorem readsAs_of_nearestOnGrid {m n k : Nat} {p : ℤ} {d : Decimal}
    (h : nearestOnGrid m n k p = some d) : d.readsAs m := by
  simp only [nearestOnGrid] at h
  generalize (if 0 ≤ p then n else n * 10 ^ (-p).toNat) = num at h
  generalize (if 0 ≤ p then k * 10 ^ p.toNat else k) = den at h
  split at h
  next hlow hhigh =>
    -- the nearer multiple is one of the two
    have hnear : roundDiv num den = num / den ∨ roundDiv num den = num / den + 1 := by
      simp only [roundDiv]
      split
      · exact Or.inr rfl
      · split
        · omega
        · exact Or.inl rfl
    cases h
    rcases hnear with hnear | hnear
    · rw [hnear]; exact hlow
    · rw [hnear]; exact hhigh
  next hlow _ => cases h; exact hlow
  next _ hhigh => cases h; exact hhigh
  next => cases h

theorem value_exact (n k : Nat) : value ⟨n * 5 ^ k, -(k : ℤ)⟩ = n / (2 ^ k : Nat) := by
  have hten : (10 : ℚ) ^ k = 2 ^ k * 5 ^ k := by rw [← mul_pow]; norm_num
  rw [value, zpow_neg, zpow_natCast, hten]
  push_cast
  field_simp

/-- The shortest decimal of a finite number reads back as that number. -/
theorem reads_shortest {m : Nat} (hm : m < topMagnitude) : Reads m (shortest m).value := by
  rw [shortest]
  split
  next hzero =>
    intro negative digits e hvalue
    rw [value, Nat.cast_zero, zero_mul, mul_eq_zero] at hvalue
    have hdigits : digits = 0 := by
      rcases hvalue with h | h
      · exact_mod_cast h
      · exact absurd h (zpow_ne_zero e (by norm_num))
    rw [hdigits, ofDecimal, if_pos rfl, magnitude_ofMagnitude _ (by decide), hzero]
  next =>
    extract_lets n top found
    rw [trim_value]
    cases hfound : found with
    | some d =>
      obtain ⟨c, -, hc⟩ := List.exists_of_findSome?_eq_some hfound
      exact reads_of_readsAs (readsAs_of_nearestOnGrid hc)
    | none =>
      obtain ⟨k, hk, hone⟩ := one_eq_pow
      have hneg : (-1074 : ℤ) = -(k : ℤ) := by omega
      intro negative digits e hvalue
      rw [Option.getD_none, ← hk, hneg, value_exact, ← hone] at hvalue
      rw [magnitude_ofDecimal negative Binary64.one_pos hvalue, magnitudeOfRatio_unitsOf hm.le]

end Decimal
end DocBase
