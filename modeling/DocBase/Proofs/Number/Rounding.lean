import DocBase.Number.Rounding
import Mathlib

/-! Rounding depends on the exact number alone, keeps the order of numbers, and leaves
every floating-point number as it is. -/
namespace DocBase

/-! ## Whole numbers -/

/-- `q` is a nearest whole number to `x`, and the even one of two. -/
structure RoundsTo (x : ℚ) (q : Nat) : Prop where
  low : q - 1 / 2 ≤ x
  high : x ≤ q + 1 / 2
  even : x = q - 1 / 2 ∨ x = q + 1 / 2 → q % 2 = 0

theorem RoundsTo.le {x y : ℚ} {p q : Nat} (hp : RoundsTo x p) (hq : RoundsTo y q) (h : x ≤ y) :
    p ≤ q := by
  by_contra hlt
  have hcast : (q : ℚ) + 1 ≤ p := by exact_mod_cast Nat.lt_of_not_le hlt
  have hlow := hp.low
  have hhigh := hq.high
  -- both numbers lie halfway between the two, so that both of these would be even
  have hp' : x = p - 1 / 2 := by linarith
  have hq' : y = q + 1 / 2 := by linarith
  have hsucc : p = q + 1 := by
    have : (p : ℚ) = q + 1 := by linarith
    exact_mod_cast this
  have := hp.even (Or.inl hp')
  have := hq.even (Or.inr hq')
  omega

theorem roundsTo_natCast (q : Nat) : RoundsTo q q :=
  ⟨by linarith, by linarith, by rintro (h | h) <;> linarith⟩

theorem roundsTo_roundDiv (n : Nat) {d : Nat} (hd : 0 < d) : RoundsTo (n / d) (roundDiv n d) := by
  have hd' : (0 : ℚ) < d := by exact_mod_cast hd
  have hdiv : (n : ℚ) / d = (n / d : Nat) + (n % d : Nat) / d := by
    have h : (n : ℚ) = d * (n / d : Nat) + (n % d : Nat) := by
      exact_mod_cast (Nat.div_add_mod n d).symm
    field_simp
    linarith
  have hlt : ((n % d : Nat) : ℚ) / d < 1 := by
    rw [div_lt_one hd']; exact_mod_cast Nat.mod_lt n hd
  have hnonneg : (0 : ℚ) ≤ ((n % d : Nat) : ℚ) / d := by positivity
  have hhalf : ∀ r : Nat, (r : ℚ) / d = 1 / 2 ↔ 2 * r = d := by
    intro r
    rw [div_eq_iff hd'.ne']
    constructor
    · intro h
      have : (2 * r : ℚ) = d := by linarith
      exact_mod_cast this
    · intro h
      have : (2 * r : ℚ) = d := by exact_mod_cast h
      linarith
  rw [roundDiv, hdiv]
  generalize n / d = q at *
  generalize n % d = r at *
  split
  next hup =>
    have hmore : 1 / 2 < (r : ℚ) / d := by
      rw [lt_div_iff₀ hd']
      have : (d : ℚ) < 2 * r := by exact_mod_cast hup
      linarith
    refine ⟨?_, ?_, ?_⟩
    · push_cast; linarith
    · push_cast; linarith
    · push_cast; rintro (h | h) <;> linarith
  next hnot =>
    split
    next htie =>
      have := (hhalf r).mpr htie
      rcases Nat.mod_two_eq_zero_or_one q with hq | hq
      · rw [hq, Nat.add_zero]
        exact ⟨by linarith, by linarith, fun _ => hq⟩
      · rw [hq]
        refine ⟨?_, ?_, fun _ => by omega⟩ <;> push_cast <;> linarith
    next hnotie =>
      have hless : (r : ℚ) / d < 1 / 2 := by
        rw [div_lt_iff₀ hd']
        have h : 2 * r < d := by omega
        have : (2 * r : ℚ) < d := by exact_mod_cast h
        linarith
      exact ⟨by linarith, by linarith, by rintro (h | h) <;> linarith⟩

/-! ## Powers of two -/
namespace Binary64

theorem lt_two_zpow_iff {n d : Nat} (hd : 0 < d) (l : ℤ) :
    ((n : ℚ) / d < 2 ^ l) ↔ if 0 ≤ l then n < d * 2 ^ l.toNat else n * 2 ^ (-l).toNat < d := by
  have hd' : (0 : ℚ) < d := by exact_mod_cast hd
  rw [div_lt_iff₀ hd']
  split
  next hl =>
    obtain ⟨k, rfl⟩ := Int.eq_ofNat_of_zero_le hl
    rw [Int.toNat_natCast, zpow_natCast, mul_comm]
    exact_mod_cast Iff.rfl
  next hl =>
    obtain ⟨k, hk⟩ := Int.eq_ofNat_of_zero_le (by omega : 0 ≤ -l)
    rw [hk, Int.toNat_natCast, ← neg_neg l, hk, zpow_neg, zpow_natCast, ← div_eq_inv_mul,
      lt_div_iff₀ (by positivity)]
    exact_mod_cast Iff.rfl

theorem floorLog2_spec {n d : Nat} (hn : 0 < n) (hd : 0 < d) :
    (2 : ℚ) ^ floorLog2 n d ≤ n / d ∧ (n : ℚ) / d < 2 ^ (floorLog2 n d + 1) := by
  have hd' : (0 : ℚ) < d := by exact_mod_cast hd
  have hnlow : (2 : ℚ) ^ n.log2 ≤ n := by exact_mod_cast Nat.log2_self_le hn.ne'
  have hnhigh : (n : ℚ) < 2 ^ (n.log2 + 1) := by exact_mod_cast Nat.lt_log2_self
  have hdlow : (2 : ℚ) ^ d.log2 ≤ d := by exact_mod_cast Nat.log2_self_le hd.ne'
  have hdhigh : (d : ℚ) < 2 ^ (d.log2 + 1) := by exact_mod_cast Nat.lt_log2_self
  have hsplit : ∀ j : ℤ, (2 : ℚ) ^ ((n.log2 : ℤ) - d.log2 + j) =
      2 ^ n.log2 / 2 ^ d.log2 * 2 ^ j := by
    intro j
    rw [zpow_add₀ two_ne_zero, zpow_sub₀ two_ne_zero, zpow_natCast, zpow_natCast]
  have hlow : (2 : ℚ) ^ ((n.log2 : ℤ) - d.log2 - 1) ≤ n / d := by
    rw [sub_eq_add_neg _ 1, hsplit, le_div_iff₀ hd', zpow_neg, zpow_one]
    have : (2 : ℚ) ^ n.log2 / 2 ^ d.log2 * 2⁻¹ * d ≤
        2 ^ n.log2 / 2 ^ d.log2 * 2⁻¹ * 2 ^ (d.log2 + 1) := by
      gcongr
    refine this.trans (le_of_eq_of_le ?_ hnlow)
    rw [pow_succ]; field_simp
  have hhigh : (n : ℚ) / d < 2 ^ ((n.log2 : ℤ) - d.log2 + 1) := by
    rw [hsplit, div_lt_iff₀ hd', zpow_one]
    refine lt_of_lt_of_le hnhigh ?_
    have : (2 : ℚ) ^ n.log2 / 2 ^ d.log2 * 2 * 2 ^ d.log2 ≤ 2 ^ n.log2 / 2 ^ d.log2 * 2 * d := by
      gcongr
    refine le_of_eq_of_le ?_ this
    rw [pow_succ]; field_simp
  have hbelow := lt_two_zpow_iff (n := n) hd ((n.log2 : ℤ) - d.log2)
  rw [floorLog2]
  by_cases h : (n : ℚ) / d < 2 ^ ((n.log2 : ℤ) - d.log2)
  · rw [if_pos (hbelow.mp h), sub_add_cancel]
    exact ⟨hlow, h⟩
  · rw [if_neg (fun hnot => h (hbelow.mpr hnot))]
    exact ⟨not_lt.mp h, hhigh⟩

/-! ## Magnitudes -/

/-- `q` counts the steps of `2 ^ e` nearest to `x`, and as fine as they can be. -/
structure Scaled (x : ℚ) (e : ℤ) (q : Nat) : Prop where
  least : -1074 ≤ e
  below : x < 2 ^ (e + 53)
  above : e = -1074 ∨ (2 : ℚ) ^ (e + 52) ≤ x
  rounds : RoundsTo (x / 2 ^ e) q

/-- The place of `q` steps of `2 ^ e` among the magnitudes. -/
def place (e : ℤ) (q : Nat) : Nat := (e + 1074).toNat * 2 ^ 52 + q

/-- Never more steps than the next power of two takes. -/
theorem Scaled.count_le {x : ℚ} {e : ℤ} {q : Nat} (h : Scaled x e q) : q ≤ 2 ^ 53 := by
  refine h.rounds.le (roundsTo_natCast (2 ^ 53)) ?_
  rw [div_le_iff₀ (by positivity)]
  have hbelow := h.below
  rw [zpow_add₀ two_ne_zero, mul_comm] at hbelow
  push_cast
  exact hbelow.le

/-- Fewer steps than the last power of two takes only where the steps cannot be finer. -/
theorem Scaled.le_count {x : ℚ} {e : ℤ} {q : Nat} (h : Scaled x e q) :
    e = -1074 ∨ 2 ^ 52 ≤ q := by
  refine h.above.imp_right fun habove => (roundsTo_natCast (2 ^ 52)).le h.rounds ?_
  rw [le_div_iff₀ (by positivity)]
  rw [zpow_add₀ two_ne_zero, mul_comm] at habove
  push_cast
  exact habove

theorem Scaled.place_le {x y : ℚ} {e f : ℤ} {q r : Nat} (hx : Scaled x e q) (hy : Scaled y f r)
    (h : x ≤ y) : place e q ≤ place f r := by
  have hpow : ∀ {i j : ℤ}, i ≤ j → (2 : ℚ) ^ i ≤ 2 ^ j := fun hij =>
    zpow_le_zpow_right₀ one_le_two hij
  have hef : e ≤ f := by
    by_contra hfe
    rcases hx.above with he | he
    · have := hy.least; omega
    · exact absurd (hy.below.trans_le (hpow (by omega : f + 53 ≤ e + 52))) (not_lt.mpr (he.trans h))
  rcases hef.eq_or_lt with rfl | hlt
  · have hle := hx.rounds.le hy.rounds (by gcongr)
    rw [place, place]; omega
  · have hq := hx.count_le
    have he := hx.least
    have hr : 2 ^ 52 ≤ r := hy.le_count.resolve_left (by omega)
    obtain ⟨i, hi⟩ := Int.eq_ofNat_of_zero_le (by omega : 0 ≤ e + 1074)
    obtain ⟨j, hj⟩ := Int.eq_ofNat_of_zero_le (by omega : 0 ≤ f + 1074)
    rw [place, place, hi, hj, Int.toNat_natCast, Int.toNat_natCast]
    have hij : i + 1 ≤ j := by omega
    have := Nat.mul_le_mul_right (2 ^ 52) hij
    omega

theorem exists_scaled {n d : Nat} (hn : 0 < n) (hd : 0 < d) :
    ∃ e q, Scaled (n / d) e q ∧ magnitudeOfRatio n d = min topMagnitude (place e q) := by
  obtain ⟨hlow, hhigh⟩ := floorLog2_spec hn hd
  rw [magnitudeOfRatio, if_neg (by omega)]
  generalize floorLog2 n d = k at *
  generalize he : max (-1074) (k - 52) = e
  refine ⟨e, _, ⟨by omega, ?_, ?_, ?_⟩, rfl⟩
  · exact hhigh.trans_le (zpow_le_zpow_right₀ one_le_two (by omega))
  · rcases Int.le_total (k - 52) (-1074) with h | h
    · exact Or.inl (by omega)
    · exact Or.inr (by rwa [show e + 52 = k by omega])
  · split
    next hpos =>
      have hrounds := roundsTo_roundDiv n (Nat.mul_pos hd (Nat.two_pow_pos e.toNat))
      push_cast at hrounds
      rw [← div_div, ← zpow_natCast, Int.toNat_of_nonneg hpos] at hrounds
      exact hrounds
    next hneg =>
      have hrounds := roundsTo_roundDiv (n * 2 ^ (-e).toNat) hd
      push_cast at hrounds
      rw [← zpow_natCast, Int.toNat_of_nonneg (by omega), zpow_neg, ← div_eq_mul_inv,
        div_right_comm] at hrounds
      exact hrounds

/-- The order of quotients is that of their magnitudes. -/
theorem magnitudeOfRatio_le {n d n' d' : Nat} (hd : 0 < d) (hd' : 0 < d')
    (h : (n : ℚ) / d ≤ n' / d') : magnitudeOfRatio n d ≤ magnitudeOfRatio n' d' := by
  rcases Nat.eq_zero_or_pos n with rfl | hn
  · simp [magnitudeOfRatio]
  · have hn' : 0 < n' := by
      rcases Nat.eq_zero_or_pos n' with rfl | hn'
      · have : (0 : ℚ) < n / d := by positivity
        simp only [Nat.cast_zero, zero_div] at h
        linarith
      · exact hn'
    obtain ⟨e, q, hx, hm⟩ := exists_scaled hn hd
    obtain ⟨f, r, hy, hm'⟩ := exists_scaled hn' hd'
    have := hx.place_le hy h
    omega

theorem magnitudeOfRatio_congr {n d n' d' : Nat} (hd : 0 < d) (hd' : 0 < d')
    (h : (n : ℚ) / d = n' / d') : magnitudeOfRatio n d = magnitudeOfRatio n' d' :=
  Nat.le_antisymm (magnitudeOfRatio_le hd hd' h.le) (magnitudeOfRatio_le hd' hd h.ge)

theorem magnitudeOfRatio_le_top (n d : Nat) : magnitudeOfRatio n d ≤ topMagnitude := by
  rw [magnitudeOfRatio]
  split
  · exact Nat.zero_le _
  · exact Nat.min_le_left _ _

theorem Scaled.of_exact {e : ℤ} {q : Nat} (he : -1074 ≤ e) (hq : q < 2 ^ 53)
    (habove : e = -1074 ∨ 2 ^ 52 ≤ q) : Scaled (q * 2 ^ e) e q := by
  have hpos : (0 : ℚ) < 2 ^ e := by positivity
  refine ⟨he, ?_, habove.imp id fun h => ?_, ?_⟩
  · rw [zpow_add₀ two_ne_zero, mul_comm]
    have : (q : ℚ) < 2 ^ (53 : ℤ) := by exact_mod_cast hq
    gcongr
  · rw [zpow_add₀ two_ne_zero, mul_comm]
    have : (2 : ℚ) ^ (52 : ℤ) ≤ q := by exact_mod_cast h
    gcongr
  · rw [mul_div_cancel_right₀ _ hpos.ne']
    exact roundsTo_natCast q

theorem one_eq_pow : ∃ k : Nat, k = 1074 ∧ one = 2 ^ k := by
  refine ⟨1074, rfl, ?_⟩
  unfold one
  generalize 1074 = k
  rfl

theorem one_pos : 0 < one := by
  obtain ⟨k, -, hk⟩ := one_eq_pow
  rw [hk]; exact Nat.two_pow_pos k

theorem one_pos_rat : (0 : ℚ) < one := by exact_mod_cast one_pos

theorem two_zpow_eq (k : Nat) : (2 : ℚ) ^ ((k : ℤ) - 1074) = 2 ^ k / one := by
  obtain ⟨j, hj, hone⟩ := one_eq_pow
  rw [hone, Nat.cast_pow, Nat.cast_ofNat, ← zpow_natCast 2 j, hj, zpow_sub₀ two_ne_zero,
    zpow_natCast]
  rfl

theorem exists_scaled_unitsOf (m : Nat) :
    ∃ e q, Scaled ((unitsOf m : ℚ) / one) e q ∧ place e q = m := by
  by_cases hm : m < 2 ^ 52
  · refine ⟨-1074, m, ?_, by simp [place]⟩
    have hx : (unitsOf m : ℚ) / one = m * 2 ^ (-1074 : ℤ) := by
      have := two_zpow_eq 0
      rw [Nat.cast_zero, zero_sub] at this
      rw [this, unitsOf, if_pos hm, pow_zero, mul_one_div]
    rw [hx]
    exact .of_exact le_rfl (by omega) (Or.inl rfl)
  · obtain ⟨t, ht⟩ : ∃ t, m / 2 ^ 52 = t + 1 := ⟨m / 2 ^ 52 - 1, by omega⟩
    refine ⟨(t : ℤ) - 1074, m % 2 ^ 52 + 2 ^ 52, ?_, ?_⟩
    · have hx : (unitsOf m : ℚ) / one = (m % 2 ^ 52 + 2 ^ 52 : Nat) * 2 ^ ((t : ℤ) - 1074) := by
        rw [two_zpow_eq, unitsOf, if_neg hm, ht, Nat.add_sub_cancel]
        push_cast
        ring
      rw [hx]
      exact .of_exact (by omega) (by omega) (Or.inr (by omega))
    · rw [place, Int.sub_add_cancel, Int.toNat_natCast]
      omega

/-- A number that is a floating-point number already is not changed. -/
theorem magnitudeOfRatio_unitsOf {m : Nat} (hm : m ≤ topMagnitude) :
    magnitudeOfRatio (unitsOf m) one = m := by
  rcases Nat.eq_zero_or_pos m with rfl | hpos
  · rfl
  · have hunits : 0 < unitsOf m := by
      rw [unitsOf]
      split
      · exact hpos
      · positivity
    obtain ⟨e, q, hx, hplace⟩ := exists_scaled_unitsOf m
    obtain ⟨f, r, hy, hm'⟩ := exists_scaled hunits one_pos
    have := Nat.le_antisymm (hx.place_le hy le_rfl) (hy.place_le hx le_rfl)
    omega

/-! ## Signs -/

theorem ofMagnitude_lt (negative : Bool) {m : Nat} (hm : m < 2 ^ 63) :
    (if negative then 2 ^ 63 + m else m) < 2 ^ 64 := by
  split <;> omega

theorem magnitude_ofMagnitude (negative : Bool) {m : Nat} (hm : m < 2 ^ 63) :
    (ofMagnitude negative m).magnitude = m := by
  have := ofMagnitude_lt negative hm
  rw [ofMagnitude, magnitude, UInt64.toNat_ofNat_of_lt' this]
  split <;> omega

theorem negative_ofMagnitude (negative : Bool) {m : Nat} (hm : m < 2 ^ 63) :
    (ofMagnitude negative m).negative = negative := by
  have := ofMagnitude_lt negative hm
  rw [ofMagnitude, Binary64.negative, UInt64.toNat_ofNat_of_lt' this]
  cases negative
  · simp; omega
  · simp

theorem ofMagnitude_magnitude (x : Binary64) : ofMagnitude x.negative x.magnitude = x := by
  have hlt := x.bits.toNat_lt
  have hbits : (if x.negative then 2 ^ 63 + x.magnitude else x.magnitude) = x.bits.toNat := by
    simp only [Binary64.negative, magnitude, decide_eq_true_eq]
    split <;> omega
  rw [ofMagnitude, hbits, UInt64.ofNat_toNat]

theorem magnitudeOfRatio_lt (n d : Nat) : magnitudeOfRatio n d < 2 ^ 63 :=
  (magnitudeOfRatio_le_top n d).trans_lt (by decide)

theorem rank_ofInt (i : Int) :
    (ofInt i).rank = if i < 0 then -(magnitudeOfRatio i.natAbs 1 : Int)
      else magnitudeOfRatio i.natAbs 1 := by
  have hlt := magnitudeOfRatio_lt i.natAbs 1
  rw [ofInt, ofRatio, rank, negative_ofMagnitude _ hlt, magnitude_ofMagnitude _ hlt]
  simp

/-- Whole numbers of 64 bits do not overflow. -/
theorem isFinite_ofInt {n : Int} (h : n.natAbs ≤ 2 ^ (64 : Nat)) : (ofInt n).isFinite := by
  have hle : magnitudeOfRatio n.natAbs 1 ≤ magnitudeOfRatio (2 ^ (64 : Nat)) 1 := by
    refine magnitudeOfRatio_le Nat.one_pos Nat.one_pos ?_
    have hcast : (n.natAbs : ℚ) ≤ ((2 ^ (64 : Nat) : Nat) : ℚ) := by exact_mod_cast h
    simpa using hcast
  have htop : magnitudeOfRatio (2 ^ (64 : Nat)) 1 < topMagnitude := by decide
  have hlt := magnitudeOfRatio_lt n.natAbs 1
  rw [isFinite, ofInt, ofRatio, magnitude_ofMagnitude _ hlt]
  exact decide_eq_true (Nat.lt_of_le_of_lt hle htop)

/-- Rounding keeps the order of whole numbers. -/
theorem rank_ofInt_le {i j : Int} (h : i ≤ j) : (ofInt i).rank ≤ (ofInt j).rank := by
  have hle : ∀ {a b : Nat}, a ≤ b → magnitudeOfRatio a 1 ≤ magnitudeOfRatio b 1 := by
    intro a b hab
    refine magnitudeOfRatio_le Nat.one_pos Nat.one_pos ?_
    have : (a : ℚ) ≤ b := by exact_mod_cast hab
    simpa using this
  rw [rank_ofInt, rank_ofInt]
  split
  · split
    · have := hle (by omega : j.natAbs ≤ i.natAbs)
      omega
    · omega
  · rw [if_neg (by omega)]
    have := hle (by omega : i.natAbs ≤ j.natAbs)
    omega

end Binary64
end DocBase
