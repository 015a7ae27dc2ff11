import DocBase.Bound
import DocBase.Proofs.Keyed
import DocBase.Proofs.Value.Order

/-! What the order of values is used for: sorted lists, maps with values as keys, and ranges.
All of these take values that are equal under the order for one another. -/
namespace DocBase
open Std

/-! ## Sorted lists -/

section
variable {α : Type} (cmp : α → α → Ordering) [TransCmp cmp]

theorem bne_gt_trans (a b c : α) (hab : (cmp a b != .gt) = true) (hbc : (cmp b c != .gt) = true) :
    (cmp a c != .gt) = true := by
  simp only [bne_iff_ne, ne_eq, Ordering.ne_gt_iff_isLE] at hab hbc ⊢
  exact TransCmp.isLE_trans hab hbc

theorem bne_gt_total (a b : α) : (cmp a b != .gt || cmp b a != .gt) = true := by
  rw [show cmp a b = (cmp b a).swap from OrientedCmp.eq_swap]
  cases cmp b a <;> rfl

theorem pairwise_mergeSort_ne_gt (l : List α) :
    (l.mergeSort fun a b => cmp a b != .gt).Pairwise fun a b => cmp a b ≠ .gt := by
  have hsorted : (l.mergeSort fun a b => cmp a b != .gt).Pairwise fun a b =>
      (cmp a b != .gt) = true :=
    List.pairwise_mergeSort (bne_gt_trans cmp) (bne_gt_total cmp) l
  exact hsorted.imp fun h => by simpa using h

variable {cmp}

theorem eq_of_ne_gt_of_ne_gt {a b : α} (hab : cmp a b ≠ .gt) (hba : cmp b a ≠ .gt) :
    cmp a b = .eq := by
  rw [show cmp b a = (cmp a b).swap from OrientedCmp.eq_swap] at hba
  cases h : cmp a b with
  | lt => rw [h] at hba; exact absurd rfl hba
  | eq => rfl
  | gt => exact absurd h hab

/-- Lists in order that have the same elements are equal place by place. The classes of equal
elements are in an antisymmetric order, which elements need not be. -/
theorem forall₂_eq_of_perm {xs ys : List α} (hperm : xs.Perm ys)
    (hxs : xs.Pairwise fun a b => cmp a b ≠ .gt) (hys : ys.Pairwise fun a b => cmp a b ≠ .gt) :
    List.Forall₂ (fun a b => cmp a b = .eq) xs ys := by
  let classOf : α → Set α := fun a => { b | cmp a b = .eq }
  have hclass : ∀ {a b : α}, classOf a = classOf b ↔ cmp a b = .eq := by
    intro a b
    constructor
    · intro h
      have hb : b ∈ classOf b := ReflCmp.compare_self
      rwa [← h] at hb
    · intro h
      ext c
      exact (TransCmp.congr_left h).congr_left
  let before : Set α → Set α → Prop := fun s t =>
    ∀ a b, classOf a = s → classOf b = t → cmp a b ≠ .gt
  have hbefore : ∀ {l : List α}, l.Pairwise (fun a b => cmp a b ≠ .gt) →
      (l.map classOf).Pairwise before := by
    intro l hl
    refine List.pairwise_map.mpr (hl.imp fun {a b} hab c d hc hd => ?_)
    rwa [TransCmp.congr_left (hclass.mp hc), TransCmp.congr_right (hclass.mp hd)]
  have hantisymm : ∀ s t, s ∈ xs.map classOf → t ∈ ys.map classOf → before s t → before t s →
      s = t := by
    intro s t hs ht hst hts
    obtain ⟨a, -, rfl⟩ := List.mem_map.mp hs
    obtain ⟨b, -, rfl⟩ := List.mem_map.mp ht
    exact hclass.mpr (eq_of_ne_gt_of_ne_gt (hst a b rfl rfl) (hts b a rfl rfl))
  have hclasses : xs.map classOf = ys.map classOf :=
    List.Perm.eq_of_pairwise hantisymm (hbefore hxs) (hbefore hys) (hperm.map classOf)
  have hsame : List.Forall₂ Eq (xs.map classOf) (ys.map classOf) := by
    rw [hclasses]
    exact List.forall₂_refl _
  exact (List.forall₂_map_left_iff.mp (List.forall₂_map_right_iff.mp hsame)).imp
    fun _ _ h => hclass.mp h

end

/-! ## Keys and bounds -/

theorem Keyed.get?_congr {κ α : Type} [Ord κ] [TransOrd κ] {a b : κ} (h : compare a b = .eq)
    (m : Keyed κ α) : m.get? a = m.get? b := by
  induction m with
  | nil => rfl
  | cons e rest ih =>
    rw [get?, get?, TransCmp.congr_left h]
    split <;> first | rfl | exact ih

namespace Bound
variable {α : Type} [Ord α] [TransOrd α] {a b : α}

theorem admitsAbove_congr {bound : Bound α} (h : compare a b = .eq) :
    bound.admitsAbove a = bound.admitsAbove b := by
  cases bound <;> simp only [admitsAbove, TransCmp.congr_left h]

theorem admitsBelow_congr {bound : Bound α} (h : compare a b = .eq) :
    bound.admitsBelow a = bound.admitsBelow b := by
  cases bound <;> simp only [admitsBelow, TransCmp.congr_left h]

/-- What comes after a value above a lower end is above it. -/
theorem admitsAbove_mono {bound : Bound α} (h : compare a b ≠ .gt) (ha : bound.admitsAbove a) :
    bound.admitsAbove b := by
  have hle : (compare a b).isLE := Ordering.ne_gt_iff_isLE.mp h
  cases bound with
  | unbounded => rfl
  | included x =>
    simp only [admitsAbove, bne_iff_ne, ne_eq] at ha ⊢
    exact fun hlt => ha (TransCmp.lt_of_isLE_of_lt hle hlt)
  | excluded x =>
    simp only [admitsAbove, beq_iff_eq] at ha ⊢
    exact OrientedCmp.gt_of_lt (TransCmp.lt_of_lt_of_isLE (OrientedCmp.lt_of_gt ha) hle)

/-- What comes before a value below an upper end is below it. -/
theorem admitsBelow_mono {bound : Bound α} (h : compare a b ≠ .gt) (hb : bound.admitsBelow b) :
    bound.admitsBelow a := by
  have hle : (compare a b).isLE := Ordering.ne_gt_iff_isLE.mp h
  cases bound with
  | unbounded => rfl
  | included x =>
    simp only [admitsBelow, bne_iff_ne, ne_eq, Ordering.ne_gt_iff_isLE] at hb ⊢
    exact TransCmp.isLE_trans hle hb
  | excluded x =>
    simp only [admitsBelow, beq_iff_eq] at hb ⊢
    exact TransCmp.lt_of_isLE_of_lt hle hb

/-- Ends with something between them do not cross. -/
theorem not_crossed_of_admits {lower upper : Bound α} (ha : lower.admitsAbove a)
    (hb : upper.admitsBelow a) : lower.crossed upper = false := by
  cases lower with
  | unbounded => rfl
  | included x =>
    have hx : (compare x a).isLE := by
      rw [← OrientedCmp.isGE_iff_isLE, ← Ordering.ne_lt_iff_isGE]
      simpa [admitsAbove] using ha
    cases upper with
    | unbounded => rfl
    | included y =>
      have hy : (compare a y).isLE := Ordering.ne_gt_iff_isLE.mp (by simpa [admitsBelow] using hb)
      have hxy : compare x y ≠ .gt := Ordering.ne_gt_iff_isLE.mpr (TransCmp.isLE_trans hx hy)
      simpa [crossed] using hxy
    | excluded y =>
      have hy : compare a y = .lt := by simpa [admitsBelow] using hb
      simp [crossed, TransCmp.lt_of_isLE_of_lt hx hy]
  | excluded x =>
    have hx : compare x a = .lt := OrientedCmp.lt_of_gt (by simpa [admitsAbove] using ha)
    cases upper with
    | unbounded => rfl
    | included y =>
      have hy : (compare a y).isLE := Ordering.ne_gt_iff_isLE.mp (by simpa [admitsBelow] using hb)
      simp [crossed, TransCmp.lt_of_lt_of_isLE hx hy]
    | excluded y =>
      have hy : compare a y = .lt := by simpa [admitsBelow] using hb
      simp [crossed, TransCmp.lt_trans hx hy]

/-- Ends that do not cross are the right way round. -/
theorem not_reversed_of_not_crossed {α : Type} [Ord α] {lower upper : Bound α}
    (h : lower.crossed upper = false) : lower.reversed upper = false := by
  cases lower with
  | unbounded => rfl
  | included a =>
    cases upper with
    | unbounded => rfl
    | included b => exact h
    | excluded b =>
      have hlt : compare a b = .lt := by simpa [crossed] using h
      simp [reversed, hlt]
  | excluded a =>
    cases upper with
    | unbounded => rfl
    | included b =>
      have hlt : compare a b = .lt := by simpa [crossed] using h
      simp [reversed, hlt]
    | excluded b => exact h

end Bound

/-! ## Values -/
namespace Value

theorem compare?_swap (a b : Value) : b.compare? a = (a.compare? b).map Ordering.swap := by
  rw [compare?, compare?]
  by_cases h : a.typeRank = b.typeRank
  · rw [if_pos h, if_pos h.symm, Option.map_some, compare_swap]
  · rw [if_neg h, if_neg (Ne.symm h)]
    rfl

/-- Any values are in a total order, numbers of both kinds and NaNs among them, at any depth.
Values that are equal under it stand for one another as keys and in bounds, bounds cut off
ranges without gaps, and sorting leaves no choice but between equals. -/
theorem total_order (a b c : Value) :
    Value.compare a a = .eq ∧
    Value.compare b a = (Value.compare a b).swap ∧
    b.compare? a = (a.compare? b).map Ordering.swap ∧
    (Value.compare a b ≠ .gt → Value.compare b c ≠ .gt → Value.compare a c ≠ .gt) ∧
    (a.same b → Value.compare a c = Value.compare b c) ∧
    (a.same b → (∀ {α : Type} (m : Keyed Value α), m.get? a = m.get? b) ∧
      ∀ bound : Bound Value, bound.admitsAbove a = bound.admitsAbove b ∧
        bound.admitsBelow a = bound.admitsBelow b) ∧
    (Value.compare a b ≠ .gt → ∀ bound : Bound Value,
      (bound.admitsAbove a → bound.admitsAbove b) ∧
        (bound.admitsBelow b → bound.admitsBelow a)) ∧
    ∀ xs ys : List Value, xs.Perm ys →
      List.Forall₂ (fun v w => v.same w) (xs.mergeSort fun v w => compare v w != .gt)
        (ys.mergeSort fun v w => compare v w != .gt) := by
  refine ⟨ReflOrd.compare_self (a := a), (compare_swap a b).symm, compare?_swap a b, fun hab hbc => ?_,
    fun h => ?_, fun h => ⟨Keyed.get?_congr (same_iff.mp h), fun bound =>
      ⟨Bound.admitsAbove_congr (same_iff.mp h), Bound.admitsBelow_congr (same_iff.mp h)⟩⟩,
    fun h bound => ⟨Bound.admitsAbove_mono h, Bound.admitsBelow_mono h⟩, fun xs ys hperm => ?_⟩
  · rw [compare_chained a b c hab hbc]
    cases hord : Value.compare a b with
    | lt => exact nofun
    | eq => exact hbc
    | gt => exact absurd hord hab
  · have hcongr : compare a c = compare b c := TransCmp.congr_left (same_iff.mp h)
    exact hcongr
  · have hsorted : (xs.mergeSort fun v w => compare v w != .gt).Perm
        (ys.mergeSort fun v w => compare v w != .gt) :=
      (List.mergeSort_perm xs _).trans (hperm.trans (List.mergeSort_perm ys _).symm)
    exact (forall₂_eq_of_perm hsorted (pairwise_mergeSort_ne_gt compare xs)
      (pairwise_mergeSort_ne_gt compare ys)).imp fun _ _ => same_iff.mpr

/-- Where numbers of both kinds stop being one to one: `2^53` is both, and `2^53 + 1` is
after it in an array as it is alone. -/
theorem total_order_at_two_pow_53 :
    let whole : Value := .array [.int 9007199254740992]
    let floating : Value := .array [.float ⟨0x4340000000000000⟩]
    let next : Value := .array [.int 9007199254740993]
    floating.same whole ∧ Value.compare floating next = Value.compare whole next ∧
      Value.compare floating next = .lt ∧ Value.compare next floating = .gt := by
  intro whole floating next
  have hsame : floating.same whole := by decide +kernel
  have hlt : Value.compare floating next = .lt := by decide +kernel
  obtain ⟨-, -, -, -, hcongr, -⟩ := total_order floating whole next
  obtain ⟨-, hswap, -⟩ := total_order floating next whole
  rw [hlt] at hswap
  exact ⟨hsame, hcongr hsame, hlt, hswap⟩

end Value
end DocBase
