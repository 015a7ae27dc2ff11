import DocBase.Proofs.Number.Exact
import DocBase.Value.Order

/-! The order of values is total and transitive, whole and floating-point numbers mixed as
they may be. -/
namespace DocBase

/-! ## Numbers -/
namespace Binary64

theorem truncate_of_rank_zero {x : Binary64} (h : x.rank = 0) : x.truncate = 0 := by
  have hzero := magnitude_of_rank_zero h
  have hnan : x.isNaN = false := by rw [isNaN, hzero]; rfl
  have hwhole : ((unitsOf x.magnitude : Nat) : Int) / one = 0 := by
    rw [hzero, unitsOf_zero, Int.natCast_zero, Int.zero_ediv]
  rw [truncate, hnan, hwhole]
  simp only [Int.neg_zero, ite_self]
  rfl

theorem truncate_of_rank {x y : Binary64} (h : x.rank = y.rank) : x.truncate = y.truncate := by
  rcases eq_or_zeros_of_rank h with rfl | ⟨hx, hy⟩
  · rfl
  · rw [truncate_of_rank_zero hx, truncate_of_rank_zero hy]

end Binary64

namespace Value

/-- What numbers are ordered by: their place in the number line after rounding, and then
the whole number towards zero. -/
def number? : Value → Option (Int × Int)
  | int n => some ((Binary64.ofInt n.toInt).rank, n.toInt)
  | float x => some (x.rank, x.truncate.toInt)
  | _ => none

def comparePlaces (p q : Int × Int) : Ordering := (compare p.1 q.1).then (compare p.2 q.2)

theorem comparePlaces_swap (p q : Int × Int) : (comparePlaces p q).swap = comparePlaces q p := by
  rw [comparePlaces, comparePlaces, Ordering.swap_then, ← Std.OrientedCmp.eq_swap,
    ← Std.OrientedCmp.eq_swap]

theorem compare_numbers {a b : Value} {p q : Int × Int} (ha : a.number? = some p)
    (hb : b.number? = some q) : Value.compare a b = comparePlaces p q := by
  cases a <;> simp only [number?, reduceCtorEq, Option.some.injEq] at ha
  case int n =>
    cases b <;> simp only [number?, reduceCtorEq, Option.some.injEq] at hb
    case int m =>
      subst ha hb
      simp only [Value.compare, comparePlaces]
      cases h : compare n.toInt m.toInt with
      | lt =>
        have hle := Binary64.rank_ofInt_le (Int.le_of_lt (compare_lt_iff_lt.mp h))
        rcases Int.le_iff_lt_or_eq.mp hle with hlt | heq
        · rw [compare_lt_iff_lt.mpr hlt]; rfl
        · rw [compare_eq_iff_eq.mpr heq]; rfl
      | eq => rw [compare_eq_iff_eq.mp h]; simp
      | gt =>
        have hle := Binary64.rank_ofInt_le (Int.le_of_lt (compare_gt_iff_gt.mp h))
        rcases Int.le_iff_lt_or_eq.mp hle with hlt | heq
        · rw [compare_gt_iff_gt.mpr hlt]; rfl
        · rw [compare_eq_iff_eq.mpr heq.symm]; rfl
    case float x =>
      subst ha hb
      rfl
  case float x =>
    cases b <;> simp only [number?, reduceCtorEq, Option.some.injEq] at hb
    case int m =>
      subst ha hb
      rw [← comparePlaces_swap]
      rfl
    case float y =>
      subst ha hb
      simp only [Value.compare, comparePlaces, Binary64.compare]
      cases h : compare x.rank y.rank with
      | lt => rfl
      | eq => rw [Binary64.truncate_of_rank (compare_eq_iff_eq.mp h)]; simp
      | gt => rfl

theorem compare_of_rank_lt {a b : Value} (h : a.typeRank < b.typeRank) :
    Value.compare a b = .lt := by
  cases a <;> cases b <;> first | rfl | (simp only [typeRank] at h; omega)

theorem compare_of_rank_gt {a b : Value} (h : b.typeRank < a.typeRank) :
    Value.compare a b = .gt := by
  cases a <;> cases b <;> first | rfl | (simp only [typeRank] at h; omega)

theorem rank_le_of_compare {a b : Value} (h : Value.compare a b ≠ .gt) :
    a.typeRank ≤ b.typeRank :=
  Nat.le_of_not_lt fun hlt => h (compare_of_rank_gt hlt)

theorem number?_of_rank {a : Value} (h : a.typeRank = 2) : ∃ p, a.number? = some p := by
  cases a <;> first | exact ⟨_, rfl⟩ | simp [typeRank] at h

/-- How two results of a transitive comparison determine the third. -/
def Chained (ab bc ac : Ordering) : Prop := ab ≠ .gt → bc ≠ .gt → ac = ab.then bc

theorem Chained.then {ab bc ac ab' bc' ac' : Ordering} (h : Chained ab bc ac)
    (h' : Chained ab' bc' ac') : Chained (ab.then ab') (bc.then bc') (ac.then ac') := by
  intro hab hbc
  cases ab with
  | lt =>
    have hbc' : bc ≠ .gt := by rintro rfl; exact hbc rfl
    rw [h (by decide) hbc']; rfl
  | eq =>
    cases bc with
    | lt =>
      rw [h (by decide) (by decide)]
      cases ab' <;> first | rfl | exact absurd rfl hab
    | eq =>
      rw [h (by decide) (by decide)]
      exact h' hab hbc
    | gt => exact absurd rfl hbc
  | gt => exact absurd rfl hab

theorem chained_compare {κ : Type} [Ord κ] [Std.TransOrd κ] (a b c : κ) :
    Chained (compare a b) (compare b c) (compare a c) := by
  intro hab hbc
  cases h : compare a b with
  | lt =>
    cases h' : compare b c with
    | lt => exact Std.TransCmp.lt_trans h h'
    | eq => exact Std.TransCmp.lt_of_lt_of_eq h h'
    | gt => exact absurd h' hbc
  | eq => rw [Std.TransCmp.congr_left h]; rfl
  | gt => exact absurd h hab

mutual

theorem compare_swap : ∀ a b : Value, (Value.compare a b).swap = Value.compare b a
  | null, b => by cases b <;> rfl
  | bool x, b => by
    cases b with
    | bool y => rw [Value.compare, Value.compare, ← Std.OrientedCmp.eq_swap]
    | _ => rfl
  | int n, b => by
    cases b with
    | int m => rw [Value.compare, Value.compare, ← Std.OrientedCmp.eq_swap]
    | _ => rfl
  | float x, b => by
    cases b with
    | int m => rw [Value.compare, Value.compare, Ordering.swap_swap]
    | float y =>
      rw [Value.compare, Value.compare, Binary64.compare, Binary64.compare,
        ← Std.OrientedCmp.eq_swap]
    | _ => rfl
  | string s, b => by
    cases b with
    | string t => rw [Value.compare, Value.compare, ← Std.OrientedCmp.eq_swap]
    | _ => rfl
  | array as, b => by
    cases b with
    | array bs => exact compareItems_swap as bs
    | _ => rfl
  | object as, b => by
    cases b with
    | object bs => exact compareFields_swap as bs
    | _ => rfl

theorem compareItems_swap : ∀ as bs : List Value,
    (compareItems as bs).swap = compareItems bs as
  | [], [] => rfl
  | [], _ :: _ => rfl
  | _ :: _, [] => rfl
  | a :: as, b :: bs => by
    rw [compareItems, compareItems, Ordering.swap_then, compare_swap a b, compareItems_swap as bs]

theorem compareFields_swap : ∀ as bs : List (String × Value),
    (compareFields as bs).swap = compareFields bs as
  | [], [] => rfl
  | [], _ :: _ => rfl
  | _ :: _, [] => rfl
  | (k, a) :: as, (l, b) :: bs => by
    rw [compareFields, compareFields, Ordering.swap_then, Ordering.swap_then,
      ← Std.OrientedCmp.eq_swap, compare_swap a b, compareFields_swap as bs]

end

theorem chained_of_rank {a b c : Value}
    (h : a.typeRank = b.typeRank → b.typeRank = c.typeRank →
      Chained (Value.compare a b) (Value.compare b c) (Value.compare a c)) :
    Chained (Value.compare a b) (Value.compare b c) (Value.compare a c) := by
  intro hab hbc
  rcases Nat.lt_or_eq_of_le (rank_le_of_compare hab) with hlt | heq
  · rw [compare_of_rank_lt hlt,
      compare_of_rank_lt (Nat.lt_of_lt_of_le hlt (rank_le_of_compare hbc))]
    rfl
  · rcases Nat.lt_or_eq_of_le (rank_le_of_compare hbc) with hlt | heq'
    · rw [compare_of_rank_lt hlt, compare_of_rank_lt (heq ▸ hlt)]
      cases hord : Value.compare a b with
      | lt => rfl
      | eq => rfl
      | gt => exact absurd hord hab
    · exact h heq heq' hab hbc

theorem chained_numbers {a b c : Value} (ha : a.typeRank = 2) (hb : b.typeRank = 2)
    (hc : c.typeRank = 2) :
    Chained (Value.compare a b) (Value.compare b c) (Value.compare a c) := by
  obtain ⟨p, hp⟩ := number?_of_rank ha
  obtain ⟨q, hq⟩ := number?_of_rank hb
  obtain ⟨r, hr⟩ := number?_of_rank hc
  rw [compare_numbers hp hq, compare_numbers hq hr, compare_numbers hp hr]
  exact (chained_compare p.1 q.1 r.1).then (chained_compare p.2 q.2 r.2)

mutual

theorem compare_chained : ∀ a b c : Value,
    Chained (Value.compare a b) (Value.compare b c) (Value.compare a c)
  | null, b, c => chained_of_rank fun hab hbc => by
    cases b <;> cases hab
    cases c <;> cases hbc
    exact fun _ _ => rfl
  | bool x, b, c => chained_of_rank fun hab hbc => by
    cases b <;> cases hab
    cases c <;> cases hbc
    exact chained_compare _ _ _
  | int n, b, c => chained_of_rank fun hab hbc => chained_numbers rfl hab.symm (hab.trans hbc).symm
  | float x, b, c => chained_of_rank fun hab hbc =>
    chained_numbers rfl hab.symm (hab.trans hbc).symm
  | string s, b, c => chained_of_rank fun hab hbc => by
    cases b <;> cases hab
    cases c <;> cases hbc
    exact chained_compare _ _ _
  | array as, b, c => chained_of_rank fun hab hbc => by
    cases b <;> cases hab
    cases c <;> cases hbc
    exact compareItems_chained as _ _
  | object as, b, c => chained_of_rank fun hab hbc => by
    cases b <;> cases hab
    cases c <;> cases hbc
    exact compareFields_chained as _ _

theorem compareItems_chained : ∀ as bs cs : List Value,
    Chained (compareItems as bs) (compareItems bs cs) (compareItems as cs)
  | [], [], _ => fun _ _ => by rw [compareItems]; rfl
  | [], _ :: _, [] => fun _ h => absurd rfl h
  | [], _ :: _, _ :: _ => fun _ _ => rfl
  | _ :: _, [], _ => fun h _ => absurd rfl h
  | _ :: _, _ :: _, [] => fun _ h => absurd rfl h
  | a :: as, b :: bs, c :: cs => by
    simp only [compareItems]
    exact (compare_chained a b c).then (compareItems_chained as bs cs)

theorem compareFields_chained : ∀ as bs cs : List (String × Value),
    Chained (compareFields as bs) (compareFields bs cs) (compareFields as cs)
  | [], [], _ => fun _ _ => by rw [compareFields]; rfl
  | [], _ :: _, [] => fun _ h => absurd rfl h
  | [], _ :: _, _ :: _ => fun _ _ => rfl
  | _ :: _, [], _ => fun h _ => absurd rfl h
  | _ :: _, _ :: _, [] => fun _ h => absurd rfl h
  | (k, a) :: as, (l, b) :: bs, (m, c) :: cs => by
    simp only [compareFields]
    exact ((chained_compare k l m).then (compare_chained a b c)).then
      (compareFields_chained as bs cs)

end

instance : Std.OrientedOrd Value where
  eq_swap {a b} := by
    change Value.compare a b = (Value.compare b a).swap
    rw [compare_swap]

instance : Std.TransOrd Value where
  isLE_trans {a b c} hab hbc := by
    have hchain := compare_chained a b c
    change (Value.compare a b).isLE at hab
    change (Value.compare b c).isLE at hbc
    change (Value.compare a c).isLE
    rw [hchain (by cases h : Value.compare a b <;> simp_all) (by
      cases h : Value.compare b c <;> simp_all)]
    cases h : Value.compare a b <;> simp_all

theorem same_iff {a b : Value} : a.same b ↔ compare a b = .eq := by
  rw [same, beq_iff_eq]; rfl

end Value
end DocBase
