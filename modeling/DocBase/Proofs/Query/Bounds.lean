import DocBase.Proofs.Value.TotalOrder
import DocBase.Query.Plan

/-! The ranges that a plan leaves of its indexes. Each part that puts a field in order with a
literal keeps just the values that stand in that order to it: the range of a field is the
intersection of all that its parts ask, in whatever sequence and however often they ask it. -/
namespace DocBase
open Keyed Std

/-! ## Tighter ends -/

namespace Bound
variable {α : Type} [Ord α]

/-- An end seen from the side that it keeps out: below for a lower end, above for an upper one. -/
def admitsFrom (side : Ordering) (b : Bound α) (x : α) : Bool :=
  match b with
  | unbounded => true
  | included a => compare x a != side
  | excluded a => compare x a == side.swap

theorem admitsAbove_eq (b : Bound α) (x : α) : b.admitsAbove x = b.admitsFrom .lt x := by
  cases b <;> rfl

theorem admitsBelow_eq (b : Bound α) (x : α) : b.admitsBelow x = b.admitsFrom .gt x := by
  cases b <;> rfl

end Bound

/-- What is not beyond a value is on this side of all that the value is beyond. -/
theorem compare_eq_swap_of_ne {α : Type} [Ord α] [TransOrd α] {side : Ordering}
    (hside : side ≠ .eq) {a b x : α} (hab : compare a b = side) (hx : compare x b ≠ side) :
    compare x a = side.swap := by
  cases side with
  | eq => exact absurd rfl hside
  | lt =>
    have hle : (compare b x).isLE := OrientedCmp.isGE_iff_isLE.mp (Ordering.ne_lt_iff_isGE.mp hx)
    exact OrientedCmp.gt_of_lt (TransCmp.lt_of_lt_of_isLE hab hle)
  | gt =>
    have hle : (compare x b).isLE := Ordering.ne_gt_iff_isLE.mp hx
    exact TransCmp.lt_of_isLE_of_lt hle (OrientedCmp.lt_of_gt hab)

theorem tighter_unbounded (looser : Ordering) (candidate : Bound Value) :
    tighter looser .unbounded candidate = true := by
  cases candidate <;> rfl

theorem swap_eq_of_ne {o side : Ordering} (hside : side ≠ .eq) (ho : o ≠ .eq) (hne : o ≠ side) :
    o.swap = side := by
  revert hside ho hne
  cases o <;> cases side <;> decide

/-- Of two ends the tighter one admits what both admit. -/
theorem admitsFrom_tighter {side : Ordering} (hside : side ≠ .eq)
    (current candidate : Bound Value) (v : Value) :
    (if tighter side current candidate then candidate else current).admitsFrom side v =
      (current.admitsFrom side v && candidate.admitsFrom side v) := by
  have hpast : side.swap ≠ side := by cases side <;> trivial
  -- the ends are at one place, or either of them is beyond the other
  have hsame : ∀ {a b}, Value.compare a b = .eq → compare v a = compare v b :=
    fun h => TransCmp.congr_right h
  have hlooser : ∀ {a b}, Value.compare a b = side → compare v b ≠ side →
      compare v a = side.swap :=
    fun h => compare_eq_swap_of_ne hside h
  have htighter : ∀ {a b}, Value.compare a b ≠ .eq → Value.compare a b ≠ side →
      compare v a ≠ side → compare v b = side.swap := by
    intro a b hne hother
    have hba : compare b a = (Value.compare a b).swap := OrientedCmp.eq_swap
    exact compare_eq_swap_of_ne hside (hba.trans (swap_eq_of_ne hside hne hother))
  cases current <;> cases candidate <;> simp only [tighter, Bound.admitsFrom] <;> grind

/-! ## Ranges that parts narrow -/

namespace ValueRange

def Admits (r : ValueRange) (v : Value) : Prop := r.lower.admitsAbove v ∧ r.upper.admitsBelow v

theorem admits_above (r : ValueRange) (b : Bound Value) (v : Value) :
    (r.above b).Admits v ↔ r.Admits v ∧ b.admitsAbove v := by
  have hlower : (r.above b).lower = if tighter .lt r.lower b then b else r.lower := by
    rw [above]; split <;> rfl
  have hupper : (r.above b).upper = r.upper := by
    rw [above]; split <;> rfl
  rw [Admits, Admits, hlower, hupper, Bound.admitsAbove_eq, Bound.admitsAbove_eq,
    Bound.admitsAbove_eq, admitsFrom_tighter (by decide), Bool.and_eq_true, and_right_comm]

theorem admits_below (r : ValueRange) (b : Bound Value) (v : Value) :
    (r.below b).Admits v ↔ r.Admits v ∧ b.admitsBelow v := by
  have hlower : (r.below b).lower = r.lower := by
    rw [below]; split <;> rfl
  have hupper : (r.below b).upper = if tighter .gt r.upper b then b else r.upper := by
    rw [below]; split <;> rfl
  rw [Admits, Admits, hlower, hupper, Bound.admitsBelow_eq, Bound.admitsBelow_eq,
    Bound.admitsBelow_eq, admitsFrom_tighter (by decide), Bool.and_eq_true, and_assoc]

/-- A part keeps the values in its order to the literal and no others. -/
theorem admits_narrow (r : ValueRange) {op : CompareOp} (hop : op.isOrdering)
    (literal v : Value) :
    (r.narrow op literal).Admits v ↔ r.Admits v ∧ op.holdsFor (compare v literal) := by
  cases op with
  | eq => cases hop
  | ne => cases hop
  | gt => exact admits_above r (.excluded literal) v
  | gte => exact admits_above r (.included literal) v
  | lt => exact admits_below r (.excluded literal) v
  | lte => exact admits_below r (.included literal) v

end ValueRange

namespace Predicate
variable {kinds : IndexKinds} {ps : List Predicate} {name : String}

/-- One of the parts asks that the field stands in this order to the literal. -/
def Orders (ps : List Predicate) (name : String) (op : CompareOp) (literal : Value) : Prop :=
  op.isOrdering ∧ field name (.compare op literal) ∈ ps

/-- The value stands in every order that the parts ask of the field. -/
def InOrders (ps : List Predicate) (name : String) (v : Value) : Prop :=
  ∀ op literal, Orders ps name op literal → op.holdsFor (compare v literal)

/-- What parts leave of a field: a range if the field has an ordered index and any of the parts
orders it, and then one of the values that stand in all the orders. -/
def LeftBy (kinds : IndexKinds) (ps : List Predicate) (name : String) : Option ValueRange → Prop
  | none => kinds.get? name = some .btree → ∀ op literal, ¬ Orders ps name op literal
  | some r => kinds.get? name = some .btree ∧ (∃ op literal, Orders ps name op literal) ∧
      ∀ v, r.Admits v ↔ InOrders ps name v

theorem leftBy_nil (kinds : IndexKinds) (name : String) : LeftBy kinds [] name none :=
  fun _ _ _ h => absurd h.2 List.not_mem_nil

theorem inOrders_append {op : CompareOp} (hop : op.isOrdering) (literal v : Value) :
    InOrders (ps ++ [field name (.compare op literal)]) name v ↔
      InOrders ps name v ∧ op.holdsFor (compare v literal) := by
  constructor
  · intro hv
    refine ⟨fun op' literal' h' => hv op' literal' ⟨h'.1, List.mem_append_left _ h'.2⟩, ?_⟩
    exact hv op literal ⟨hop, List.mem_append_right _ (List.mem_singleton_self _)⟩
  · rintro ⟨hv, hlast⟩ op' literal' ⟨hop', hmem⟩
    rcases List.mem_append.mp hmem with hmem | hmem
    · exact hv op' literal' ⟨hop', hmem⟩
    · cases List.mem_singleton.mp hmem
      exact hlast

theorem LeftBy.narrow {found : Option ValueRange} (h : LeftBy kinds ps name found)
    (hkind : kinds.get? name = some .btree) {op : CompareOp} (hop : op.isOrdering)
    (literal : Value) :
    LeftBy kinds (ps ++ [field name (.compare op literal)]) name
      (some ((found.getD {}).narrow op literal)) := by
  have hbefore : ∀ v, (found.getD {}).Admits v ↔ InOrders ps name v := by
    intro v
    cases found with
    | none =>
      exact iff_of_true ⟨rfl, rfl⟩ fun op' literal' h' => absurd h' (h hkind op' literal')
    | some r => exact h.2.2 v
  have hlast : field name (.compare op literal) ∈ ps ++ [field name (.compare op literal)] :=
    List.mem_append_right _ (List.mem_singleton_self _)
  refine ⟨hkind, ⟨op, literal, hop, hlast⟩, fun v => ?_⟩
  rw [ValueRange.admits_narrow _ hop, hbefore, inOrders_append hop]

/-- A part that puts another field in order, or none, leaves what was there. -/
theorem LeftBy.skip {found : Option ValueRange} (h : LeftBy kinds ps name found) {p : Predicate}
    (hp : kinds.get? name = some .btree → ∀ op literal, op.isOrdering →
      p ≠ field name (.compare op literal)) :
    LeftBy kinds (ps ++ [p]) name found := by
  have horders : kinds.get? name = some .btree → Orders (ps ++ [p]) name = Orders ps name := by
    intro hkind
    funext op literal
    refine propext (and_congr_right fun hop => ?_)
    rw [List.mem_append, List.mem_singleton,
      or_iff_left fun heq => hp hkind op literal hop heq.symm]
  cases found with
  | none =>
    intro hkind
    rw [horders hkind]
    exact h hkind
  | some r =>
    obtain ⟨hkind, hleft⟩ := h
    refine ⟨hkind, ?_⟩
    simpa only [InOrders, horders hkind] using hleft

/-- A part narrows the range of the ordered index whose field it orders, and no other. -/
theorem ranges_append_cases (kinds : IndexKinds) (ps : List Predicate) (p : Predicate) :
    (∃ name op literal, op.isOrdering ∧ kinds.get? name = some .btree ∧
      p = field name (.compare op literal) ∧
      ranges kinds (ps ++ [p]) = (ranges kinds ps).insert name
        ((((ranges kinds ps).get? name).getD {}).narrow op literal)) ∨
    (∀ name, kinds.get? name = some .btree → ∀ op literal, op.isOrdering →
      p ≠ field name (.compare op literal)) ∧ ranges kinds (ps ++ [p]) = ranges kinds ps := by
  rw [ranges, List.foldl_append]
  simp only [List.foldl_cons, List.foldl_nil]
  split
  next name op literal =>
    by_cases h : op.isOrdering ∧ kinds.get? name = some .btree
    · exact Or.inl ⟨name, op, literal, h.1, h.2, rfl, if_pos h⟩
    · refine Or.inr ⟨fun other hkind op' literal' hop heq => h ?_, if_neg h⟩
      cases heq
      exact ⟨hop, hkind⟩
  next hother =>
    exact Or.inr ⟨fun name _ op literal _ => hother name op literal, rfl⟩

/-- What parts leave of each field is what they ask for. -/
theorem leftBy_ranges (kinds : IndexKinds) (ps : List Predicate) (name : String) :
    LeftBy kinds ps name ((ranges kinds ps).get? name) := by
  induction ps using List.reverseRecOn with
  | nil => exact leftBy_nil kinds name
  | append_singleton ps p ih =>
    rcases ranges_append_cases kinds ps p with
      ⟨other, op, literal, hop, hkind, rfl, hranges⟩ | ⟨hother, hranges⟩
    · rw [hranges]
      by_cases hname : name = other
      · subst hname
        rw [get?_insert_same]
        exact ih.narrow hkind hop literal
      · rw [get?_insert_ne hname]
        refine ih.skip fun _ op' literal' _ heq => hname ?_
        cases heq
        rfl
    · rw [hranges]
      exact ih.skip (hother name)

theorem leftBy_of_get?_ranges {r : ValueRange} (h : (ranges kinds ps).get? name = some r) :
    LeftBy kinds ps name (some r) := h ▸ leftBy_ranges kinds ps name

/-! ## The range that is chosen -/

theorem exists_lookup_of_lookup? {p : Predicate} {access : Access}
    (h : lookup? kinds p = some access) : ∃ field keys, access = .lookup field keys := by
  rw [lookup?.eq_def] at h
  split at h
  next name v =>
    split at h
    · exact ⟨name, [v], (Option.some.inj h).symm⟩
    · cases h
  next name vs =>
    split at h
    · exact ⟨name, _, (Option.some.inj h).symm⟩
    · cases h
  next => cases h

/-- The ways to the documents, in the order in which they are preferred. -/
inductive Chosen (kinds : IndexKinds) (ps : List Predicate) (sort : List SortKey) : Access → Prop
  | lookup {p : Predicate} {field : String} {keys : List Value} (part : p ∈ ps)
      (found : lookup? kinds p = some (.lookup field keys)) :
      Chosen kinds ps sort (.lookup field keys)
  | sorted {key : SortKey} {r : ValueRange} (noLookup : ∀ p ∈ ps, lookup? kinds p = none)
      (single : sort = [key]) (found : (ranges kinds ps).get? key.field = some r) :
      Chosen kinds ps sort (.range key.field r true (key.order == .desc))
  | least {name : String} {r : ValueRange} {rest : Keyed String ValueRange}
      (noLookup : ∀ p ∈ ps, lookup? kinds p = none)
      (unsorted : ∀ key, sort = [key] → (ranges kinds ps).get? key.field = none)
      (found : ranges kinds ps = (name, r) :: rest) :
      Chosen kinds ps sort (.range name r false false)
  | scan (noLookup : ∀ p ∈ ps, lookup? kinds p = none) (none : ranges kinds ps = []) :
      Chosen kinds ps sort .fullScan

theorem chosen_chooseAccess (p : Predicate) (sort : List SortKey) (kinds : IndexKinds) :
    Chosen kinds p.conjuncts sort (p.chooseAccess sort kinds) := by
  rw [chooseAccess]
  split
  next access hfound =>
    obtain ⟨q, hq, hlookup⟩ := List.exists_of_findSome?_eq_some hfound
    obtain ⟨field, keys, rfl⟩ := exists_lookup_of_lookup? hlookup
    exact .lookup hq hlookup
  next hnone =>
    have hlookup := List.findSome?_eq_none_iff.mp hnone
    extract_lets rs sorted
    cases hsorted : sorted with
    | some access =>
      simp only [sorted] at hsorted
      split at hsorted
      next key =>
        obtain ⟨r, hr, rfl⟩ := Option.map_eq_some_iff.mp hsorted
        exact .sorted hlookup rfl hr
      next => cases hsorted
    | none =>
      cases hrs : rs with
      | nil => exact .scan hlookup hrs
      | cons e rest =>
        refine .least hlookup (fun key hkey => ?_) hrs
        subst hkey
        exact Option.map_eq_none_iff.mp hsorted

theorem Chosen.get?_ranges {sort : List SortKey} {r : ValueRange} {ordered descending : Bool}
    (h : Chosen kinds ps sort (.range name r ordered descending)) :
    (ranges kinds ps).get? name = some r := by
  cases h with
  | sorted _ _ found => exact found
  | least _ _ found => rw [found, Keyed.get?, ReflOrd.compare_self]

/-- The range of an index that is chosen for a predicate admits a value exactly if the value stands
in every order that a part of the predicate asks of the field; and a range is chosen on each
ordered index whose field a part orders, when that field alone sorts and no part is looked up. -/
theorem chosen_range_is_intersection (p : Predicate) (kinds : IndexKinds) (name : String) :
    (∀ sort r ordered descending, p.chooseAccess sort kinds = .range name r ordered descending →
      kinds.get? name = some .btree ∧ (∃ op literal, Orders p.conjuncts name op literal) ∧
      ∀ v, r.Admits v ↔
        ∀ op literal, Orders p.conjuncts name op literal → op.holdsFor (compare v literal)) ∧
    ∀ order, (∀ q ∈ p.conjuncts, lookup? kinds q = none) → kinds.get? name = some .btree →
      (∃ op literal, Orders p.conjuncts name op literal) →
      ∃ r, p.chooseAccess [{ field := name, order }] kinds =
        .range name r true (order == .desc) := by
  constructor
  · intro sort r ordered descending h
    have hchosen := chosen_chooseAccess p sort kinds
    rw [h] at hchosen
    exact leftBy_of_get?_ranges hchosen.get?_ranges
  · intro order hlookup hkind horders
    have hleft := leftBy_ranges kinds p.conjuncts name
    cases hfound : (ranges kinds p.conjuncts).get? name with
    | none =>
      rw [hfound] at hleft
      obtain ⟨op, literal, hasked⟩ := horders
      exact absurd hasked (hleft hkind op literal)
    | some r =>
      have hchosen := chosen_chooseAccess p [{ field := name, order }] kinds
      generalize p.chooseAccess [{ field := name, order }] kinds = access at hchosen ⊢
      cases hchosen with
      | lookup part found =>
        rw [hlookup _ part] at found
        cases found
      | sorted _ single found =>
        cases single
        exact ⟨_, rfl⟩
      | least _ unsorted _ =>
        rw [unsorted _ rfl] at hfound
        cases hfound
      | scan _ hnone =>
        rw [hnone] at hfound
        cases hfound

/-- Five goes out under one spelling and is not taken in again under the other; a looser end on
either side of a tighter one adds nothing, and an end of another type leaves its own below it. -/
theorem chosen_range_of_spellings :
    let kinds : IndexKinds := [("n", .btree), ("s", .hash)]
    let five : Value := .float (.ofDecimal false 5 0)
    let parts : List Predicate := [.field "n" (.compare .gte (.int 2)),
      .field "s" (.compare .lt (.string "t")), .field "n" (.compare .gt (.int 5)),
      .field "n" (.compare .lte (.string "x")), .field "n" (.compare .gte five)]
    let r : ValueRange := { lower := .excluded (.int 5), upper := .included (.string "x") }
    (Predicate.all parts).chooseAccess [⟨"n", .desc⟩] kinds = .range "n" r true true ∧
      (∀ v, r.Admits v ↔ ∀ op literal, Orders parts "n" op literal →
        op.holdsFor (compare v literal)) ∧
      ¬ r.Admits five ∧ r.Admits (.string "a") ∧
      ∃ r, (Predicate.all parts).chooseAccess [⟨"n", .asc⟩] kinds = .range "n" r true false := by
  intro kinds five parts r
  have hranges : ranges kinds parts = [("n", r)] := by
    have hnarrowed : ((({ lower := .included (.int 2) } : ValueRange).narrow .gt
        (.int 5)).narrow .lte (.string "x")).narrow .gte five = r := by
      have htwo : tighter .lt (.included (.int 2)) (.excluded (.int 5)) = true := by
        decide +kernel
      have hfive : tighter .lt (.excluded (.int 5)) (.included five) = false := by decide +kernel
      simp only [ValueRange.narrow, ValueRange.above, ValueRange.below, tighter_unbounded, htwo,
        hfive, if_true, Bool.false_eq_true, if_false, r]
    rw [← hnarrowed]
    rfl
  have hlookup : ∀ q ∈ parts, lookup? kinds q = none := by
    simp only [parts, List.forall_mem_cons]
    exact ⟨rfl, rfl, rfl, rfl, rfl, nofun⟩
  have hchosen : (Predicate.all parts).chooseAccess [⟨"n", .desc⟩] kinds =
      .range "n" r true true := by
    rw [chooseAccess, conjuncts, hranges, List.findSome?_eq_none_iff.mpr hlookup]
    rfl
  obtain ⟨hexact, hplanned⟩ := chosen_range_is_intersection (.all parts) kinds "n"
  obtain ⟨hkind, horders, hadmits⟩ := hexact _ r true true hchosen
  refine ⟨hchosen, hadmits, ?_, ?_, hplanned .asc hlookup hkind horders⟩
  · rw [ValueRange.Admits]
    decide +kernel
  · rw [ValueRange.Admits]
    decide +kernel

end Predicate
end DocBase
