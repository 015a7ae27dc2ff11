import DocBase.Proofs.Text.ByteOrder
import DocBase.Proofs.Value.TotalOrder
import DocBase.Store.Range

/-! A walk over ascending identifiers visits exactly the members of its range. The members of a
range stand together: all that is above its lower end and before a member is a member. So the walk
may stop at the first identifier past the range, and nothing that it leaves out is a member. -/
namespace DocBase
open Std

/-! ## Lists that pass a test from one place on, or up to one -/

section
variable {α : Type} {p : α → Bool} {l : List α}

theorem dropWhile_eq_filter (h : l.Pairwise fun a b => p a → p b) :
    (l.dropWhile fun a => !p a) = l.filter p := by
  induction l with
  | nil => rfl
  | cons a l ih =>
    obtain ⟨ha, hl⟩ := List.pairwise_cons.mp h
    cases hp : p a with
    | true =>
      have hall : l.filter p = l := List.filter_eq_self.mpr fun b hb => ha b hb hp
      simp [hp, hall]
    | false => simp [hp, ih hl]

theorem takeWhile_eq_filter (h : l.Pairwise fun a b => p b → p a) :
    l.takeWhile p = l.filter p := by
  induction l with
  | nil => rfl
  | cons a l ih =>
    obtain ⟨ha, hl⟩ := List.pairwise_cons.mp h
    cases hp : p a with
    | true => simp [hp, ih hl]
    | false =>
      have hnone : l.filter p = [] := by
        refine List.filter_eq_nil_iff.mpr ?_
        intro b hb hpb
        rw [ha b hb hpb] at hp
        cases hp
      simp [hp, hnone]

theorem eq_false_of_mem_dropWhile (h : l.Pairwise fun a b => p b → p a) {a : α}
    (ha : a ∈ l.dropWhile p) : p a = false := by
  have hfails : l.Pairwise fun a b => (!p a) = true → (!p b) = true := by
    refine h.imp ?_
    intro a b hab hpa
    rw [Bool.not_eq_true'] at hpa ⊢
    exact Bool.eq_false_iff.mpr fun hpb => Bool.eq_false_iff.mp hpa (hab hpb)
  have hdrop := dropWhile_eq_filter hfails
  simp only [Bool.not_not] at hdrop
  rw [hdrop] at ha
  simpa using (List.mem_filter.mp ha).2

end

/-! ## Texts with a common beginning -/

/-- What lies between a text and one that begins with it begins with it too. -/
theorem prefix_of_between {p x y : List Char} (hpx : ¬ x < p) (hxy : x < y) (hpy : p <+: y) :
    p <+: x := by
  induction p generalizing x y with
  | nil => exact List.nil_prefix
  | cons c p ih =>
    obtain ⟨rest, rfl⟩ := hpy
    cases x with
    | nil => exact absurd (List.nil_lt_cons c p) hpx
    | cons d x =>
      rw [List.cons_append, List.cons_lt_cons_iff] at hxy
      rw [List.cons_lt_cons_iff] at hpx
      rcases hxy with hd | ⟨rfl, hxy⟩
      · exact absurd (Or.inl hd) hpx
      · have hpx' : ¬ x < p := fun h => hpx (Or.inr ⟨rfl, h⟩)
        exact List.cons_prefix_cons.mpr ⟨rfl, ih hpx' hxy (List.prefix_append p rest)⟩

theorem toList_lt_of_compare {a b : String} (h : compare a b = .lt) : a.toList < b.toList :=
  String.lt_iff_toList_lt.mp (compareOfLessAndEq_eq_lt.mp h)

namespace ScanRange

/-- A walk that has left a range never comes back to it. -/
theorem notPast_of_lt (r : ScanRange) {a b : String} (hlower : r.lowerBound.admitsAbove a)
    (hab : compare a b = .lt) (hb : r.notPast b) : r.notPast a := by
  cases r with
  | all => rfl
  | prefixed p =>
    simp only [lowerBound, Bound.admitsAbove, bne_iff_ne, ne_eq] at hlower
    simp only [notPast, List.isPrefixOf_iff_prefix] at hb ⊢
    refine prefix_of_between ?_ (toList_lt_of_compare hab) hb
    intro hlt
    exact hlower (compareOfLessAndEq_eq_lt.mpr (String.lt_iff_toList_lt.mpr hlt))
  | between start stop =>
    refine Bound.admitsBelow_mono ?_ hb
    rw [hab]
    decide

variable {ids : List String} (r : ScanRange)

theorem pairwise_admitsAbove (h : ids.Pairwise fun a b => compare a b = .lt) :
    ids.Pairwise fun a b => r.lowerBound.admitsAbove a → r.lowerBound.admitsAbove b := by
  refine h.imp ?_
  intro a b hab
  refine Bound.admitsAbove_mono ?_
  rw [hab]
  exact nofun

theorem dropWhile_below_eq_filter (h : ids.Pairwise fun a b => compare a b = .lt) :
    (ids.dropWhile fun id => !r.lowerBound.admitsAbove id) =
      ids.filter fun id => r.lowerBound.admitsAbove id :=
  dropWhile_eq_filter (r.pairwise_admitsAbove h)

theorem pairwise_notPast (h : ids.Pairwise fun a b => compare a b = .lt) :
    (ids.dropWhile fun id => !r.lowerBound.admitsAbove id).Pairwise fun a b =>
      r.notPast b → r.notPast a := by
  rw [r.dropWhile_below_eq_filter h]
  refine (h.sublist List.filter_sublist).imp_of_mem ?_
  intro a b ha _ hab
  exact r.notPast_of_lt (List.mem_filter.mp ha).2 hab

/-- The walk from the lower end until the range is left passes over no member. -/
theorem walk_eq_filter (h : ids.Pairwise fun a b => compare a b = .lt) :
    r.walk ids = ids.filter r.contains := by
  rw [walk, takeWhile_eq_filter (r.pairwise_notPast h), r.dropWhile_below_eq_filter h,
    List.filter_filter]
  exact List.filter_congr fun id _ => Bool.and_comm _ _

/-- What a walk leaves out comes before the lower end, or is past the range to the last. -/
theorem walk_between (h : ids.Pairwise fun a b => compare a b = .lt) :
    ∃ before after, ids = before ++ r.walk ids ++ after ∧
      (∀ id ∈ before, r.lowerBound.admitsAbove id = false) ∧
      ∀ id ∈ after, r.notPast id = false := by
  let within := ids.dropWhile fun id => !r.lowerBound.admitsAbove id
  refine ⟨ids.takeWhile fun id => !r.lowerBound.admitsAbove id, within.dropWhile r.notPast,
    ?_, fun id hid => ?_, fun id hid => ?_⟩
  · rw [List.append_assoc, walk, List.takeWhile_append_dropWhile, List.takeWhile_append_dropWhile]
  · simpa using List.mem_takeWhile_imp hid
  · exact eq_false_of_mem_dropWhile (r.pairwise_notPast h) hid

end ScanRange

/-! ## Ranges of bytes -/

namespace Bound

/-- As a lower end for the bytes of a text. -/
def LowerFor : Bound String → List UInt8 → Prop
  | unbounded, _ => True
  | included s, bytes => utf8Bytes s ≤ bytes
  | excluded s, bytes => utf8Bytes s < bytes

/-- As an upper end for the bytes of a text. -/
def UpperFor : Bound String → List UInt8 → Prop
  | unbounded, _ => True
  | included s, bytes => bytes ≤ utf8Bytes s
  | excluded s, bytes => bytes < utf8Bytes s

theorem admitsAbove_iff_lowerFor (b : Bound String) (s : String) :
    b.admitsAbove s ↔ b.LowerFor (utf8Bytes s) := by
  cases b <;>
    simp only [admitsAbove, LowerFor, bne_iff_ne, beq_iff_eq, ne_eq, List.not_lt,
      compare_eq_lt_iff_utf8Bytes, compare_eq_gt_iff_utf8Bytes]

theorem admitsBelow_iff_upperFor (b : Bound String) (s : String) :
    b.admitsBelow s ↔ b.UpperFor (utf8Bytes s) := by
  cases b <;>
    simp only [admitsBelow, UpperFor, bne_iff_ne, beq_iff_eq, ne_eq, List.not_lt,
      compare_eq_lt_iff_utf8Bytes, compare_eq_gt_iff_utf8Bytes]

end Bound

namespace ScanRange

/-- The bytes of the identifiers in a range. -/
def Spans : ScanRange → List UInt8 → Prop
  | all, _ => True
  | prefixed p, bytes => utf8Bytes p <+: bytes
  | between start stop, bytes => start.LowerFor bytes ∧ stop.UpperFor bytes

theorem contains_iff_spans (r : ScanRange) (id : String) :
    r.contains id ↔ r.Spans (utf8Bytes id) := by
  rw [contains, Bool.and_eq_true]
  cases r with
  | all => exact iff_of_true ⟨rfl, rfl⟩ trivial
  | between start stop =>
    exact and_congr (start.admitsAbove_iff_lowerFor id) (stop.admitsBelow_iff_upperFor id)
  | prefixed p =>
    -- what begins with a text does not come before it
    have hlower : utf8Bytes p <+: utf8Bytes id → (Bound.included p).admitsAbove id := by
      intro h
      rw [Bound.admitsAbove_iff_lowerFor]
      exact h.le
    rw [lowerBound, notPast, List.isPrefixOf_iff_prefix, ← utf8Bytes_prefix_iff]
    exact and_iff_right_of_imp hlower

/-- The search between the lower end and no upper one is never refused, and the walk is through
what it finds. -/
theorem range?_lowerBound {α : Type} (r : ScanRange) {m : Keyed String α} (hm : m.Ascending) :
    (m.range? r.lowerBound .unbounded).map (fun found => found.keys.takeWhile r.notPast) =
      some (r.walk m.keys) := by
  have hfound : m.range? r.lowerBound .unbounded =
      some (m.filter fun e => r.lowerBound.admitsAbove e.1) := by
    have hnever : r.lowerBound.reversed .unbounded = false := by cases r.lowerBound <;> rfl
    simp [Keyed.range?, hnever, Bound.admitsBelow]
  rw [hfound, Option.map_some, walk, r.dropWhile_below_eq_filter (Keyed.pairwise_keys hm),
    Keyed.keys, Keyed.keys, List.filter_map]
  rfl

/-- Whatever its ends, a range is searched for in an ordered map without refusal, and the walk
visits its members: the keys whose bytes are in the range, in ascending order of their bytes.
The keys left out come before the lower end, or are past the range to the last of them. -/
theorem walk_visits_members {α : Type} (r : ScanRange) {m : Keyed String α} (hm : m.Ascending) :
    (m.range? r.lowerBound .unbounded).map (fun found => found.keys.takeWhile r.notPast) =
        some (r.walk m.keys) ∧
      r.walk m.keys = m.keys.filter r.contains ∧
      (∀ id, r.contains id ↔ r.Spans (utf8Bytes id)) ∧
      (r.walk m.keys).Pairwise (fun a b => utf8Bytes a < utf8Bytes b) ∧
      ∃ before after, m.keys = before ++ r.walk m.keys ++ after ∧
        (∀ id ∈ before, r.lowerBound.admitsAbove id = false) ∧
        ∀ id ∈ after, r.notPast id = false := by
  have hkeys := Keyed.pairwise_keys hm
  have hmembers := r.walk_eq_filter hkeys
  refine ⟨r.range?_lowerBound hm, hmembers, r.contains_iff_spans, ?_, r.walk_between hkeys⟩
  rw [hmembers]
  exact (hkeys.sublist List.filter_sublist).imp compare_eq_lt_iff_utf8Bytes.mp

/-- An accented letter comes after all plain ones, and a range may end before it begins. -/
theorem walk_visits_accented :
    let m : Keyed String Nat := [("a", 0), ("z", 1), ("é", 2), ("éa", 3), ("ê", 4)]
    let crossed := ScanRange.between (.excluded "é") (.included "z")
    m.Ascending ∧ (ScanRange.prefixed "é").walk m.keys = ["é", "éa"] ∧
      ["é", "éa"].Pairwise (fun a b => utf8Bytes a < utf8Bytes b) ∧
      utf8Bytes "é" <+: utf8Bytes "éa" ∧
      (m.range? crossed.lowerBound .unbounded).map (fun found =>
        found.keys.takeWhile crossed.notPast) = some [] := by
  intro m crossed
  have hm : m.Ascending := by
    rw [Keyed.Ascending]
    decide +kernel
  obtain ⟨-, hmembers, hspans, hascending, -⟩ := (ScanRange.prefixed "é").walk_visits_members hm
  obtain ⟨hsearch, hnone, -⟩ := crossed.walk_visits_members hm
  have hfound : m.keys.filter (ScanRange.prefixed "é").contains = ["é", "éa"] := by decide +kernel
  rw [hfound] at hmembers
  rw [hmembers] at hascending
  have hempty : m.keys.filter crossed.contains = [] := by decide +kernel
  rw [hnone, hempty] at hsearch
  exact ⟨hm, hmembers, hascending, (hspans "éa").mp (by decide +kernel), hsearch⟩

end ScanRange
end DocBase
