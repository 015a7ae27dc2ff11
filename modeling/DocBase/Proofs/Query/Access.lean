import DocBase.Proofs.Action
import DocBase.Proofs.Index
import DocBase.Proofs.Query.Bounds
import DocBase.Proofs.Query.Normal

/-! What a plan looks at: where an index stands for part of a predicate, the documents of
which the whole predicate holds have values that are asked of the index. -/
namespace DocBase
open Keyed Std

/-! ## Parts of predicates -/
namespace Predicate

mutual

/-- The tests of a predicate, with their fields. -/
def leaves : Predicate → List (String × Test)
  | const _ => []
  | field name t => [(name, t)]
  | all ps => leavesOf ps
  | any ps => leavesOf ps
  | not p => p.leaves

def leavesOf : List Predicate → List (String × Test)
  | [] => []
  | p :: rest => p.leaves ++ leavesOf rest

end

theorem leavesOf_eq (ps : List Predicate) : leavesOf ps = ps.flatMap leaves := by
  induction ps with
  | nil => rfl
  | cons p rest ih => rw [leavesOf, ih, List.flatMap_cons]

theorem leaves_subset {p : Predicate} {ps : List Predicate} (h : p ∈ ps) :
    p.leaves ⊆ leavesOf ps := by
  rw [leavesOf_eq]
  exact fun l hl => List.mem_flatMap.mpr ⟨p, h, hl⟩

theorem leavesOf_flatMap_subset {f : Predicate → List Predicate}
    (hf : ∀ p, leavesOf (f p) ⊆ p.leaves) (ps : List Predicate) :
    leavesOf (ps.flatMap f) ⊆ leavesOf ps := by
  intro l hl
  simp only [leavesOf_eq, List.mem_flatMap] at hl ⊢
  obtain ⟨q, ⟨p, hp, hq⟩, hl⟩ := hl
  exact ⟨p, hp, hf p (leaves_subset hq hl)⟩

theorem leavesOf_opened_subset (b : Bool) (p : Predicate) : leavesOf (opened b p) ⊆ p.leaves := by
  rcases opened_cases b p with ⟨c, rfl, hopened⟩ | ⟨inner, rfl, hopened⟩ | ⟨-, -, hopened⟩
  · rw [hopened]
    exact List.nil_subset _
  · rw [hopened]
    cases b <;> exact List.Subset.refl _
  · simp [hopened, leavesOf]

theorem leaves_joined (b : Bool) (ps : List Predicate) : (joined b ps).leaves = leavesOf ps := by
  match ps with
  | [] => rfl
  | [p] => simp [joined, leavesOf]
  | p :: q :: rest => cases b <;> rfl

theorem leaves_mkJunction_subset (b : Bool) (ps : List Predicate) :
    (mkJunction b ps).leaves ⊆ leavesOf ps := by
  by_cases h : const (!b) ∈ ps
  · rw [mkJunction_of_mem h]
    exact List.nil_subset _
  · rw [mkJunction_of_notMem h, leaves_joined]
    exact leavesOf_flatMap_subset (leavesOf_opened_subset b) ps

theorem leaves_mkNot (p : Predicate) : (mkNot p).leaves = p.leaves := by
  cases p <;> simp [mkNot, leaves]

mutual

theorem leaves_normalize_subset : ∀ p : Predicate, p.normalize.leaves ⊆ p.leaves
  | const _ => List.Subset.refl _
  | field _ _ => List.Subset.refl _
  | all ps => List.Subset.trans (leaves_mkJunction_subset true _) (leavesOf_normalizeList_subset ps)
  | any ps => List.Subset.trans (leaves_mkJunction_subset false _) (leavesOf_normalizeList_subset ps)
  | not p => by
    rw [normalize, leaves_mkNot]
    exact leaves_normalize_subset p

theorem leavesOf_normalizeList_subset : ∀ ps : List Predicate,
    leavesOf (normalizeList ps) ⊆ leavesOf ps
  | [] => List.Subset.refl _
  | p :: rest => by
    simp only [normalizeList, leavesOf]
    refine List.append_subset.mpr ⟨?_, ?_⟩
    · exact List.subset_append_of_subset_left _ (leaves_normalize_subset p)
    · exact List.subset_append_of_subset_right _ (leavesOf_normalizeList_subset rest)

end

/-- An order is only asked for against literals that have one. -/
def OrderedLiterals (ls : List (String × Test)) : Prop :=
  ∀ name op v, (name, Test.compare op v) ∈ ls → op.isOrdering → v.isOrdered

theorem OrderedLiterals.mono {ls ms : List (String × Test)} (h : OrderedLiterals ms)
    (hsub : ls ⊆ ms) : OrderedLiterals ls :=
  fun name op v hmem => h name op v (hsub hmem)

theorem OrderedLiterals.append {ls ms : List (String × Test)} (hl : OrderedLiterals ls)
    (hm : OrderedLiterals ms) : OrderedLiterals (ls ++ ms) := fun name op v hmem =>
  (List.mem_append.mp hmem).elim (hl name op v) (hm name op v)

theorem orderedLiterals_compile {name : String} {c : Condition} {t : Test}
    (h : c.compile name = .ok t) : OrderedLiterals [(name, t)] := by
  rintro _ op v hmem hop
  rw [List.mem_singleton, Prod.mk.injEq] at hmem
  obtain ⟨rfl, rfl⟩ := hmem
  cases c with
  | compare op' v' =>
    rw [Condition.compile] at h
    split at h
    · cases h
    next hordered =>
      cases h
      simpa [hop] using hordered
  | oneOf v' => cases v' <;> cases h
  | noneOf v' => cases v' <;> cases h
  | regex pattern =>
    rw [Condition.compile] at h
    split at h <;> cases h
  | present b => cases h
  | contains v' => cases h
  | startsWith s => cases h
  | endsWith s => cases h

mutual

theorem orderedLiterals_ofFilter : ∀ {f : Filter} {p : Predicate}, ofFilter f = .ok p →
    OrderedLiterals p.leaves
  | .field name c, p, h => by
    rw [ofFilter] at h
    obtain ⟨_, -, h⟩ := bind_eq_ok h
    obtain ⟨t, ht, h⟩ := bind_eq_ok h
    cases h
    exact orderedLiterals_compile ht
  | .all fs, p, h => by
    rw [ofFilter] at h
    obtain ⟨ps, hps, h⟩ := bind_eq_ok h
    cases h
    rw [leaves]
    exact orderedLiterals_ofFilters hps
  | .any fs, p, h => by
    rw [ofFilter] at h
    obtain ⟨ps, hps, h⟩ := bind_eq_ok h
    cases h
    rw [leaves]
    exact orderedLiterals_ofFilters hps
  | .not f, p, h => by
    rw [ofFilter] at h
    obtain ⟨q, hq, h⟩ := bind_eq_ok h
    cases h
    rw [leaves]
    exact orderedLiterals_ofFilter hq

theorem orderedLiterals_ofFilters : ∀ {fs : List Filter} {ps : List Predicate},
    ofFilters fs = .ok ps → OrderedLiterals (leavesOf ps)
  | [], ps, h => by
    cases h
    exact fun _ _ _ hmem => absurd hmem List.not_mem_nil
  | f :: rest, ps, h => by
    rw [ofFilters] at h
    obtain ⟨p, hp, h⟩ := bind_eq_ok h
    obtain ⟨qs, hqs, h⟩ := bind_eq_ok h
    cases h
    exact (orderedLiterals_ofFilter hp).append (orderedLiterals_ofFilters hqs)

end

theorem orderedLiterals_of_compile {f : Filter} {p : Predicate} (h : compile f = .ok p) :
    OrderedLiterals p.leaves := by
  obtain ⟨q, hq, rfl⟩ := map_eq_ok h
  exact (orderedLiterals_ofFilter hq).mono (leaves_normalize_subset q)

theorem conjunct_leaves_subset {p q : Predicate} (h : q ∈ p.conjuncts) :
    q.leaves ⊆ p.leaves := by
  cases p with
  | all ps => exact leaves_subset h
  | _ => rw [List.mem_singleton.mp h]; exact List.Subset.refl _

/-- All parts hold of what the whole holds of. -/
theorem holds_of_mem_conjuncts {p q : Predicate} {d : Document} (h : p.holds d)
    (hq : q ∈ p.conjuncts) : q.holds d := by
  cases p with
  | all ps =>
    rw [holds, holdsAll_iff] at h
    exact h q hq
  | _ => rw [List.mem_singleton.mp hq]; exact h

end Predicate

/-! ## Equal keys -/

/-- Values that are the same stand at the same place among the types. -/
theorem Value.typeRank_eq {v w : Value} (h : compare v w = .eq) : v.typeRank = w.typeRank := by
  have hle : v.typeRank ≤ w.typeRank := rank_le_of_compare fun hgt => by
    rw [show compare v w = .gt from hgt] at h; cases h
  have h : compare w v = .eq := OrientedCmp.eq_symm h
  have hge : w.typeRank ≤ v.typeRank := rank_le_of_compare fun hgt => by
    rw [show compare w v = .gt from hgt] at h; cases h
  exact Nat.le_antisymm hle hge

theorem Value.isIndexable_iff (v : Value) : v.isIndexable ↔ v.typeRank < 4 := by
  cases v <;> simp [isIndexable, typeRank]

theorem Value.isIndexable_of_rank {v w : Value} (hrank : v.typeRank = w.typeRank)
    (hv : v.isIndexable) : w.isIndexable := by
  rw [isIndexable_iff] at hv ⊢
  rwa [← hrank]

theorem Value.isIndexable_of_isOrdered {v : Value} (h : v.isOrdered) : v.isIndexable := by
  cases v <;> first | rfl | cases h

/-- Among the distinct keys one is left for each key. -/
theorem Predicate.exists_mem_distinct {vs : List Value} {v : Value} (hv : v ∈ vs) :
    ∃ w ∈ distinct vs, compare w v = .eq := by
  induction vs with
  | nil => cases hv
  | cons u rest ih =>
    rw [distinct]
    cases hrest : distinct rest with
    | nil =>
      rw [hrest] at ih
      rcases List.mem_cons.mp hv with rfl | hv
      · exact ⟨v, List.mem_singleton_self v, ReflOrd.compare_self⟩
      · obtain ⟨w, hw, -⟩ := ih hv
        cases hw
    | cons x more =>
      rw [hrest] at ih
      dsimp only
      split
      next hsame =>
        rw [Value.same_iff] at hsame
        rcases List.mem_cons.mp hv with rfl | hv
        · exact ⟨v, List.mem_cons_self, ReflOrd.compare_self⟩
        · obtain ⟨w, hw, hc⟩ := ih hv
          rcases List.mem_cons.mp hw with rfl | hw
          · exact ⟨u, List.mem_cons_self, TransCmp.eq_trans hsame hc⟩
          · exact ⟨w, List.mem_cons_of_mem _ hw, hc⟩
      next =>
        rcases List.mem_cons.mp hv with rfl | hv
        · exact ⟨v, List.mem_cons_self, ReflOrd.compare_self⟩
        · obtain ⟨w, hw, hc⟩ := ih hv
          exact ⟨w, List.mem_cons_of_mem _ hw, hc⟩

/-! ## What is looked at -/

/-- A field in which every document that the predicate holds of has a value to be indexed
that `ask` asks for. -/
def Predicate.AsksFor (p : Predicate) (field : String) (ask : Value → Prop) : Prop :=
  ∀ d, p.holds d → ∃ v, d.lookup field = some v ∧ v.isIndexable ∧ ask v

/-- Whatever the predicate holds of is found this way, by an index that there is and in
the order that is promised. -/
inductive Access.Covers (kinds : IndexKinds) (p : Predicate) (sort : List SortKey) :
    Access → Prop
  | fullScan : Covers kinds p sort .fullScan
  | lookup {field : String} {keys : List Value} (indexed : kinds.contains field)
      (asks : p.AsksFor field fun v => ∃ key ∈ keys, compare key v = .eq) :
      Covers kinds p sort (.lookup field keys)
  | range {field : String} {r : ValueRange} {ordered descending : Bool}
      (indexed : kinds.get? field = some .btree) (asks : p.AsksFor field r.Admits)
      (sorted : ordered → ∃ order, sort = [{ field, order }] ∧ descending = (order == .desc)) :
      Covers kinds p sort (.range field r ordered descending)

namespace Predicate
variable {kinds : IndexKinds}

theorem AsksFor.of_conjunct {p q : Predicate} (hq : q ∈ p.conjuncts) {field : String}
    {ask : Value → Prop} (h : q.AsksFor field ask) : p.AsksFor field ask :=
  fun d hd => h d (holds_of_mem_conjuncts hd hq)

theorem covers_lookup? {p : Predicate} {access : Access} (h : lookup? kinds p = some access)
    (sort : List SortKey) : access.Covers kinds p sort := by
  rw [lookup?.eq_def] at h
  split at h
  next name v =>
    split at h
    next hcond =>
      cases h
      refine .lookup hcond.1 fun d hd => ?_
      rw [holds, Test.holds, CompareOp.test, Option.any_eq_true] at hd
      obtain ⟨w, hw, hsame⟩ := hd
      rw [Value.same_iff] at hsame
      have hrank := Value.typeRank_eq hsame
      exact ⟨w, hw, Value.isIndexable_of_rank hrank.symm hcond.2, v, List.mem_singleton_self v,
        OrientedCmp.eq_symm hsame⟩
    next => cases h
  next name vs =>
    split at h
    next hcond =>
      cases h
      refine .lookup hcond.1 fun d hd => ?_
      rw [holds, Test.holds, bne_iff_ne, ne_eq, Bool.not_eq_false, Option.any_eq_true] at hd
      obtain ⟨w, hw, hany⟩ := hd
      rw [List.any_eq_true] at hany
      obtain ⟨u, hu, hsame⟩ := hany
      rw [Value.same_iff] at hsame
      obtain ⟨key, hkey, hc⟩ := exists_mem_distinct (List.mem_mergeSort.mpr hu)
      have hindexable := List.all_eq_true.mp hcond.2 u hu
      exact ⟨w, hw, Value.isIndexable_of_rank (Value.typeRank_eq hsame) hindexable, key, hkey,
        TransCmp.eq_trans hc hsame⟩
    next => cases h
  next => cases h

/-- An order that holds is one with a value of the same type as the literal. -/
theorem asksFor_of_ordering {name : String} {op : CompareOp} {literal : Value}
    (hop : op.isOrdering) (hliteral : literal.isOrdered) :
    (field name (.compare op literal)).AsksFor name fun v =>
      op.holdsFor (compare v literal) := by
  intro d hd
  have htest : ((d.lookup name).bind (·.compare? literal)).any op.holdsFor := by
    cases op with
    | eq => cases hop
    | ne => cases hop
    | _ => exact hd
  rw [Option.any_eq_true] at htest
  obtain ⟨o, ho, hholds⟩ := htest
  obtain ⟨v, hv, hcompare⟩ := Option.bind_eq_some_iff.mp ho
  rw [Value.compare?] at hcompare
  split at hcompare
  next hrank =>
    cases hcompare
    exact ⟨v, hv, Value.isIndexable_of_rank hrank.symm (Value.isIndexable_of_isOrdered hliteral),
      hholds⟩
  next => cases hcompare

theorem asksFor_range {p : Predicate} (h : OrderedLiterals p.leaves) {name : String}
    {r : ValueRange} (hr : (ranges kinds p.conjuncts).get? name = some r) :
    p.AsksFor name r.Admits := by
  have hasks : ∀ {op literal}, Orders p.conjuncts name op literal →
      p.AsksFor name fun v => op.holdsFor (compare v literal) := by
    rintro op literal ⟨hop, hmem⟩
    have hliteral : literal.isOrdered :=
      h name op literal (conjunct_leaves_subset hmem (List.mem_singleton_self _)) hop
    exact (asksFor_of_ordering hop hliteral).of_conjunct hmem
  obtain ⟨-, ⟨op, literal, horders⟩, hadmits⟩ := leftBy_of_get?_ranges hr
  intro d hd
  obtain ⟨v, hv, hindexable, -⟩ := hasks horders d hd
  refine ⟨v, hv, hindexable, (hadmits v).mpr fun op' literal' horders' => ?_⟩
  obtain ⟨w, hw, -, hholds⟩ := hasks horders' d hd
  rw [hv] at hw
  cases hw
  exact hholds

theorem covers_chooseAccess {p : Predicate} (h : OrderedLiterals p.leaves)
    (sort : List SortKey) : (p.chooseAccess sort kinds).Covers kinds p sort := by
  have hchosen := chosen_chooseAccess p sort kinds
  generalize p.chooseAccess sort kinds = access at hchosen ⊢
  cases hchosen with
  | lookup part found =>
    cases covers_lookup? found sort with
    | lookup indexed asks => exact .lookup indexed (asks.of_conjunct part)
  | sorted _ single found =>
    exact .range (leftBy_of_get?_ranges found).1 (asksFor_range h found) fun _ => ⟨_, single, rfl⟩
  | least noLookup unsorted found =>
    have hget := (Chosen.least noLookup unsorted found).get?_ranges
    exact .range (leftBy_of_get?_ranges hget).1 (asksFor_range h hget) nofun
  | scan => exact .fullScan

end Predicate

/-! ## Plans -/

def Query.compiled (q : Query) : Except QueryFault Predicate :=
  match q.filter with
  | some f => Predicate.compile f
  | none => .ok (.const true)

/-- The predicate of a query, once all that does not depend on indexes is checked. -/
def Query.predicate (q : Query) : Except QueryFault Predicate := do
  let p ← q.compiled
  q.sort.forM fun key => checkField key.field
  ((q.projection.map Projection.fields).getD []).forM checkField
  return p

def Query.planned (q : Query) (collection : String) (kinds : IndexKinds) (p : Predicate) : Plan :=
  { collection
    predicate := p
    access := if p.isNever then .fullScan else p.chooseAccess q.sort kinds
    sort := q.sort
    skip := q.skip
    limit := q.limit
    projection := q.projection }

theorem Plan.compile_eq (collection : String) (q : Query) (kinds : IndexKinds) :
    Plan.compile collection q kinds = q.predicate.map (q.planned collection kinds) := by
  rw [compile, Query.predicate, Query.compiled]
  change _ = q.planned collection kinds <$> _
  cases q.filter with
  | none => simp only [map_bind, map_pure]; rfl
  | some f => simp only [map_bind, map_pure]; rfl

theorem Query.orderedLiterals {q : Query} {p : Predicate} (h : q.predicate = .ok p) :
    Predicate.OrderedLiterals p.leaves := by
  rw [Query.predicate] at h
  obtain ⟨p', hp', h⟩ := bind_eq_ok h
  obtain ⟨_, -, h⟩ := bind_eq_ok h
  obtain ⟨_, -, h⟩ := bind_eq_ok h
  cases h
  rw [compiled] at hp'
  split at hp'
  · exact Predicate.orderedLiterals_of_compile hp'
  · cases hp'
    exact fun _ _ _ hmem => absurd hmem List.not_mem_nil

theorem Query.covers_planned {q : Query} {p : Predicate} (h : q.predicate = .ok p)
    (collection : String) (kinds : IndexKinds) :
    (q.planned collection kinds p).access.Covers kinds p q.sort := by
  rw [planned]
  dsimp only
  split
  · exact .fullScan
  · exact Predicate.covers_chooseAccess (orderedLiterals h) q.sort

end DocBase
