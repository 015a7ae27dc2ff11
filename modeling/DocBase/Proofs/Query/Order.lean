import DocBase.Proofs.Value.TotalOrder
import DocBase.Query.Filter

/-! Sorting leaves no choice: documents with identifiers of their own have one order under
any sort keys, so that any way to put them in order gives the same list. -/
namespace DocBase
open Std

theorem compareFound_eq (a b : Option Value) : compareFound a b = compare a b := by
  cases a <;> cases b <;> rfl

theorem compareIds_eq (a b : Option String) : compareIds a b = compare a b := by
  cases a <;> cases b <;> rfl

instance (k : SortKey) : TransCmp k.compare := by
  have hasc : TransCmp fun a b : Document => compare (a.lookup k.field) (b.lookup k.field) :=
    inferInstanceAs (TransCmp (compareOn fun d : Document => d.lookup k.field))
  have hkey : k.compare = match k.order with
      | .asc => fun a b => compare (a.lookup k.field) (b.lookup k.field)
      | .desc => fun a b => compare (b.lookup k.field) (a.lookup k.field) := by
    funext a b
    rw [SortKey.compare]
    cases k.order with
    | asc => exact compareFound_eq _ _
    | desc => simp only [compareFound_eq]; exact OrientedCmp.eq_swap.symm
  rw [hkey]
  cases k.order with
  | asc => exact hasc
  | desc => exact TransCmp.opposite

instance transCmp_compareDocuments : ∀ keys : List SortKey, TransCmp (compareDocuments keys)
  | [] => by
    have hids : compareDocuments [] = fun a b => compare a.id b.id := by
      funext a b; exact compareIds_eq _ _
    rw [hids]
    exact inferInstanceAs (TransCmp (compareOn fun d : Document => d.id))
  | k :: rest => by
    have := transCmp_compareDocuments rest
    exact inferInstanceAs (TransCmp (compareLex k.compare (compareDocuments rest)))

theorem id_eq_of_compareDocuments {keys : List SortKey} {a b : Document}
    (h : compareDocuments keys a b = .eq) : a.id = b.id := by
  induction keys with
  | nil =>
    rw [compareDocuments, compareIds_eq] at h
    exact LawfulEqOrd.eq_of_compare h
  | cons k rest ih =>
    rw [compareDocuments] at h
    exact ih (Ordering.then_eq_eq.mp h).2

/-- No document comes before one that it has to follow. -/
def InOrder (keys : List SortKey) (docs : List Document) : Prop :=
  docs.Pairwise fun a b => compareDocuments keys a b ≠ .gt

theorem inOrder_sortDocuments (keys : List SortKey) (docs : List Document) :
    InOrder keys (sortDocuments keys docs) :=
  pairwise_mergeSort_ne_gt (compareDocuments keys) docs

/-- Put in order, and what was in order already is not rearranged. -/
structure Sorts (keys : List SortKey) (docs sorted : List Document) : Prop where
  perm : sorted.Perm docs
  inOrder : InOrder keys sorted
  stable : ∀ part, InOrder keys part → part.Sublist docs → part.Sublist sorted

theorem sorts_sortDocuments (keys : List SortKey) (docs : List Document) :
    Sorts keys docs (sortDocuments keys docs) := by
  refine ⟨List.mergeSort_perm docs _, inOrder_sortDocuments keys docs, fun part hpart hsub => ?_⟩
  refine List.sublist_mergeSort (bne_gt_trans (compareDocuments keys))
    (bne_gt_total (compareDocuments keys)) (hpart.imp fun h => ?_) hsub
  exact bne_iff_ne.mpr h

/-- Documents in order are what sorting them in any arrangement gives. -/
theorem sortDocuments_eq {keys : List SortKey} {docs sorted : List Document}
    (hids : ∀ a ∈ docs, ∀ b ∈ docs, a.id = b.id → a = b) (hperm : sorted.Perm docs)
    (horder : InOrder keys sorted) : sortDocuments keys docs = sorted := by
  have hsort : (sortDocuments keys docs).Perm docs := List.mergeSort_perm docs _
  have hantisymm : ∀ a b, a ∈ sortDocuments keys docs → b ∈ sorted →
      compareDocuments keys a b ≠ .gt → compareDocuments keys b a ≠ .gt → a = b :=
    fun a b ha hb hab hba => hids a (hsort.subset ha) b (hperm.subset hb)
      (id_eq_of_compareDocuments (eq_of_ne_gt_of_ne_gt hab hba))
  exact List.Perm.eq_of_pairwise hantisymm (inOrder_sortDocuments keys docs) horder
    (hsort.trans hperm.symm)

end DocBase
