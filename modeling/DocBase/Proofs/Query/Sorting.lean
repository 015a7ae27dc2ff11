import Mathlib.Data.List.Nodup
import DocBase.Proofs.Query.Pulls

/-! Documents in the order of sort keys, and plans that sort what they read. The keys and then the
identifiers make a total preorder of all documents, in which only documents of one identifier tie,
so that the order in which records are delivered leaves no trace. -/
namespace DocBase

/-! ## Keys -/

variable {keys : List SortKey} {a b : Document}

/-- The first key under which two documents differ decides. -/
theorem compareDocuments_append {first rest : List SortKey}
    (htie : ∀ k ∈ first, k.compare a b = .eq) :
    compareDocuments (first ++ rest) a b = compareDocuments rest a b := by
  induction first with
  | nil => rfl
  | cons k first ih =>
    obtain ⟨hk, hfirst⟩ := List.forall_mem_cons.mp htie
    rw [List.cons_append, compareDocuments, hk, ih hfirst]
    rfl

/-- A missing field comes before all values, and after them where the key is descending. -/
theorem SortKey.compare_of_missing {k : SortKey} (ha : a.lookup k.field = none)
    (hb : (b.lookup k.field).isSome) :
    k.compare a b = match k.order with
      | .asc => .lt
      | .desc => .gt := by
  obtain ⟨v, hv⟩ := Option.isSome_iff_exists.mp hb
  rw [SortKey.compare, ha, hv]
  cases k.order <;> rfl

/-- What arrangement documents come in does not matter to sorting them. -/
theorem sortDocuments_eq_of_perm {docs others : List Document} (hperm : others.Perm docs)
    (hids : (docs.map (·.id)).Nodup) : sortDocuments keys others = sortDocuments keys docs := by
  have hsorted : (sortDocuments keys docs).Perm others :=
    (List.mergeSort_perm docs _).trans hperm.symm
  exact sortDocuments_eq
    (fun a ha b hb => List.inj_on_of_nodup_map hids (hperm.subset ha) (hperm.subset hb))
    hsorted (inOrder_sortDocuments keys docs)

/-! ## Delivered records -/

/-- All is read when each record gives its document. -/
theorem readAll_eq_iff {items : List (Except StoreError (String × Bytes))}
    {docs : List Document} :
    readAll items = ⟨docs, none⟩ ↔
      List.Forall₂ (fun item d => readDocument (some item) = .ok (some d)) items docs := by
  induction items generalizing docs with
  | nil => simp [readAll, eq_comm]
  | cons item rest ih =>
    rw [List.forall₂_cons_left_iff]
    cases item with
    | error e => simp [readAll, readDocument]
    | ok entry =>
      obtain ⟨id, record⟩ := entry
      cases hdecode : Document.decode record with
      | error e => simp [readAll, readDocument, hdecode]
      | ok d =>
        have hread : readDocument (some (.ok (id, record))) = .ok (some d) := by
          rw [readDocument, hdecode]
        simp only [readAll, hdecode, hread, ← ih]
        generalize readAll rest = found
        obtain ⟨others, failure⟩ := found
        constructor
        · rintro ⟨⟩
          exact ⟨d, others, rfl, rfl, rfl⟩
        · rintro ⟨_, _, ⟨⟩, ⟨⟩, rfl⟩
          rfl

/-- Where no record fails to be read, the documents are the same in whichever order they come. -/
theorem readAll_perm {items others : List (Except StoreError (String × Bytes))}
    (hperm : others.Perm items) (hread : (readAll items).failure = none) :
    ∃ docs, readAll others = ⟨docs, none⟩ ∧ docs.Perm (readAll items).docs := by
  have hitems : readAll items = ⟨(readAll items).docs, none⟩ :=
    congrArg (Results.mk (readAll items).docs) hread
  obtain ⟨docs, hdocs, hpermDocs⟩ := List.perm_comp_forall₂ hperm (readAll_eq_iff.mp hitems)
  exact ⟨docs, readAll_eq_iff.mpr hdocs, hpermDocs⟩

/-- A plan that sorts yields the same from records that come in another order. -/
theorem Plan.results_eq_of_perm {p : Plan} (hsort : p.needsSort)
    {items others : List (Except StoreError (String × Bytes))} (hperm : others.Perm items)
    (hread : (readAll items).failure = none) (hids : ((readAll items).docs.map (·.id)).Nodup) :
    p.results others = p.results items := by
  obtain ⟨docs, hothers, hdocs⟩ := readAll_perm hperm hread
  have hdistinct : (((readAll items).docs.filter p.predicate.holds).map (·.id)).Nodup :=
    (List.filter_sublist.map _).nodup hids
  rw [Plan.results, Plan.results]
  split
  · rfl
  · simp only [hothers, Results.filter, Results.sort, hread,
      sortDocuments_eq_of_perm (hdocs.filter p.predicate.holds) hdistinct]

/-- By any keys, whichever fields they name and in whichever order, documents are in a total
preorder, a missing field ranks below all values or, descending, above them, and only documents
of one identifier tie. Documents with identifiers of their own therefore have one arrangement that
is in order, and a plan that sorts yields the same in whichever order the records reach it. -/
theorem sorting_leaves_no_choice (keys : List SortKey) :
    (∀ a, compareDocuments keys a a = .eq) ∧
    (∀ a b, compareDocuments keys b a = (compareDocuments keys a b).swap) ∧
    (∀ a b c, compareDocuments keys a b ≠ .gt → compareDocuments keys b c ≠ .gt →
      compareDocuments keys a c ≠ .gt) ∧
    (∀ a b, compareDocuments keys a b = .eq → a.id = b.id) ∧
    (∀ first k rest a b, keys = first ++ k :: rest → (∀ j ∈ first, j.compare a b = .eq) →
      a.lookup k.field = none → (b.lookup k.field).isSome →
      compareDocuments keys a b = match k.order with
        | .asc => .lt
        | .desc => .gt) ∧
    (∀ docs sorted, (docs.map (·.id)).Nodup →
      (sorted.Perm docs ∧ InOrder keys sorted ↔ sorted = sortDocuments keys docs)) ∧
    ∀ (p : Plan) {α β σ τ : Type} [Source α σ] [Source β τ] (pending : List α) (s : σ)
      (others : List β) (t : τ), p.needsSort →
      (Source.items others t).Perm (Source.items pending s) →
      (readAll (Source.items pending s)).failure = none →
      ((readAll (Source.items pending s)).docs.map (·.id)).Nodup →
      ∀ n, ((QueryCursor.run p others).pulls n t).1 =
        ((QueryCursor.run p pending).pulls n s).1 := by
  refine ⟨fun a => Std.ReflCmp.compare_self, fun a b => Std.OrientedCmp.eq_swap,
    fun a b c hab hbc => ?transitive, fun a b => id_eq_of_compareDocuments,
    fun first k rest a b hkeys htie ha hb => ?missing,
    fun docs sorted hids => ⟨fun h => ?unique, fun h => ?sorts⟩,
    fun p α β σ τ _ _ pending s others t hsort hperm hread hids n => ?delivered⟩
  case transitive =>
    exact bne_iff_ne.mp (bne_gt_trans (compareDocuments keys) a b c (bne_iff_ne.mpr hab)
      (bne_iff_ne.mpr hbc))
  case missing =>
    rw [hkeys, compareDocuments_append htie, compareDocuments, SortKey.compare_of_missing ha hb]
    cases k.order <;> rfl
  case unique =>
    exact (sortDocuments_eq (fun a ha b hb => List.inj_on_of_nodup_map hids ha hb) h.1 h.2).symm
  case sorts =>
    rw [h]
    exact ⟨List.mergeSort_perm docs _, inOrder_sortDocuments keys docs⟩
  case delivered =>
    rw [(QueryCursor.pulls_due n (QueryCursor.run p others) t).1,
      (QueryCursor.pulls_due n (QueryCursor.run p pending) s).1, QueryCursor.due_run,
      QueryCursor.due_run, Plan.results_eq_of_perm hsort hperm hread hids]

/-- Three items, two of the same rank, one of which has no price. -/
def shelf : List Document :=
  [{ id := some "p", fields := [("price", .int 3), ("rank", .int 2)] },
    { id := some "q", fields := [("rank", .float (.ofDecimal false 2 0))] },
    { id := some "r", fields := [("price", .null), ("rank", .float (.ofDecimal false 25 (-1)))] }]

/-- By descending rank and then by price, and the same from either end of the shelf. -/
theorem sorting_a_shelf :
    let p : Plan :=
      { collection := "shelf", predicate := .const true, access := .fullScan
        sort := [⟨"rank", .desc⟩, ⟨"price", .asc⟩], skip := 0, limit := none, projection := none }
    let records := shelf.map fun d => Except.ok (ε := StoreError) (d.id.getD "", d.encode)
    shelf.reverse = sortDocuments p.sort shelf ∧
      ∀ n, ((QueryCursor.run p records.reverse).pulls n ()).1 =
        ((QueryCursor.run p records).pulls n ()).1 := by
  intro p records
  obtain ⟨-, -, -, -, -, hunique, hpulls⟩ := sorting_leaves_no_choice p.sort
  constructor
  · have horder : InOrder p.sort shelf.reverse := by
      rw [InOrder]
      decide +kernel
    exact (hunique shelf shelf.reverse (by decide)).mp ⟨shelf.reverse_perm, horder⟩
  · have hdelivered : (Source.items records.reverse ()).Perm (Source.items records ()) := by
      rw [Source.items_given, Source.items_given]
      exact records.reverse_perm
    have hread : (readAll (Source.items records ())).failure = none := by decide +kernel
    have hids : ((readAll (Source.items records ())).docs.map (·.id)).Nodup := by decide +kernel
    exact hpulls p records () records.reverse () rfl hdelivered hread hids

end DocBase
