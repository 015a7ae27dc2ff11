import DocBase.Proofs.Collection.Upkeep

/-! The answer to a query depends on the records alone. Whatever was changed and indexed,
indexes hold the documents that the records decode to, and so what a query finds through
one of them is what it finds on a walk over all records. -/
namespace DocBase
open Keyed

variable {σ : Type} [RecordStore σ] [LawfulStore σ]

/-! ## Indexes -/

/-- An index over the documents that were written, or decoded when it was created. -/
structure Index.Follows (ix : Index) (l : Ledger σ) : Prop where
  sound : ix.Sound
  absent : ∀ id, (LawfulStore.records l.collection.store).get? id = none →
    ix.keyOf.get? id = none
  stored : ∀ id record, (LawfulStore.records l.collection.store).get? id = some record →
    ∃ d, (l.written id = some d ∨ Document.decode record = .ok d) ∧
      ix.keyOf.get? id = ix.key? d

structure Ledger.InStep (l : Ledger σ) : Prop where
  ready : LawfulStore.Ready l.collection.store
  ascending : Ascending l.collection.indexes
  indexed : ∀ field ix, l.collection.indexes.get? field = some ix →
    ix.field = field ∧ ix.Follows l

variable {l : Ledger σ}

theorem Index.follows_iff_tracks {ix : Index} : ix.Follows l ↔
    ix.Tracks (LawfulStore.records l.collection.store) l.written :=
  ⟨fun h => ⟨h.sound, h.absent, h.stored⟩, fun h => ⟨h.sound, h.absent, h.stored⟩⟩

namespace Ledger.InStep

theorem iff_upkept : l.InStep ↔ @Upkept σ _ (LawfulStore.fallible σ) (fun _ => True) l := by
  let _ := LawfulStore.fallible σ
  constructor
  · refine fun h => ⟨h.ready, h.ascending, fun field ix hix => ?_⟩
    obtain ⟨hfield, hfollows⟩ := h.indexed field ix hix
    exact ⟨trivial, hfield, Index.follows_iff_tracks.mp hfollows⟩
  · refine fun h => ⟨h.ready, h.ascending, fun field ix hix => ?_⟩
    obtain ⟨-, hfield, htracks⟩ := h.indexed field ix hix
    exact ⟨hfield, Index.follows_iff_tracks.mpr htracks⟩

theorem apply (h : l.InStep) (change : Change) : (l.apply change).InStep := by
  let _ := LawfulStore.fallible σ
  rw [← Ledger.call_toCall h.ready]
  exact iff_upkept.mpr ((iff_upkept.mp h).call (fun _ _ => trivial) change.toCall)

theorem applyAll (h : l.InStep) (changes : List Change) : (l.applyAll changes).InStep :=
  List.foldlRecOn (motive := Ledger.InStep) changes Ledger.apply h
    fun _ hl change _ => hl.apply change

end Ledger.InStep

/-! ## Answers -/

theorem Ledger.Faithful.readsBack (h : l.Faithful) :
    ReadsBack (LawfulStore.records l.collection.store) l.written := by
  intro id record hrecord
  obtain ⟨d, hd, -, hwritten⟩ := h id record hrecord
  exact ⟨d, hd, hwritten⟩

theorem Ledger.InStep.indexed_records (h : l.InStep) (hfaithful : l.Faithful) :
    Indexed l.collection.indexes (LawfulStore.records l.collection.store) := by
  intro field ix hix
  obtain ⟨hfield, hfollows⟩ := h.indexed field ix hix
  exact ⟨hfield, (Index.follows_iff_tracks.mp hfollows).over hfaithful.readsBack⟩

theorem Ledger.Faithful.readable (h : l.Faithful) :
    Readable (LawfulStore.records l.collection.store)
      (LawfulStore.records l.collection.store).keys := by
  intro id _ record hrecord
  obtain ⟨d, hd, -⟩ := h id record hrecord
  exact ⟨d, hd⟩

theorem Ledger.Faithful.ownIds (h : l.Faithful) :
    OwnIds (LawfulStore.records l.collection.store) := by
  intro id d hd
  rw [documentAt, Option.bind_eq_some_iff] at hd
  obtain ⟨record, hrecord, hd⟩ := hd
  obtain ⟨e, he, hid, -⟩ := h id record hrecord
  rw [he] at hd
  cases hd
  exact hid

namespace Collection

/-- The places of a plan deliver all matches, and in order where the plan does not sort. -/
theorem delivers_candidates {c : Collection σ} (h : LawfulStore.Ready c.store)
    (hindexed : Indexed c.indexes (LawfulStore.records c.store))
    (own : OwnIds (LawfulStore.records c.store)) {p : Plan}
    (covers : p.access.Covers c.indexKinds p.predicate p.sort) :
    let ids := (c.candidates p).getD (LawfulStore.records c.store).keys
    Delivers (LawfulStore.records c.store) p.predicate ids ∧ (p.needsSort = false →
      InOrder p.sort (matchesAt p.predicate (LawfulStore.records c.store) ids)) := by
  have hcandidates := candidates_spec hindexed own covers
  cases hids : c.candidates p with
  | some ids =>
    rw [hids] at hcandidates
    exact hcandidates
  | none =>
    rw [hids] at hcandidates
    have hascending := LawfulStore.ascending h
    refine ⟨delivers_keys hascending, fun hsort => ?_⟩
    have hsort : p.sort = [] := by simpa [Plan.needsSort, hcandidates] using hsort
    rw [hsort]
    exact inOrder_of_ascending own (pairwise_keys hascending)

theorem page_of_isEmpty {q : Query} {p : Predicate} {name : String} {kinds : IndexKinds}
    (h : (q.planned name kinds p).isEmpty) (m : Keyed String Bytes) (ids : List String) :
    q.page (sortDocuments q.sort (matchesAt p m ids)) = [] := by
  rw [Plan.isEmpty, Bool.or_eq_true] at h
  rcases h with hnever | hlimit
  · have hmatches : matchesAt p m ids = [] := by
      have hfalse : ∀ d, p.holds d = false := by
        intro d
        cases p with
        | const b => simpa [Query.planned, Predicate.isNever, Predicate.holds] using hnever
        | _ => cases hnever
      simp [matchesAt, hfalse]
    rw [hmatches, sortDocuments, List.mergeSort_nil, q.page_nil]
  · exact Query.page_of_limit_zero (by simpa [Query.planned] using hlimit) _

/-- What a query finds where all indexes hold the stored documents: all matches, sorted,
and of them the page that is asked for. -/
theorem find_eq_page {c : Collection σ} (h : LawfulStore.Ready c.store)
    (hindexed : Indexed c.indexes (LawfulStore.records c.store))
    (hread : Readable (LawfulStore.records c.store) (LawfulStore.records c.store).keys)
    (own : OwnIds (LawfulStore.records c.store)) (q : Query) :
    (find q c).1 = match q.predicate with
      | .ok p => .ok (q.page (sortDocuments q.sort
          (matchesAt p (LawfulStore.records c.store) (LawfulStore.records c.store).keys)))
      | .error fault => .error (.query (.invalid fault)) := by
  have hplan : c.plan q =
      (q.predicate.map (q.planned c.name c.indexKinds)).mapError fun fault =>
        .query (.invalid fault) := by rw [plan, Plan.compile_eq]
  cases hpredicate : q.predicate with
  | error fault =>
    rw [hpredicate] at hplan
    rw [find_of_fault hplan]
  | ok p =>
    rw [hpredicate] at hplan
    obtain ⟨t, hfind, -⟩ := find_of_plan h hplan hread
    rw [hfind]
    dsimp only
    split
    next hempty => rw [page_of_isEmpty hempty]
    next hempty =>
      obtain ⟨hdelivers, horder⟩ := delivers_candidates (p := q.planned c.name c.indexKinds p)
        h hindexed own (q.covers_planned hpredicate c.name c.indexKinds)
      generalize (c.candidates (q.planned c.name c.indexKinds p)).getD
        (LawfulStore.records c.store).keys = ids at hdelivers horder ⊢
      have hpage : ∀ docs, (QueryCursor.run (q.planned c.name c.indexKinds p) ids).page docs =
          q.page docs := by
        intro docs
        rw [QueryCursor.run, if_neg hempty]
        rfl
      have hkeys := delivers_keys (p := p) (LawfulStore.ascending h)
      rw [hpage]
      congr 2
      split
      · exact sorted_eq_sortDocuments own hdelivers hkeys (List.mergeSort_perm _ _)
          (inOrder_sortDocuments _ _)
      next hsort =>
        exact sorted_eq_sortDocuments own hdelivers hkeys (List.Perm.refl _)
          (horder (by simpa using hsort))

theorem indexed_nil (m : Keyed String Bytes) : Indexed [] m :=
  fun field ix hix => by cases hix

/-- Indexes make no difference to what is found. Where the query is well-formed, that is
the page of all matches, sorted with ties by identifier. -/
theorem find_eq_find_without_indexes {τ : Type} [RecordStore τ] [LawfulStore τ]
    {start : Collection σ} (hready : LawfulStore.Ready start.store) (hstart : start.indexes = [])
    (changes : List Change)
    (hfaithful : Ledger.Faithful (Ledger.applyAll changes { collection := start }))
    {plain : Collection τ} (hplain : LawfulStore.Ready plain.store) (hnone : plain.indexes = [])
    (hrecords : LawfulStore.records plain.store =
      LawfulStore.records (Ledger.applyAll changes { collection := start }).collection.store)
    (q : Query) :
    (find q (Ledger.applyAll changes { collection := start }).collection).1 = (find q plain).1 ∧
      ∀ p, plain.plan q = .ok p →
        (find q plain).1 = .ok (q.page (sortDocuments q.sort (matchesAt p.predicate
          (LawfulStore.records plain.store) (LawfulStore.records plain.store).keys))) := by
  have hinstep : Ledger.InStep (Ledger.applyAll changes { collection := start }) := by
    refine Ledger.InStep.applyAll ⟨hready, ?_, fun field ix hix => ?_⟩ changes
    · rw [hstart]; exact ascending_nil
    · rw [hstart] at hix; cases hix
  have hindexes := hinstep.indexed_records hfaithful
  have hread := hfaithful.readable
  have hown := hfaithful.ownIds
  have hfound := find_eq_page hinstep.ready hindexes hread hown q
  rw [← hrecords] at hread hown hfound
  have hplainFound := find_eq_page hplain (hnone ▸ indexed_nil _) hread hown q
  refine ⟨hfound.trans hplainFound.symm, fun p hp => ?_⟩
  rw [hplainFound, predicate_of_plan hp]

/-- Three documents that come into a new collection with an index over one field. -/
def indexedInsertions : List Change :=
  .createIndex "n" .btree ::
    [("p", .int 2), ("q", .float (.ofDecimal false 1 0)), ("r", .null)].map fun (id, v) =>
      .write (.insert { now := 0, freshId := "" } { id := some id, fields := [("n", v)] })

/-- Numbers of both kinds are found in the order of the index, and so without it. -/
theorem find_in_index_order :
    let start : Collection MemoryStore := { name := "a", store := {} }
    let c := (Ledger.applyAll indexedInsertions { collection := start }).collection
    let q : Query :=
      { filter := some (.field "n" (.compare .gte (.int 1))), sort := [⟨"n", .desc⟩] }
    ∃ docs, docs.map (·.id) = [some "p", some "q"] ∧ (find q c).1 = .ok docs ∧
      (find q { c with indexes := [] }).1 = .ok docs := by
  intro start c q
  have hready : LawfulStore.Ready start.store := ⟨rfl, ascending_nil⟩
  have hchanges : ∀ change ∈ indexedInsertions, change.WellFormed := by
    simp [indexedInsertions, Change.WellFormed, Write.WellFormed, Value.WellFormed,
      Value.WellFormedFields, Ascending]
  have haccounted := Ledger.accounted_of_changes hready rfl hchanges
  have hall : ∀ e ∈ LawfulStore.records c.store,
      (Document.decode e.2).toOption.map (·.id) = some (some e.1) := by decide +kernel
  have hfaithful := haccounted.faithful fun id record hrecord =>
    exists_of_toOption_map (hall (id, record) (mem_of_get? hrecord))
  have hfound : (find q c).1.toOption.map (·.map (·.id)) = some [some "p", some "q"] := by
    decide +kernel
  have hsame := (@find_eq_find_without_indexes MemoryStore _ _ MemoryStore _ _ start hready rfl
    indexedInsertions hfaithful { c with indexes := [] } haccounted.ready rfl rfl q).1
  obtain ⟨docs, hfind, hids⟩ := exists_of_toOption_map hfound
  exact ⟨docs, hids, hfind, hsame.symm.trans hfind⟩

end Collection
end DocBase
