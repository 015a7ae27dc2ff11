import DocBase.Proofs.Collection.AccessPath

/-! Pages, counts and first results. A query without a page has one list of results, of which
whatever else is asked is a part: a page is a slice of it, a count a length, a first result a
head. The count of all documents, which no query is run for, agrees with it as well. -/
namespace DocBase
open Keyed

/-! ## Slices -/

/-- What comes after so many, up to the limit. -/
def slice {α : Type} (skip : Nat) (limit : Option Nat) (xs : List α) : List α :=
  (limit.map (xs.drop skip).take).getD (xs.drop skip)

/-- A limit of one or less leaves the head. -/
theorem head?_slice {α : Type} (skip : Nat) (limit : Option Nat) (xs : List α) :
    (slice skip (some (min 1 (limit.getD 1))) xs).head? = (slice skip limit xs).head? := by
  rw [slice, slice]
  generalize xs.drop skip = left
  rcases limit with _ | _ | n
  · cases left <;> rfl
  · rfl
  · cases left <;> simp

theorem Query.page_eq_slice (q : Query) (skip : Nat) (limit : Option Nat) (docs : List Document) :
    { q with skip, limit : Query }.page docs =
      slice skip limit ({ q with skip := 0, limit := none : Query }.page docs) := by
  cases limit <;> simp [page, slice]

theorem Query.predicate_of_unfiltered {q : Query} {p : Predicate} (hp : q.predicate = .ok p)
    (hfilter : q.filter = none) : p = .const true := by
  obtain ⟨predicate, hpredicate, hrest⟩ := bind_eq_ok hp
  obtain ⟨_, -, hrest⟩ := bind_eq_ok hrest
  obtain ⟨_, -, hrest⟩ := bind_eq_ok hrest
  rw [Query.compiled, hfilter] at hpredicate
  rw [← Except.ok.inj hrest]
  exact (Except.ok.inj hpredicate).symm

/-! ## First results -/
namespace QueryCursor
variable {α σ : Type} [Source α σ]

theorem remaining_deliver {c : QueryCursor α} {item : Option (Except QueryError Document)}
    {d : Document} (h : (c.deliver item).1 = some (.ok d)) :
    (c.deliver item).2.remaining = c.remaining.map (· - 1) := by
  rcases item with _ | _ | d
  · cases h
  · cases h
  · rfl

theorem remaining_nextOf {c : QueryCursor α} {docs : List Document} {d : Document}
    (h : (nextOf docs c).1 = some (.ok d)) :
    (nextOf docs c).2.remaining = c.remaining.map (· - 1) := by
  rw [nextOf] at h ⊢
  split at h
  · exact remaining_deliver h
  · exact remaining_deliver h

/-- A result that comes out is one of those that remain. -/
theorem remaining_next {c : QueryCursor α} {s : σ} {d : Document}
    (h : (c.next s).1 = some (.ok d)) :
    (c.next s).2.1.remaining = c.remaining.map (· - 1) := by
  rw [next] at h ⊢
  split
  next hdone => rw [if_pos hdone] at h; cases h
  next hdone =>
    rw [if_neg hdone] at h
    split
    next hzero => rw [if_pos hzero] at h; cases h
    next hzero =>
      rw [if_neg hzero] at h
      cases hsupply : c.supply with
      | places pending =>
        rw [hsupply] at h
        exact remaining_deliver h
      | unsorted keys pending =>
        rw [hsupply] at h
        dsimp only at h ⊢
        split at h
        · exact remaining_deliver h
        · exact remaining_nextOf h
      | documents docs =>
        rw [hsupply] at h
        exact remaining_nextOf h

theorem next_of_exhausted {c : QueryCursor α} (h : c.remaining = some 0) (s : σ) :
    (c.next s).1 = none := by
  rw [next]
  split
  · rfl
  · rfl

theorem collectWithin_of_exhausted {c : QueryCursor α} (h : c.remaining = some 0) (fuel : Nat)
    (s : σ) : (collectWithin fuel c s).1 = .ok [] := by
  cases fuel with
  | zero => rfl
  | succ fuel =>
    have hnext := next_of_exhausted h s
    rw [collectWithin]
    generalize c.next s = pull at hnext
    obtain ⟨item, c', t⟩ := pull
    cases hnext
    rfl

/-- No more than one result is left to come out. -/
def AtMostOne (c : QueryCursor α) : Prop := c.done = true ∨ ∃ n ≤ 1, c.remaining = some n

/-- A single pull gives all that such a cursor yields. -/
theorem AtMostOne.collect {c : QueryCursor α} (h : c.AtMostOne) (s : σ) :
    (c.collect s).1 = match (c.next s).1 with
      | none => .ok []
      | some answer => answer.map ([·]) := by
  have hrest : ∀ d, (c.next s).1 = some (.ok d) → (c.next s).2.1.remaining = some 0 := by
    intro d hd
    rw [remaining_next hd]
    rcases h with hdone | ⟨n, hn, hremaining⟩
    · rw [next, if_pos hdone] at hd
      cases hd
    · rw [hremaining, Option.map_some, Nat.sub_eq_zero_of_le hn]
  rw [QueryCursor.collect, collectWithin]
  generalize c.next s = pull at hrest ⊢
  obtain ⟨item, c', t⟩ := pull
  rcases item with _ | e | d
  · rfl
  · rfl
  · have hleft := collectWithin_of_exhausted (hrest d rfl) c.supply.size t
    dsimp only
    rw [hleft]
    rfl

end QueryCursor

namespace Collection

theorem limit_of_plan {σ : Type} {c : Collection σ} {q : Query} {p : Plan} (h : c.plan q = .ok p) :
    p.limit = q.limit := by
  rw [(planned_of_plan h).2]
  rfl

section
variable {σ : Type} [RecordStore σ]

/-- What a query is answered with is a run of its plan, or nothing at all. -/
theorem execute_eq_ok {q : Query} {c t : Collection σ} {cursor : QueryCursor String}
    (h : execute q c = (.ok cursor, t)) :
    ∃ p, c.plan q = .ok p ∧ (cursor = .empty ∨ ∃ ids, cursor = .run p ids) := by
  obtain ⟨counted, hcount⟩ : ∃ counted, (modify (count fun n => { n with
      queries := n.queries + 1 }) : CollectionAction σ Unit) c = (.ok (), counted) := ⟨_, rfl⟩
  rw [execute, get_bind] at h
  cases hplan : c.plan q with
  | error e =>
    rw [hplan, bind_of_error (lift_apply _)] at h
    cases h
  | ok p =>
    refine ⟨p, rfl, ?_⟩
    rw [hplan, bind_of_ok (lift_apply _), bind_of_ok hcount] at h
    by_cases hempty : p.isEmpty
    · rw [if_pos hempty] at h
      cases h
      exact Or.inl rfl
    rw [if_neg hempty] at h
    cases hcandidates : c.candidates p with
    | some ids =>
      rw [hcandidates] at h
      cases h
      exact Or.inr ⟨ids, rfl⟩
    | none =>
      rw [hcandidates] at h
      dsimp only at h
      cases hscan : scanAll counted with
      | mk r u =>
        cases r with
        | error e => rw [bind_of_error hscan] at h; cases h
        | ok ids =>
          rw [bind_of_ok hscan] at h
          cases h
          exact Or.inr ⟨ids, rfl⟩

theorem atMostOne_execute {q : Query} {n : Nat} (hn : n ≤ 1) (hlimit : q.limit = some n)
    {c t : Collection σ} {cursor : QueryCursor String}
    (h : execute q c = (.ok cursor, t)) : cursor.AtMostOne := by
  obtain ⟨p, hplan, rfl | ⟨ids, rfl⟩⟩ := execute_eq_ok h
  · exact Or.inl rfl
  rw [QueryCursor.run]
  split
  · exact Or.inl rfl
  · exact Or.inr ⟨n, hn, (limit_of_plan hplan).trans hlimit⟩

/-- The first result is the head of all that the query finds when it is limited to one. -/
theorem first_eq_find (q : Query) (c : Collection σ) :
    (first q c).1 =
      (find { q with limit := some (min 1 (q.limit.getD 1)) } c).1.map List.head? := by
  rw [first, find]
  cases hexecute : execute { q with limit := some (min 1 (q.limit.getD 1)) } c with
  | mk r t =>
    cases r with
    | error e => rw [bind_of_error hexecute, bind_of_error hexecute]; rfl
    | ok cursor =>
      have hone := atMostOne_execute (Nat.min_le_left 1 _) rfl hexecute
      rw [bind_of_ok hexecute, bind_of_ok hexecute, get_bind]
      have hcollect : (collect cursor t).1 =
          ((cursor.collect t.store).1.mapError CollectionError.query) := rfl
      rw [hcollect, hone.collect t.store, pull]
      generalize cursor.next t.store = pulled
      obtain ⟨item, cursor', s⟩ := pulled
      rcases item with _ | _ | d <;> rfl

theorem fst_matchCount (q : Query) (c : Collection σ) :
    (matchCount q c).1 = (find q c).1.map List.length := by
  rw [matchCount_eq_find]
  cases hfind : find q c with
  | mk r t =>
    cases r with
    | error e => rw [bind_of_error hfind]; rfl
    | ok docs => rw [bind_of_ok hfind]; rfl

end

/-! ## Over readable records -/

section
variable {σ : Type} [RecordStore σ] [LawfulStore σ] {c : Collection σ} {m : Keyed String Bytes}
  {p : Predicate}

/-- An open store with these records, which can all be read, and indexes over them. -/
structure Consistent (c : Collection σ) (m : Keyed String Bytes) : Prop where
  ready : LawfulStore.Ready c.store
  records : LawfulStore.records c.store = m
  indexed : Indexed c.indexes m
  readable : Readable m m.keys
  own : OwnIds m

namespace Consistent

theorem ascending (h : c.Consistent m) : Ascending m := h.records ▸ LawfulStore.ascending h.ready

theorem find_of_predicate (h : c.Consistent m) {q : Query} (hp : q.predicate = .ok p) :
    (find q c).1 = .ok (q.page (sortDocuments q.sort (matchesAt p m m.keys))) := by
  obtain ⟨hready, rfl, hindexed, hread, own⟩ := h
  rw [find_eq_page hready hindexed hread own, hp]

/-- Pages of one query are slices of one list. -/
theorem find_part (h : c.Consistent m) {q : Query} (hp : q.predicate = .ok p) (skip : Nat)
    (limit : Option Nat) :
    (find { q with skip, limit } c).1 = .ok (slice skip limit
      ({ q with skip := 0, limit := none : Query }.page
        (sortDocuments q.sort (matchesAt p m m.keys)))) := by
  have hpart : Query.predicate { q with skip, limit } = .ok p := hp
  rw [h.find_of_predicate hpart, ← q.page_eq_slice]

theorem findOne_eq_head? (h : c.Consistent m) {f : Filter} (hp : Predicate.compile f = .ok p) :
    (findOne f c).1 = .ok (sortDocuments [] (matchesAt p m m.keys)).head? := by
  have hpredicate : Query.predicate { filter := some f, limit := some 1 } = .ok p := by
    rw [Query.predicate, Query.compiled]
    dsimp only
    rw [hp]
    rfl
  rw [findOne, first_eq_find]
  change ((find { filter := some f, limit := some 1 } c).1).map _ = _
  rw [h.find_of_predicate hpredicate]
  simp [Except.map, Query.page, List.head?_take]

/-- The store counts the documents that a query without a filter goes through. -/
theorem countMatching_none [CountingStore σ] (h : c.Consistent m) :
    (countMatching none c).1 = .ok (matchesAt (.const true) m m.keys).length := by
  have hdocuments : ∀ id ∈ m.keys, (documentAt m id).isSome := by
    intro id hid
    obtain ⟨record, hmem⟩ := mem_keys.mp hid
    have hrecord := get?_of_mem h.ascending hmem
    obtain ⟨d, hd⟩ := h.readable.decode hrecord
    rw [documentAt, hrecord, Option.bind_some, hd]
    rfl
  have hall : ∀ docs : List Document, docs.filter (Predicate.const true).holds = docs :=
    fun docs => List.filter_eq_self.mpr fun _ _ => rfl
  rw [matchesAt, hall, List.filterMap_length_eq_length.mpr hdocuments, keys, List.length_map,
    countMatching, get_bind, size, CountingStore.size h.ready, h.records]
  rfl

end Consistent

end

theorem ownIds_of_forall {m : Keyed String Bytes}
    (h : ∀ e ∈ m, (Document.decode e.2).toOption.map (·.id) = some (some e.1)) : OwnIds m := by
  intro id d hd
  rw [documentAt, Option.bind_eq_some_iff] at hd
  obtain ⟨record, hrecord, hd⟩ := hd
  have hid := h (id, record) (mem_of_get? hrecord)
  rw [hd] at hid
  exact Option.some.inj hid

/-- The answer is the match of least identifier, and nothing only where nothing matches. -/
def LeastMatch (stored : String → Option Document) (p : Predicate) : Option Document → Prop
  | none => ∀ id d, stored id = some d → p.holds d = false
  | some d => ∃ id, stored id = some d ∧ p.holds d ∧
      ∀ id' e, stored id' = some e → p.holds e → compare id id' ≠ .gt

theorem leastMatch_head? {m : Keyed String Bytes} (hm : Ascending m) (own : OwnIds m)
    (p : Predicate) :
    LeastMatch (documentAt m) p (sortDocuments [] (matchesAt p m m.keys)).head? := by
  have hfound : ∀ id d, documentAt m id = some d → p.holds d →
      d ∈ sortDocuments [] (matchesAt p m m.keys) := by
    intro id d hd hholds
    have hid := (delivers_keys hm).complete id d hd hholds
    exact List.mem_mergeSort.mpr (mem_matchesAt.mpr ⟨⟨id, hid, hd⟩, hholds⟩)
  have hmatch : ∀ d ∈ sortDocuments [] (matchesAt p m m.keys),
      (∃ id ∈ m.keys, documentAt m id = some d) ∧ p.holds d :=
    fun d hd => mem_matchesAt.mp (List.mem_mergeSort.mp hd)
  have horder := inOrder_sortDocuments [] (matchesAt p m m.keys)
  generalize sortDocuments [] (matchesAt p m m.keys) = docs at hfound hmatch horder
  cases docs with
  | nil =>
    intro id d hd
    exact Bool.eq_false_iff.mpr fun hholds => List.not_mem_nil (hfound id d hd hholds)
  | cons d rest =>
    obtain ⟨⟨id, -, hd⟩, hholds⟩ := hmatch d List.mem_cons_self
    refine ⟨id, hd, hholds, fun id' e he hholds' => ?_⟩
    have hids : compareDocuments [] d e = compare id id' := by
      rw [compareDocuments, compareIds_eq, own id d hd, own id' e he]
      rfl
    rw [← hids]
    rcases List.mem_cons.mp (hfound id' e he hholds') with hsame | hrest
    · have hself : compareDocuments [] d d = .eq := Std.ReflCmp.compare_self
      rw [hsame, hself]
      decide
    · exact List.rel_of_pairwise_cons horder hrest

/-! ## Whatever was done before -/

variable {σ τ : Type} [RecordStore σ] [FallibleStore σ] [RecordStore τ] [LawfulStore τ]

/-- A collection over an open store with the records and the indexes that a history left. -/
structure Shows (c : Collection τ) (l : Ledger σ) : Prop where
  ready : LawfulStore.Ready c.store
  records : LawfulStore.records c.store = FallibleStore.records l.collection.store
  indexes : c.indexes = l.collection.indexes

theorem Shows.consistent {c : Collection τ} {l : Ledger σ} (hc : c.Shows l)
    (h : l.Upkept fun _ => True)
    (hread : ReadsBack (FallibleStore.records l.collection.store) l.written)
    (hown : OwnIds (FallibleStore.records l.collection.store)) :
    c.Consistent (FallibleStore.records l.collection.store) := by
  refine ⟨hc.ready, hc.records, fun field ix hix => ?_, fun id _ record hrecord => ?_, hown⟩
  · rw [hc.indexes] at hix
    obtain ⟨-, hfield, htracks⟩ := h.indexed field ix hix
    exact ⟨hfield, htracks.over hread⟩
  · obtain ⟨d, hd, -⟩ := hread id record hrecord
    exact ⟨d, hd⟩

/-- After any calls, some of which may have failed, where all records are read back as what was
written under their identifiers: a query has one list of results, whatever was read before. Its
pages are slices of that list, its count is the length and its first result the head of a page,
and without a filter the store counts as many records. The one document that is found for a filter
is the match of least identifier. -/
theorem pages_are_slices [CountingStore τ] {start : Collection σ}
    (hready : FallibleStore.Ready start.store) (hstart : start.indexes = []) (calls : List Call)
    {l : Ledger σ} (hrun : Ledger.callAll calls { collection := start } = l)
    (hread : ReadsBack (FallibleStore.records l.collection.store) l.written)
    (hown : OwnIds (FallibleStore.records l.collection.store)) :
    (∀ q p, l.collection.plan q = .ok p → ∃ full, ∀ c : Collection τ, c.Shows l →
      (find { q with skip := 0, limit := none } c).1 = .ok full ∧
      (∀ skip limit,
        let part := { q with skip, limit }
        (find part c).1 = .ok (slice skip limit full) ∧
        (matchCount part c).1 = .ok (slice skip limit full).length ∧
        (first part c).1 = .ok (slice skip limit full).head?) ∧
      (q.filter = none → (countMatching none c).1 = .ok full.length)) ∧
    ∀ f p, Predicate.compile f = .ok p → ∃ found,
      LeastMatch (documentAt (FallibleStore.records l.collection.store)) p found ∧
      ∀ c : Collection τ, c.Shows l → (findOne f c).1 = .ok found := by
  have hupkept : l.Upkept fun _ => True := by
    rw [← hrun]
    refine Ledger.Upkept.callAll ⟨hready, ?_, fun field ix hix => ?_⟩ (fun _ _ => trivial) calls
    · rw [hstart]; exact ascending_nil
    · rw [hstart] at hix; cases hix
  have hconsistent : ∀ c : Collection τ, c.Shows l →
      c.Consistent (FallibleStore.records l.collection.store) :=
    fun _ hc => hc.consistent hupkept hread hown
  have hascending := FallibleStore.ascending hupkept.ready
  generalize FallibleStore.records l.collection.store = m at hconsistent hascending hown ⊢
  refine ⟨fun q p hplan => ?_, fun f p hp => ⟨_, leastMatch_head? hascending hown p,
    fun c hc => (hconsistent c hc).findOne_eq_head? hp⟩⟩
  have hpredicate := predicate_of_plan hplan
  refine ⟨{ q with skip := 0, limit := none : Query }.page
    (sortDocuments q.sort (matchesAt p.predicate m m.keys)), fun c hc => ?_⟩
  have hpart := (hconsistent c hc).find_part hpredicate
  refine ⟨hpart 0 none, fun skip limit => ⟨hpart skip limit, ?_, ?_⟩, fun hfilter => ?_⟩
  · rw [fst_matchCount, hpart]
    rfl
  · rw [first_eq_find]
    change ((find { q with skip, limit := some (min 1 (limit.getD 1)) } c).1).map _ = _
    rw [hpart, Except.map, head?_slice]
  · rw [(hconsistent c hc).countMatching_none, Query.predicate_of_unfiltered hpredicate hfilter]
    simp [Query.page, sortDocuments]

/-- Two numbers in the order of an index, the second of which a removal was to take away that
failed. -/
theorem pages_after_fault :
    let start : Collection (Faulty MemoryStore) := {
      name := "a"
      store := { store := {}, fault := fun n => if n = 7 then some .closed else none } }
    let f : Filter := .field "n" (.compare .gte (.int 1))
    let p : Predicate := .field "n" (.compare .gte (.int 1))
    let q : Query := { filter := some f, sort := [⟨"n", .desc⟩] }
    ∃ l full found, Ledger.callAll (callsWithFault.take 4) { collection := start } = l ∧
      let c : Collection MemoryStore :=
        { name := "a", store := l.collection.store.store, indexes := l.collection.indexes }
      (find q c).1 = .ok full ∧ full.map (·.id) = [some "p", some "q"] ∧
      (find { q with skip := 1, limit := some 5 } c).1 = .ok (full.drop 1) ∧
      (matchCount { q with skip := 1, limit := some 5 } c).1 = .ok 1 ∧
      (first q c).1 = .ok full.head? ∧
      LeastMatch (documentAt c.store.records) p found ∧
      (findOne f c).1 = .ok found := by
  intro start f p q
  have hready : FallibleStore.Ready start.store := Or.inl ⟨rfl, ascending_nil⟩
  have hcalls : ∀ call ∈ callsWithFault.take 4, call.WellFormed := by
    simp [callsWithFault, Call.WellFormed, Write.WellFormed, Update.WellFormed, Value.WellFormed,
      Value.WellFormedFields, Ascending]
  have hfiled := (Ledger.filed_start hready).callAll (fun _ h => by cases h) hcalls
  obtain ⟨l, hrun⟩ :
      ∃ l, Ledger.callAll (callsWithFault.take 4) { collection := start } = l := ⟨_, rfl⟩
  let c : Collection MemoryStore :=
    { name := "a", store := l.collection.store.store, indexes := l.collection.indexes }
  have hopen : c.store.closed = false := by simp only [c, ← hrun]; decide +kernel
  have hreadable : Readable c.store.records c.store.records.keys := by
    simp only [c, ← hrun]
    exact readable_of_forall (by decide +kernel)
  have hown : OwnIds c.store.records := by
    simp only [c, ← hrun]
    exact ownIds_of_forall (by decide +kernel)
  have hfound : (find q c).1.toOption.map (·.map (·.id)) = some [some "p", some "q"] := by
    simp only [c, ← hrun]
    decide +kernel
  rw [hrun] at hfiled
  have hc : c.Shows l := ⟨⟨hopen, FallibleStore.ascending hfiled.ready⟩, rfl, rfl⟩
  obtain ⟨hpages, hleast⟩ := pages_are_slices (τ := MemoryStore) hready rfl
    (callsWithFault.take 4) hrun (hfiled.readsBack (fun _ h => by cases h) hreadable) hown
  have hp : Predicate.compile f = .ok p := rfl
  have hpredicate : q.predicate = .ok p := rfl
  have hplan : l.collection.plan q =
      .ok (q.planned l.collection.name l.collection.indexKinds p) := by
    rw [plan, Plan.compile_eq, hpredicate]
    rfl
  obtain ⟨found, hmatch, hfindOne⟩ := hleast f p hp
  obtain ⟨full, hfull⟩ := hpages q _ hplan
  obtain ⟨hall, hparts, -⟩ := hfull c hc
  have hq : (find q c).1 = .ok full := hall
  have hids : full.map (·.id) = [some "p", some "q"] := by
    rw [hq] at hfound
    exact Option.some.inj hfound
  have hlength : full.length = 2 := by
    rw [← full.length_map (f := (·.id)), hids]
    rfl
  have hslice : slice 1 (some 5) full = full.drop 1 :=
    List.take_of_length_le (by rw [List.length_drop, hlength]; decide)
  obtain ⟨hpage, hcount, -⟩ := hparts 1 (some 5)
  rw [hslice] at hpage hcount
  rw [List.length_drop, hlength] at hcount
  exact ⟨l, full, found, hrun, hq, hids, hpage, hcount, (hparts 0 none).2.2, hmatch, hfindOne c hc⟩

end Collection
end DocBase
