import DocBase.Proofs.Query.Order
import DocBase.Query.Cursor

/-! A cursor pulled step by step. What its plan yields over a source is told by lists: the matches
before the first failure, sorted if need be, a page of them, and the failure behind. -/
namespace DocBase

/-! ## Results as lists -/

/-- Documents, and the failure behind them if one ends them. -/
structure Results where
  docs : List Document
  failure : Option QueryError := none

namespace Results

/-- What a pull gives after so many others. -/
def answer (r : Results) (i : Nat) : Option (Except QueryError Document) :=
  (r.docs.map .ok ++ (r.failure.map .error).toList)[i]?

/-- What is left after a pull. -/
def tail : Results → Results
  | ⟨[], _⟩ => ⟨[], none⟩
  | ⟨_ :: docs, failure⟩ => ⟨docs, failure⟩

def filter (p : Predicate) (r : Results) : Results := { r with docs := r.docs.filter p.holds }

/-- Nothing can be sorted before all is there, so that a failure leaves no documents. -/
def sort (keys : List SortKey) (r : Results) : Results :=
  match r.failure with
  | some e => ⟨[], some e⟩
  | none => ⟨sortDocuments keys r.docs, none⟩

/-- The documents that are skipped do not come out, nor what is behind a limit that is reached. -/
def page (skip : Nat) (limit : Option Nat) (projection : Option Projection) (r : Results) :
    Results :=
  let docs := r.docs.drop skip
  let docs := (limit.map docs.take).getD docs
  { docs := docs.map fun d => (projection.map (·.apply d)).getD d
    failure := if limit = some docs.length then none else r.failure }

end Results

/-- The documents of all these records, up to one that cannot be had. -/
def readAll : List (Except StoreError (String × Bytes)) → Results
  | [] => ⟨[], none⟩
  | .error e :: _ => ⟨[], some (.store e)⟩
  | .ok (id, record) :: rest =>
    match Document.decode record with
    | .error e => ⟨[], some (.corrupt id e)⟩
    | .ok d => { readAll rest with docs := d :: (readAll rest).docs }

/-- All that a plan yields over these records. -/
def Plan.results (p : Plan) (items : List (Except StoreError (String × Bytes))) : Results :=
  if p.isEmpty then ⟨[], none⟩
  else
    let found := (readAll items).filter p.predicate
    (if p.needsSort then found.sort p.sort else found).page p.skip p.limit p.projection

namespace Source
variable {α σ : Type} [Source α σ]

/-- What places give when they are reached one after another. -/
def items : List α → σ → List (Except StoreError (String × Bytes))
  | [], _ => []
  | a :: rest, s => (Source.fetch a s).1.toList ++ items rest (Source.fetch a s).2

/-- Records that are given beforehand, failures among them, are what their places give. -/
theorem items_given (records : List (Except StoreError (String × Bytes))) (s : Unit) :
    items records s = records := by
  induction records with
  | nil => rfl
  | cons item rest ih => exact congrArg (item :: ·) ih

/-- Reading the next place and then the rest is reading all. -/
theorem readAll_items_cons (a : α) (rest : List α) (s : σ) :
    readAll (items (a :: rest) s) =
      match readDocument (Source.fetch a s).1 with
      | .error e => ⟨[], some e⟩
      | .ok none => readAll (items rest (Source.fetch a s).2)
      | .ok (some d) =>
        let others := readAll (items rest (Source.fetch a s).2)
        { others with docs := d :: others.docs } := by
  rw [items]
  generalize items rest (Source.fetch a s).2 = others
  cases (Source.fetch a s).1 with
  | none => rfl
  | some item =>
    cases item with
    | error e => rfl
    | ok entry =>
      obtain ⟨id, record⟩ := entry
      simp only [readDocument, Option.toList_some, List.singleton_append, readAll]
      cases Document.decode record with
      | error e => rfl
      | ok d => rfl

end Source

namespace Results
variable {r : Results}

theorem answer_tail (r : Results) (i : Nat) : r.tail.answer i = r.answer (i + 1) := by
  obtain ⟨docs, failure⟩ := r
  cases docs with
  | cons d docs => rfl
  | nil => cases failure <;> rfl

theorem length_tail (r : Results) : r.docs.length = min 1 r.docs.length + r.tail.docs.length := by
  obtain ⟨docs, failure⟩ := r
  cases docs with
  | cons d docs => simp [tail]; omega
  | nil => rfl

theorem length_le_of_answer {i : Nat} (h : ∀ d, r.answer i ≠ some (.ok d)) : r.docs.length ≤ i := by
  by_contra hlt
  have hi : i < (r.docs.map (Except.ok (ε := QueryError))).length := by simpa using hlt
  refine h r.docs[i] ?_
  rw [answer, List.getElem?_append_left hi]
  simp

theorem answer_of_lt {i : Nat} (h : r.docs.length < i) : r.answer i = none := by
  refine List.getElem?_eq_none ?_
  cases r.failure <;> simp <;> omega

variable {skip : Nat} {limit : Option Nat} {projection : Option Projection}

theorem page_of_limit_zero (h : limit = some 0) : r.page skip limit projection = ⟨[], none⟩ := by
  subst h
  rfl

theorem page_of_drop_nil (hdrop : r.docs.drop skip = []) (hlimit : limit ≠ some 0) :
    r.page skip limit projection = ⟨[], r.failure⟩ := by
  have htake : (limit.map ([] : List Document).take).getD [] = [] := by cases limit <;> simp
  simp only [page, hdrop, htake, List.length_nil, if_neg hlimit, List.map_nil]

theorem page_of_drop_cons {d : Document} {docs : List Document}
    (hdrop : r.docs.drop skip = d :: docs) (hlimit : limit ≠ some 0) :
    let left := page 0 (limit.map (· - 1)) projection ⟨docs, r.failure⟩
    r.page skip limit projection =
      { left with docs := (projection.map (·.apply d)).getD d :: left.docs } := by
  cases limit with
  | none => simp [page, hdrop]
  | some n =>
    cases n with
    | zero => exact absurd rfl hlimit
    | succ n => simp [page, hdrop]

end Results

/-! ## Pulls -/
namespace QueryCursor
variable {α σ : Type} [Source α σ]

/-- So many pulls: their answers, and the cursor and the source after them. -/
def pulls : Nat → QueryCursor α → σ → List (Option (Except QueryError Document)) × QueryCursor α × σ
  | 0, c, s => ([], c, s)
  | n + 1, c, s =>
    let (answer, c, s) := c.next s
    let (answers, c, s) := pulls n c s
    (answer :: answers, c, s)

/-- The matches at places that are still to be read. -/
def found (p : Predicate) (pending : List α) (s : σ) : Results :=
  (readAll (Source.items pending s)).filter p

/-- The documents that a cursor comes to, before a page is made of them. -/
def coming (c : QueryCursor α) (s : σ) : Results :=
  match c.supply with
  | .places pending => found c.predicate pending s
  | .unsorted keys pending => (found c.predicate pending s).sort keys
  | .documents docs => ⟨docs, none⟩

/-- All that a cursor has still to yield. -/
def due (c : QueryCursor α) (s : σ) : Results :=
  if c.done then ⟨[], none⟩ else (c.coming s).page c.skip c.remaining c.projection

theorem due_of_done {c : QueryCursor α} {s : σ} (h : c.done = true) : c.due s = ⟨[], none⟩ :=
  if_pos h

theorem found_cons (p : Predicate) (a : α) (rest : List α) (s : σ) :
    found p (a :: rest) s =
      match readDocument (Source.fetch a s).1 with
      | .error e => ⟨[], some e⟩
      | .ok none => found p rest (Source.fetch a s).2
      | .ok (some d) =>
        let others := found p rest (Source.fetch a s).2
        if p.holds d then { others with docs := d :: others.docs } else others := by
  rw [found, Source.readAll_items_cons]
  cases readDocument (Source.fetch a s).1 with
  | error e => rfl
  | ok item =>
    cases item with
    | none => rfl
    | some d =>
      simp only [Results.filter, List.filter_cons]
      split <;> rfl

/-- The next match that is not skipped, or the failure, and the matches behind it. -/
theorem seek_found (p : Predicate) (pending : List α) (skip : Nat) (s : σ) :
    ∃ rest skip' s', seek p pending skip s =
        (Results.answer ⟨(found p pending s).docs.drop skip, (found p pending s).failure⟩ 0,
          rest, skip', s') ∧
      ∀ d docs, (found p pending s).docs.drop skip = d :: docs →
        skip' = 0 ∧ found p rest s' = ⟨docs, (found p pending s).failure⟩ := by
  induction pending generalizing skip s with
  | nil =>
    refine ⟨[], skip, s, ?_, ?_⟩
    · simp [seek, found, Source.items, readAll, Results.filter, Results.answer]
    · simp [found, Source.items, readAll, Results.filter]
  | cons a rest ih =>
    rw [found_cons, seek]
    obtain ⟨item, t⟩ := Source.fetch a s
    dsimp only
    cases readDocument item with
    | error e => exact ⟨rest, skip, t, by simp [Results.answer], by simp⟩
    | ok read =>
      cases read with
      | none => exact ih skip t
      | some d =>
        dsimp only
        cases hholds : p.holds d with
        | false => exact ih skip t
        | true =>
          cases skip with
          | zero =>
            refine ⟨rest, 0, t, rfl, ?_⟩
            rintro _ _ ⟨⟩
            exact ⟨rfl, rfl⟩
          | succ skip => exact ih skip t

theorem gather_found (p : Predicate) (pending : List α) (s : σ) :
    ∃ s', gather p pending s =
      (match (found p pending s).failure with
        | some e => .error e
        | none => .ok (found p pending s).docs, s') := by
  induction pending generalizing s with
  | nil => exact ⟨s, rfl⟩
  | cons a rest ih =>
    rw [found_cons, gather]
    obtain ⟨item, t⟩ := Source.fetch a s
    dsimp only
    cases readDocument item with
    | error e => exact ⟨t, rfl⟩
    | ok read =>
      cases read with
      | none => exact ih t
      | some d =>
        obtain ⟨s', hgather⟩ := ih t
        refine ⟨s', ?_⟩
        simp only [hgather]
        cases p.holds d with
        | false => rfl
        | true => cases (found p rest t).failure <;> rfl

/-- One pull: the first of what is due, the rest of which is due then. -/
structure Yields (due : Results) (yielded : Nat) (answer : Option (Except QueryError Document))
    (c : QueryCursor α) (s : σ) : Prop where
  answer_eq : answer = due.answer 0
  due_eq : c.due s = due.tail
  yielded_eq : c.yielded = yielded + min 1 due.docs.length

/-- What goes out is the first of a page, if it has one. -/
theorem yields_deliver {c : QueryCursor α} {r : Results} {s : σ} {skip : Nat}
    (hdone : c.done = false) (hremaining : c.remaining ≠ some 0)
    (hrest : ∀ d docs, r.docs.drop skip = d :: docs →
      c.skip = 0 ∧ c.coming s = ⟨docs, r.failure⟩) :
    Yields (r.page skip c.remaining c.projection) c.yielded
      (c.deliver (Results.answer ⟨r.docs.drop skip, r.failure⟩ 0)).1
      (c.deliver (Results.answer ⟨r.docs.drop skip, r.failure⟩ 0)).2 s := by
  cases hdrop : r.docs.drop skip with
  | cons d docs =>
    obtain ⟨hskip, hcoming⟩ := hrest d docs hdrop
    have hdue : (c.deliver (some (.ok d))).2.due s =
        (c.coming s).page c.skip (c.remaining.map (· - 1)) c.projection :=
      if_neg (Bool.eq_false_iff.mp hdone)
    rw [Results.page_of_drop_cons hdrop hremaining]
    refine ⟨rfl, ?_, ?_⟩
    · refine hdue.trans ?_
      rw [hskip, hcoming]
      rfl
    · rw [List.length_cons, Nat.min_eq_left (Nat.le_add_left 1 _)]
      rfl
  | nil =>
    rw [Results.page_of_drop_nil hdrop hremaining]
    cases r.failure with
    | none => exact ⟨rfl, due_of_done rfl, rfl⟩
    | some e => exact ⟨rfl, due_of_done rfl, rfl⟩

theorem yields_nextOf {c : QueryCursor α} (hdone : c.done = false)
    (hremaining : c.remaining ≠ some 0) (docs : List Document) (s : σ) :
    Yields (Results.page c.skip c.remaining c.projection ⟨docs, none⟩) c.yielded
      (nextOf docs c).1 (nextOf docs c).2 s := by
  have hdeliver : ∃ supply skip, nextOf docs c = { c with supply, skip }.deliver
      (Results.answer ⟨docs.drop c.skip, none⟩ 0) ∧
      ∀ d rest, docs.drop c.skip = d :: rest → skip = 0 ∧ supply = .documents rest := by
    rw [nextOf]
    cases docs.drop c.skip with
    | nil => exact ⟨.documents [], c.skip, rfl, by simp⟩
    | cons d rest =>
      refine ⟨.documents rest, 0, rfl, ?_⟩
      rintro _ _ ⟨⟩
      exact ⟨rfl, rfl⟩
  obtain ⟨supply, skip, hnext, hrest⟩ := hdeliver
  rw [hnext]
  refine yields_deliver (c := { c with supply, skip }) (r := ⟨docs, none⟩) hdone hremaining ?_
  intro d rest hdrop
  obtain ⟨rfl, rfl⟩ := hrest d rest hdrop
  exact ⟨rfl, rfl⟩

theorem next_due (c : QueryCursor α) (s : σ) :
    Yields (c.due s) c.yielded (c.next s).1 (c.next s).2.1 (c.next s).2.2 := by
  rw [next]
  by_cases hended : c.done = true
  · rw [due_of_done hended, if_pos hended]
    exact ⟨rfl, due_of_done hended, rfl⟩
  have hdone : c.done = false := Bool.eq_false_iff.mpr hended
  rw [due, if_neg hended, if_neg hended]
  by_cases hremaining : c.remaining = some 0
  · rw [if_pos hremaining, Results.page_of_limit_zero hremaining]
    exact ⟨rfl, due_of_done (s := s) rfl, rfl⟩
  rw [if_neg hremaining, coming]
  cases c.supply with
  | places pending =>
    obtain ⟨rest, skip, s', hseek, hrest⟩ := seek_found c.predicate pending c.skip s
    simp only [hseek]
    exact yields_deliver (c := { c with supply := .places rest, skip }) (s := s') hdone
      hremaining hrest
  | unsorted keys pending =>
    obtain ⟨s', hgather⟩ := gather_found c.predicate pending s
    simp only [hgather, Results.sort]
    cases (found c.predicate pending s).failure with
    | none => exact yields_nextOf hdone hremaining _ s'
    | some e =>
      rw [Results.page_of_drop_nil List.drop_nil hremaining]
      exact ⟨rfl, due_of_done (s := s') rfl, rfl⟩
  | documents docs => exact yields_nextOf hdone hremaining docs s

/-- Pull after pull, all that is due comes out. -/
theorem pulls_due (n : Nat) (c : QueryCursor α) (s : σ) :
    (c.pulls n s).1 = (List.range n).map (c.due s).answer ∧
      (c.pulls n s).2.1.yielded = c.yielded + min n (c.due s).docs.length := by
  induction n generalizing c s with
  | zero => simp [pulls]
  | succ n ih =>
    have hnext := next_due c s
    obtain ⟨hanswers, hyielded⟩ := ih (c.next s).2.1 (c.next s).2.2
    have hlength := (c.due s).length_tail
    rw [hnext.due_eq] at hanswers hyielded
    rw [hnext.yielded_eq] at hyielded
    constructor
    · rw [List.range_succ_eq_map, List.map_cons, List.map_map, ← hnext.answer_eq]
      change (c.next s).1 :: (pulls n (c.next s).2.1 (c.next s).2.2).1 = _
      rw [hanswers]
      exact congrArg _ (List.map_congr_left fun i _ => (c.due s).answer_tail i)
    · change (pulls n (c.next s).2.1 (c.next s).2.2).2.1.yielded = _
      rw [hyielded]
      omega

theorem due_run (p : Plan) (pending : List α) (s : σ) :
    (run p pending).due s = p.results (Source.items pending s) := by
  rw [Plan.results, run]
  cases p.isEmpty with
  | true => rfl
  | false =>
    cases hsort : p.needsSort <;> rfl

theorem pulls_empty (n : Nat) (s : σ) : ((empty : QueryCursor α).pulls n s).2.2 = s := by
  induction n with
  | zero => rfl
  | succ n ih => exact ih

end QueryCursor

/-- Whatever a plan and a source: so many pulls of a cursor give the results of the plan one after
another, then the failure if there is one to come out, and nothing after these. A plan that lets
no document out leaves the source alone. -/
theorem pulls_eq_results {α σ : Type} [Source α σ] (p : Plan) (pending : List α) (s : σ) (n : Nat) :
    let results := p.results (Source.items pending s)
    let after := (QueryCursor.run p pending).pulls n s
    after.1 = (List.range n).map results.answer ∧
      after.2.1.yielded = min n results.docs.length ∧
      (∀ early answer late, after.1 = early ++ answer :: late → (∀ d, answer ≠ some (.ok d)) →
        ∀ later ∈ late, later = none) ∧
      (p.isEmpty = true → after.2.2 = s) ∧
      ∀ docs, Sorts p.sort docs (sortDocuments p.sort docs) := by
  intro results after
  obtain ⟨hanswers, hyielded⟩ := QueryCursor.pulls_due n (QueryCursor.run p pending) s
  rw [QueryCursor.due_run] at hanswers hyielded
  have hfresh : (QueryCursor.run p pending).yielded = 0 := by
    rw [QueryCursor.run]
    split <;> rfl
  have hat : ∀ i answer, after.1[i]? = some answer → answer = results.answer i := by
    intro i answer hi
    rw [show after.1 = _ from hanswers] at hi
    obtain ⟨hlt, rfl⟩ := List.getElem?_eq_some_iff.mp hi
    rw [List.getElem_map, List.getElem_range]
  refine ⟨hanswers, ?_, ?_, ?_, sorts_sortDocuments p.sort⟩
  · rw [hyielded, hfresh, Nat.zero_add]
  · intro early answer late hsplit hanswer later hlater
    obtain ⟨i, hi⟩ := List.mem_iff_getElem?.mp hlater
    have hended := hat early.length answer (by simp [hsplit])
    have hbehind : (early ++ answer :: late)[early.length + (i + 1)]? = some later := by
      rw [List.getElem?_append_right (Nat.le_add_right _ _), Nat.add_sub_cancel_left,
        List.getElem?_cons_succ, hi]
    have hlast := hat _ later (hsplit ▸ hbehind)
    rw [hended] at hanswer
    rw [hlast]
    have hle := Results.length_le_of_answer hanswer
    exact Results.answer_of_lt (by omega)
  · intro hempty
    have hrun : QueryCursor.run p pending = QueryCursor.empty := if_pos hempty
    simp only [after, hrun]
    exact QueryCursor.pulls_empty n s

end DocBase
