import DocBase.Proofs.Store.Laws
import DocBase.Query.Cursor

/-! What a cursor yields over readable records: the matches at its places, in order or
sorted, of which the page that was asked for comes out. -/
namespace DocBase
open Keyed

variable {σ : Type} [RecordStore σ] [LawfulStore σ]

/-- The document under an identifier, if there is a record that can be read. -/
def documentAt (m : Keyed String Bytes) (id : String) : Option Document :=
  (m.get? id).bind fun record => (Document.decode record).toOption

/-- All records at these identifiers can be read. -/
def Readable (m : Keyed String Bytes) (ids : List String) : Prop :=
  ∀ id ∈ ids, ∀ record, m.get? id = some record → ∃ d, Document.decode record = .ok d

theorem Readable.tail {m : Keyed String Bytes} {id : String} {ids : List String}
    (h : Readable m (id :: ids)) : Readable m ids :=
  fun id' hid => h id' (List.mem_cons_of_mem _ hid)

theorem Readable.decode {m : Keyed String Bytes} (h : Readable m m.keys) {id : String}
    {record : Bytes} (hrecord : m.get? id = some record) :
    ∃ d, Document.decode record = .ok d :=
  h id (mem_keys_of_get? hrecord) record hrecord

theorem Readable.of_keys {m : Keyed String Bytes} (h : Readable m m.keys) (ids : List String) :
    Readable m ids :=
  fun _ _ _ hrecord => h.decode hrecord

theorem readable_of_forall {m : Keyed String Bytes}
    (h : ∀ e ∈ m, (Document.decode e.2).toBool = true) : Readable m m.keys := by
  intro id _ record hrecord
  have hok := h (id, record) (mem_of_get? hrecord)
  cases hdecode : Document.decode record with
  | error e => rw [hdecode] at hok; cases hok
  | ok d => exact ⟨d, rfl⟩

/-- The documents at these identifiers of which the predicate holds. -/
def matchesAt (p : Predicate) (m : Keyed String Bytes) (ids : List String) : List Document :=
  (ids.filterMap (documentAt m)).filter p.holds

theorem matchesAt_cons (p : Predicate) (m : Keyed String Bytes) (id : String)
    (ids : List String) :
    matchesAt p m (id :: ids) =
      match documentAt m id with
      | none => matchesAt p m ids
      | some d => if p.holds d then d :: matchesAt p m ids else matchesAt p m ids := by
  rw [matchesAt, List.filterMap_cons]
  cases documentAt m id with
  | none => rfl
  | some d => exact List.filter_cons

theorem length_matchesAt_le (p : Predicate) (m : Keyed String Bytes) (ids : List String) :
    (matchesAt p m ids).length ≤ ids.length :=
  Nat.le_trans (List.length_filter_le _ _) (List.length_filterMap_le _ _)

/-- A place gives its document when reached, and leaves the store with its records. -/
theorem fetch_spec {s : σ} (h : LawfulStore.Ready s) {id : String} {ids : List String}
    (hread : Readable (LawfulStore.records s) (id :: ids)) :
    ∃ item t, Source.fetch id s = (item, t) ∧ LawfulStore.Ready t ∧
      LawfulStore.records t = LawfulStore.records s ∧
      readDocument item = .ok (documentAt (LawfulStore.records s) id) := by
  obtain ⟨t, hget, ht, hrecords⟩ := LawfulStore.get h id
  cases hrecord : (LawfulStore.records s).get? id with
  | none =>
    rw [hrecord] at hget
    have hfetch : Source.fetch id s = (none, t) := by simp only [Source.fetch, hget]
    exact ⟨none, t, hfetch, ht, hrecords, by rw [documentAt, hrecord]; rfl⟩
  | some record =>
    rw [hrecord] at hget
    obtain ⟨d, hd⟩ := hread id List.mem_cons_self record hrecord
    have hfetch : Source.fetch id s = (some (.ok (id, record)), t) := by
      simp only [Source.fetch, hget]
    refine ⟨_, t, hfetch, ht, hrecords, ?_⟩
    simp [documentAt, hrecord, readDocument, hd, Except.toOption]

/-- The part of the documents that a query asks for, as it goes out. -/
def Query.page (q : Query) (docs : List Document) : List Document :=
  let docs := docs.drop q.skip
  ((q.limit.map docs.take).getD docs).map fun d => (q.projection.map (·.apply d)).getD d

theorem Query.page_nil (q : Query) : q.page [] = [] := by
  cases hlimit : q.limit <;> simp [page, hlimit]

theorem Query.page_of_limit_zero {q : Query} (h : q.limit = some 0) (docs : List Document) :
    q.page docs = [] := by
  simp [page, h]

namespace QueryCursor

/-- What `seek` leaves behind of the places: the first match that is not skipped, and
places at which the matches after it are. -/
theorem seek_spec (p : Predicate) {ids : List String} (skip : Nat) {s : σ}
    (h : LawfulStore.Ready s) (hread : Readable (LawfulStore.records s) ids) :
    ∃ rest skip' t, seek p ids skip s =
        (((matchesAt p (LawfulStore.records s) ids).drop skip).head?.map .ok, rest, skip', t) ∧
      LawfulStore.Ready t ∧ LawfulStore.records t = LawfulStore.records s ∧
      (∀ id ∈ rest, id ∈ ids) ∧
      ((matchesAt p (LawfulStore.records s) ids).drop skip ≠ [] →
        skip' = 0 ∧ rest.length < ids.length ∧ matchesAt p (LawfulStore.records s) rest =
          ((matchesAt p (LawfulStore.records s) ids).drop skip).tail) := by
  induction ids generalizing skip s with
  | nil => exact ⟨[], skip, s, by simp [seek, matchesAt], h, rfl, by simp, by simp [matchesAt]⟩
  | cons id ids ih =>
    obtain ⟨item, t, hfetch, ht, hrecords, hdocument⟩ := fetch_spec h hread
    have hread' : Readable (LawfulStore.records t) ids := hrecords ▸ hread.tail
    have hnext : ∀ skip, ∃ rest skip' u, seek p ids skip t =
        (((matchesAt p (LawfulStore.records s) ids).drop skip).head?.map .ok, rest, skip', u) ∧
      LawfulStore.Ready u ∧ LawfulStore.records u = LawfulStore.records s ∧
      (∀ id' ∈ rest, id' ∈ id :: ids) ∧
      ((matchesAt p (LawfulStore.records s) ids).drop skip ≠ [] →
        skip' = 0 ∧ rest.length < (id :: ids).length ∧ matchesAt p (LawfulStore.records s) rest =
          ((matchesAt p (LawfulStore.records s) ids).drop skip).tail) := by
      intro skip
      obtain ⟨rest, skip', u, hseek, hu, hsame, hsub, hrest⟩ := ih skip ht hread'
      rw [hrecords] at hseek hsame hrest
      refine ⟨rest, skip', u, hseek, hu, hsame, fun i hi => List.mem_cons_of_mem _ (hsub i hi), ?_⟩
      intro hne
      obtain ⟨hskip, hlen, htail⟩ := hrest hne
      exact ⟨hskip, Nat.lt_succ_of_lt hlen, htail⟩
    simp only [seek, hfetch, hdocument, matchesAt_cons]
    cases hat : documentAt (LawfulStore.records s) id with
    | none => exact hnext skip
    | some d =>
      cases hholds : p.holds d with
      | false => simpa [hholds] using hnext skip
      | true =>
        cases skip with
        | zero =>
          exact ⟨ids, 0, t, by simp [hholds], ht, hrecords,
            fun i hi => List.mem_cons_of_mem _ hi, by simp [hholds]⟩
        | succ skip => simpa [hholds] using hnext skip

theorem gather_spec (p : Predicate) {ids : List String} {s : σ} (h : LawfulStore.Ready s)
    (hread : Readable (LawfulStore.records s) ids) :
    ∃ t, gather p ids s = (.ok (matchesAt p (LawfulStore.records s) ids), t) ∧
      LawfulStore.Ready t ∧ LawfulStore.records t = LawfulStore.records s := by
  induction ids generalizing s with
  | nil => exact ⟨s, rfl, h, rfl⟩
  | cons id ids ih =>
    obtain ⟨item, t, hfetch, ht, hrecords, hdocument⟩ := fetch_spec h hread
    obtain ⟨u, hgather, hu, hsame⟩ := ih ht (hrecords ▸ hread.tail)
    rw [hrecords] at hgather hsame
    refine ⟨u, ?_, hu, hsame⟩
    simp only [gather, hfetch, hdocument, matchesAt_cons]
    cases documentAt (LawfulStore.records s) id with
    | none => exact hgather
    | some d =>
      simp only [hgather]
      cases p.holds d <;> rfl

/-- The page of these documents that is left to a cursor. -/
def page (c : QueryCursor String) (docs : List Document) : List Document :=
  let docs := docs.drop c.skip
  ((c.remaining.map docs.take).getD docs).map fun d => (c.projection.map (·.apply d)).getD d

/-- The documents that are left to a cursor, in the order in which they come. -/
def ahead (c : QueryCursor String) (m : Keyed String Bytes) : List Document :=
  match c.supply with
  | .places ids => matchesAt c.predicate m ids
  | .unsorted keys ids => sortDocuments keys (matchesAt c.predicate m ids)
  | .documents docs => docs

def places (c : QueryCursor String) : List String :=
  match c.supply with
  | .places ids => ids
  | .unsorted _ ids => ids
  | .documents _ => []

theorem page_of_cons {c : QueryCursor String} {docs rest : List Document} {d : Document}
    (hdocs : docs.drop c.skip = d :: rest) (hremaining : c.remaining ≠ some 0)
    (supply : Supply String) :
    c.page docs = (c.projection.map (·.apply d)).getD d ::
      page { c with
        supply, skip := 0, remaining := c.remaining.map (· - 1),
        yielded := c.yielded + 1 } rest := by
  simp only [page, hdocs, List.drop_zero]
  cases hn : c.remaining with
  | none => rfl
  | some n =>
    cases n with
    | zero => exact absurd hn hremaining
    | succ n => rfl

theorem page_of_nil {c : QueryCursor String} {docs : List Document}
    (hdocs : docs.drop c.skip = []) : c.page docs = [] := by
  simp only [page, hdocs]
  cases c.remaining <;> simp

/-- What a pull gives: the first document of the page, with the others still ahead. -/
def Pulled (c : QueryCursor String) (m : Keyed String Bytes)
    (item : Option (Except QueryError Document)) (c' : QueryCursor String) : Prop :=
  match c.page (c.ahead m) with
  | [] => item = none
  | d :: rest => item = some (.ok d) ∧ c'.done = false ∧ c'.supply.size < c.supply.size ∧
      Readable m c'.places ∧ c'.page (c'.ahead m) = rest

theorem pulled_nextOf {c : QueryCursor String} {m : Keyed String Bytes}
    (hdone : c.done = false) (hremaining : c.remaining ≠ some 0)
    (hsize : (c.ahead m).length ≤ c.supply.size) :
    c.Pulled m (nextOf (c.ahead m) c).1 (nextOf (c.ahead m) c).2 := by
  rw [Pulled, nextOf]
  cases hdrop : (c.ahead m).drop c.skip with
  | nil => rw [page_of_nil hdrop]; rfl
  | cons d rest =>
    rw [page_of_cons hdrop hremaining (.documents rest)]
    have hlength := congrArg List.length hdrop
    rw [List.length_drop, List.length_cons] at hlength
    refine ⟨rfl, hdone, ?_, fun id hid => absurd hid List.not_mem_nil, rfl⟩
    change rest.length < c.supply.size
    omega

theorem next_spec {c : QueryCursor String} {s : σ} (h : LawfulStore.Ready s)
    (hread : Readable (LawfulStore.records s) c.places) (hdone : c.done = false) :
    c.Pulled (LawfulStore.records s) (c.next s).1 (c.next s).2.1 ∧
      LawfulStore.Ready (c.next s).2.2 ∧
      LawfulStore.records (c.next s).2.2 = LawfulStore.records s := by
  by_cases hzero : c.remaining = some 0
  · have hpage : c.page (c.ahead (LawfulStore.records s)) = [] := by simp [page, hzero]
    have hnext : c.next s = (none, { c with done := true }, s) := by simp [next, hdone, hzero]
    rw [hnext, Pulled, hpage]
    exact ⟨rfl, h, rfl⟩
  cases hsupply : c.supply with
  | places ids =>
    have hahead : c.ahead (LawfulStore.records s) =
        matchesAt c.predicate (LawfulStore.records s) ids := by rw [ahead, hsupply]
    have hplaces : Readable (LawfulStore.records s) ids := by rwa [places, hsupply] at hread
    obtain ⟨rest, skip', t, hseek, ht, hrecords, hsub, hrest⟩ :=
      seek_spec c.predicate c.skip h hplaces
    simp only [next, hdone, hzero, hsupply, hseek, Bool.false_eq_true, if_false]
    rw [Pulled, hahead, hsupply]
    cases hdrop : (matchesAt c.predicate (LawfulStore.records s) ids).drop c.skip with
    | nil => rw [page_of_nil hdrop]; exact ⟨rfl, ht, hrecords⟩
    | cons d docs =>
      obtain ⟨rfl, hlength, htail⟩ := hrest (by simp [hdrop])
      rw [hdrop] at htail
      rw [page_of_cons hdrop hzero (.places rest)]
      refine ⟨⟨rfl, rfl, hlength, fun id hid => hplaces id (hsub id hid), ?_⟩, ht, hrecords⟩
      simp only [ahead, List.head?_cons, Option.map_some, deliver, htail]
      rfl
  | unsorted keys ids =>
    have hahead : c.ahead (LawfulStore.records s) =
        sortDocuments keys (matchesAt c.predicate (LawfulStore.records s) ids) := by
      rw [ahead, hsupply]
    obtain ⟨t, hgather, ht, hrecords⟩ :=
      gather_spec c.predicate h (by rwa [places, hsupply] at hread)
    simp only [next, hdone, hzero, hsupply, hgather, Bool.false_eq_true, if_false]
    refine ⟨?_, ht, hrecords⟩
    rw [← hahead]
    refine pulled_nextOf hdone hzero ?_
    rw [hahead, hsupply, sortDocuments, List.length_mergeSort]
    exact length_matchesAt_le _ _ _
  | documents docs =>
    have hahead : c.ahead (LawfulStore.records s) = docs := by rw [ahead, hsupply]
    simp only [next, hdone, hzero, hsupply, Bool.false_eq_true, if_false]
    refine ⟨?_, h, trivial⟩
    rw [← hahead]
    exact pulled_nextOf hdone hzero (by rw [hahead, hsupply]; exact Nat.le_refl _)

theorem collectWithin_spec {fuel : Nat} {c : QueryCursor String} {s : σ}
    (h : LawfulStore.Ready s) (hread : Readable (LawfulStore.records s) c.places)
    (hdone : c.done = false) (hfuel : c.supply.size < fuel) :
    ∃ t, collectWithin fuel c s = (.ok (c.page (c.ahead (LawfulStore.records s))), t) ∧
      LawfulStore.Ready t ∧ LawfulStore.records t = LawfulStore.records s := by
  induction fuel generalizing c s with
  | zero => omega
  | succ fuel ih =>
    obtain ⟨hpulled, ht, hrecords⟩ := next_spec h hread hdone
    rw [Pulled] at hpulled
    rw [collectWithin]
    generalize c.next s = pull at *
    obtain ⟨item, c', t⟩ := pull
    cases hpage : c.page (c.ahead (LawfulStore.records s)) with
    | nil =>
      rw [hpage] at hpulled
      cases hpulled
      exact ⟨t, rfl, ht, hrecords⟩
    | cons d rest =>
      rw [hpage] at hpulled
      obtain ⟨rfl, hdone', hsize, hread', hrest⟩ := hpulled
      obtain ⟨u, hcollect, hu, hsame⟩ := ih ht (hrecords ▸ hread') hdone' (by omega)
      rw [hrecords, hrest] at hcollect
      exact ⟨u, by simp only [hcollect]; rfl, hu, hsame.trans hrecords⟩

/-- All that a plan yields from places that it looks at. -/
theorem collect_run {p : Plan} {ids : List String} {s : σ} (h : LawfulStore.Ready s)
    (hread : Readable (LawfulStore.records s) ids) (hempty : p.isEmpty = false) :
    ∃ t, (run p ids).collect s =
        (.ok ((run p ids).page (if p.needsSort
          then sortDocuments p.sort (matchesAt p.predicate (LawfulStore.records s) ids)
          else matchesAt p.predicate (LawfulStore.records s) ids)), t) ∧
      LawfulStore.Ready t ∧ LawfulStore.records t = LawfulStore.records s := by
  have hplaces : (run p ids).places = ids := by
    simp only [run, hempty, Bool.false_eq_true, if_false, places]
    cases p.needsSort <;> rfl
  have hahead : ∀ m, (run p ids).ahead m = if p.needsSort
      then sortDocuments p.sort (matchesAt p.predicate m ids)
      else matchesAt p.predicate m ids := by
    intro m
    simp only [run, hempty, Bool.false_eq_true, if_false, ahead]
    cases p.needsSort <;> rfl
  have hdone : (run p ids).done = false := by
    simp only [run, hempty, Bool.false_eq_true, if_false]
  rw [← hahead, collect]
  exact collectWithin_spec h (by rwa [hplaces]) hdone (Nat.lt_succ_self _)

/-! ## Counting -/

theorem tallyWithin_eq {α σ : Type} [Source α σ] (fuel : Nat) (c : QueryCursor α) (s : σ) :
    tallyWithin fuel c s =
      ((collectWithin fuel c s).1.map List.length, (collectWithin fuel c s).2) := by
  induction fuel generalizing c s with
  | zero => rfl
  | succ fuel ih =>
    rw [tallyWithin, collectWithin]
    generalize c.next s = pull
    obtain ⟨item, c', t⟩ := pull
    cases item with
    | none => rfl
    | some answer =>
      cases answer with
      | error e => rfl
      | ok d =>
        simp only [ih]
        cases (collectWithin fuel c' t).1 <;> rfl

/-- As many results are counted as would be collected, and the source is left the same. -/
theorem tally_eq {α σ : Type} [Source α σ] (c : QueryCursor α) (s : σ) :
    c.tally s = ((c.collect s).1.map List.length, (c.collect s).2) :=
  tallyWithin_eq _ c s

/-! ## Records that cannot be read -/

/-- A cursor that lets every document out, with these places still to be read. -/
def scanning (ids : List String) (yielded : Nat) : QueryCursor String :=
  { predicate := .const true, supply := .places ids, skip := 0, remaining := none,
    projection := none, done := false, yielded }

theorem next_scanning {id : String} (ids : List String) (yielded : Nat) {s : σ}
    (h : LawfulStore.Ready s) {record : Bytes}
    (hrecord : (LawfulStore.records s).get? id = some record) :
    ∃ t, LawfulStore.Ready t ∧ LawfulStore.records t = LawfulStore.records s ∧
      match Document.decode record with
      | .ok d => next (scanning (id :: ids) yielded) s =
          (some (.ok d), scanning ids (yielded + 1), t)
      | .error e => ∃ c, next (scanning (id :: ids) yielded) s =
          (some (.error (.corrupt id e)), c, t) := by
  obtain ⟨t, hget, ht, hrecords⟩ := LawfulStore.get h id
  rw [hrecord] at hget
  have hfetch : Source.fetch id s = (some (.ok (id, record)), t) := by
    simp only [Source.fetch, hget]
  refine ⟨t, ht, hrecords, ?_⟩
  cases hdecode : Document.decode record with
  | ok d => simp [next, scanning, seek, hfetch, readDocument, hdecode, Predicate.holds, deliver]
  | error e => simp [next, scanning, seek, hfetch, readDocument, hdecode, deliver]

/-- One record that cannot be read is enough to end a walk over all records with its
fault, whatever was yielded before. -/
theorem collectWithin_unreadable {fuel : Nat} (yielded : Nat) {ids : List String} {s : σ}
    (h : LawfulStore.Ready s)
    (hstored : ∀ id ∈ ids, ∃ record, (LawfulStore.records s).get? id = some record)
    (hunreadable : ¬ Readable (LawfulStore.records s) ids) (hfuel : ids.length < fuel) :
    ∃ id record e t, (LawfulStore.records s).get? id = some record ∧
      Document.decode record = .error e ∧
      collectWithin fuel (scanning ids yielded) s = (.error (.corrupt id e), t) := by
  induction ids generalizing fuel yielded s with
  | nil => exact absurd (fun id hid => absurd hid List.not_mem_nil) hunreadable
  | cons id ids ih =>
    obtain ⟨fuel, rfl⟩ := Nat.exists_eq_succ_of_ne_zero (Nat.ne_zero_of_lt hfuel)
    obtain ⟨record, hrecord⟩ := hstored id List.mem_cons_self
    obtain ⟨t, ht, hrecords, hnext⟩ := next_scanning ids yielded h hrecord
    rw [collectWithin]
    cases hdecode : Document.decode record with
    | error e =>
      rw [hdecode] at hnext
      obtain ⟨c, hnext⟩ := hnext
      exact ⟨id, record, e, t, hrecord, hdecode, by rw [hnext]⟩
    | ok d =>
      rw [hdecode] at hnext
      dsimp only at hnext
      have hrest : ¬ Readable (LawfulStore.records t) ids := by
        rw [hrecords]
        intro hread
        refine hunreadable fun i hi r hr => ?_
        rcases List.mem_cons.mp hi with rfl | hi
        · rw [hrecord] at hr
          cases hr
          exact ⟨d, hdecode⟩
        · exact hread i hi r hr
      obtain ⟨i, r, e, u, hr, he, hcollect⟩ := ih (yielded + 1) ht
        (fun i hi => hrecords ▸ hstored i (List.mem_cons_of_mem _ hi)) hrest
        (Nat.lt_of_succ_lt_succ hfuel)
      rw [hrecords] at hr
      exact ⟨i, r, e, u, hr, he, by simp only [hnext, hcollect]; rfl⟩

end QueryCursor
end DocBase
