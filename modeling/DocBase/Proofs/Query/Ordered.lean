import DocBase.Proofs.Document.Edit
import DocBase.Query.Cursor

/-! Cursors over stores that no call tells apart. They give the same documents, and in each of
these the names of all objects are in order. -/
namespace DocBase
open Keyed

/-! ## Documents with names in order -/

theorem Value.wellFormed_at? : ∀ {path : List String} {v w : Value}, v.WellFormed →
    v.at? path = some w → w.WellFormed := by
  intro path
  induction path with
  | nil =>
    intro v w hv h
    rw [Value.at?] at h
    cases h
    exact hv
  | cons s rest ih =>
    intro v w hv h
    cases v with
    | object fs =>
      rw [Value.at?] at h
      cases hget : Keyed.get? s fs with
      | none => rw [hget] at h; cases h
      | some u =>
        rw [hget] at h
        exact ih (WellFormed.get? hv.2 hget) h
    | array xs =>
      rw [Value.at?] at h
      cases hget : (Path.arrayIndex s).bind (xs[·]?) with
      | none => rw [hget] at h; cases h
      | some u =>
        rw [hget] at h
        obtain ⟨i, -, hu⟩ := Option.bind_eq_some_iff.mp hget
        exact ih (wellFormedItems_iff.mp hv u (List.mem_of_getElem? hu)) h
    | _ => rw [Value.at?] at h <;> simp_all

namespace Document

/-- The fields ascend at every level, whatever their names are. -/
def Ordered (d : Document) : Prop := (Value.object d.fields).WellFormed

variable {d out : Document}

theorem ordered_of_decode {record : Bytes} (h : decode record = .ok d) : d.Ordered :=
  (wellFormed_of_decode h).object

theorem Ordered.withFields (h : d.Ordered) {v : Value} (hv : v.WellFormed) :
    (d.withFields v).Ordered := by
  cases v with
  | object fs => exact hv
  | _ => exact h

theorem Ordered.writePath (h : d.Ordered) (path : String) {v : Value} (hv : v.WellFormed) :
    (d.writePath path v).2.Ordered :=
  h.withFields (Value.wellFormed_write hv h)

theorem Ordered.cutPath (h : d.Ordered) (path : String) : (d.cutPath path).2.Ordered := by
  rw [Document.cutPath]
  dsimp only
  split
  next leaf _ => exact h.withFields (Value.wellFormed_cut leaf h)
  next => exact h

theorem Ordered.keep (h : d.Ordered) (hout : out.Ordered) (path : String) :
    (Projection.keep d out path).Ordered := by
  rw [Projection.keep]
  split
  · exact hout
  split
  · exact hout
  split
  · exact hout
  split
  next v hv => exact hout.writePath path (Value.wellFormed_at? h hv)
  next => exact hout

theorem Ordered.drop (hout : out.Ordered) (path : String) :
    (Projection.drop out path).Ordered := by
  rw [Projection.drop]
  split
  · exact hout
  split
  · exact hout
  split
  · exact hout
  exact hout.cutPath path

theorem Ordered.apply (h : d.Ordered) (p : Projection) : (p.apply d).Ordered := by
  cases p with
  | keeping fs =>
    have hstart : Ordered { id := d.id } := ⟨ascending_nil, trivial⟩
    exact List.foldlRecOn (motive := Ordered) fs _ hstart fun _ hout path _ => h.keep hout path
  | dropping fs =>
    exact List.foldlRecOn (motive := Ordered) fs _ h fun _ hout path _ => hout.drop path

end Document

/-! ## Stores that no call tells apart -/

/-- Stores so related answer every call alike, and are so related again afterwards. -/
structure Indistinct {σ : Type} [RecordStore σ] (S : σ → σ → Prop) : Prop where
  get {s t : σ} (h : S s t) (id : String) : ∃ r s' t',
    RecordStore.get id s = (r, s') ∧ RecordStore.get id t = (r, t') ∧ S s' t'
  scan {s t : σ} (h : S s t) (range : ScanRange) : ∃ r s' t',
    RecordStore.scan range s = (r, s') ∧ RecordStore.scan range t = (r, t') ∧ S s' t'
  put {s t : σ} (h : S s t) (id : String) (record : Bytes) : ∃ r s' t',
    RecordStore.put id record s = (r, s') ∧ RecordStore.put id record t = (r, t') ∧ S s' t'
  delete {s t : σ} (h : S s t) (id : String) : ∃ r s' t',
    RecordStore.delete id s = (r, s') ∧ RecordStore.delete id t = (r, t') ∧ S s' t'
  close {s t : σ} (h : S s t) : ∃ r s' t',
    RecordStore.close s = (r, s') ∧ RecordStore.close t = (r, t') ∧ S s' t'
  size {s t : σ} (h : S s t) : RecordStore.size s = RecordStore.size t

theorem Indistinct.eq (σ : Type) [RecordStore σ] : Indistinct (@Eq σ) where
  get := by rintro s _ rfl id; exact ⟨_, _, _, rfl, rfl, rfl⟩
  scan := by rintro s _ rfl range; exact ⟨_, _, _, rfl, rfl, rfl⟩
  put := by rintro s _ rfl id record; exact ⟨_, _, _, rfl, rfl, rfl⟩
  delete := by rintro s _ rfl id; exact ⟨_, _, _, rfl, rfl, rfl⟩
  close := by rintro s _ rfl; exact ⟨_, _, _, rfl, rfl, rfl⟩
  size := by rintro s _ rfl; rfl

/-- Reading from a store leaves it related to whatever it was related to. -/
structure Unmoved {σ : Type} [RecordStore σ] (S : σ → σ → Prop) : Prop where
  get {s t : σ} (h : S s t) (id : String) : S (RecordStore.get id s).2 t
  scan {s t : σ} (h : S s t) (range : ScanRange) : S (RecordStore.scan range s).2 t

/-! ## Cursors -/

namespace QueryCursor
variable {σ : Type} [RecordStore σ] {S : σ → σ → Prop} {s t : σ}

/-- A place gives the same, and what can be read there has its names in order. -/
theorem fetch_indistinct (hS : Indistinct S) (h : S s t) (id : String) : ∃ item s' t',
    Source.fetch id s = (item, s') ∧ Source.fetch id t = (item, t') ∧ S s' t' ∧
      ∀ d, readDocument item = .ok (some d) → d.Ordered := by
  obtain ⟨r, s', t', hs, ht, hst⟩ := hS.get h id
  simp only [Source.fetch, hs, ht]
  have hordered : ∀ item d, readDocument item = .ok (some d) → d.Ordered := by
    intro item d hd
    rw [readDocument.eq_def] at hd
    split at hd
    · cases hd
    · cases hd
    · split at hd
      next hdecode =>
        cases hd
        exact Document.ordered_of_decode hdecode
      next => cases hd
  cases r with
  | error e => exact ⟨_, s', t', rfl, rfl, hst, hordered _⟩
  | ok found =>
    cases found with
    | none => exact ⟨_, s', t', rfl, rfl, hst, hordered _⟩
    | some record => exact ⟨_, s', t', rfl, rfl, hst, hordered _⟩

theorem seek_indistinct (hS : Indistinct S) (p : Predicate) (ids : List String) (skip : Nat)
    (h : S s t) : ∃ item rest left s' t', seek p ids skip s = (item, rest, left, s') ∧
      seek p ids skip t = (item, rest, left, t') ∧ S s' t' ∧
      ∀ d, item = some (.ok d) → d.Ordered := by
  induction ids generalizing skip s t with
  | nil => exact ⟨none, [], skip, s, t, rfl, rfl, h, fun _ hd => nomatch hd⟩
  | cons id rest ih =>
    obtain ⟨item, s', t', hs, ht, hst, hordered⟩ := fetch_indistinct hS h id
    rw [seek, seek, hs, ht]
    dsimp only
    cases hread : readDocument item with
    | error e => exact ⟨_, _, _, s', t', rfl, rfl, hst, fun _ hd => nomatch hd⟩
    | ok found =>
      cases found with
      | none => exact ih skip hst
      | some d =>
        dsimp only
        split
        · exact ih skip hst
        split
        · refine ⟨_, _, _, s', t', rfl, rfl, hst, fun d' hd => ?_⟩
          cases hd
          exact hordered d hread
        · exact ih (skip - 1) hst

theorem gather_indistinct (hS : Indistinct S) (p : Predicate) (ids : List String) (h : S s t) :
    ∃ r s' t', gather p ids s = (r, s') ∧ gather p ids t = (r, t') ∧ S s' t' ∧
      ∀ docs, r = .ok docs → ∀ d ∈ docs, d.Ordered := by
  induction ids generalizing s t with
  | nil =>
    refine ⟨.ok [], s, t, rfl, rfl, h, fun docs hdocs => ?_⟩
    cases hdocs
    exact fun d hd => absurd hd List.not_mem_nil
  | cons id rest ih =>
    obtain ⟨item, s', t', hs, ht, hst, hordered⟩ := fetch_indistinct hS h id
    rw [gather, gather, hs, ht]
    dsimp only
    cases hread : readDocument item with
    | error e => exact ⟨_, s', t', rfl, rfl, hst, fun _ hdocs => nomatch hdocs⟩
    | ok found =>
      cases found with
      | none => exact ih hst
      | some d =>
        obtain ⟨r, s'', t'', hs', ht', hst', hdocs⟩ := ih hst
        dsimp only
        rw [hs', ht']
        refine ⟨_, s'', t'', rfl, rfl, hst', fun docs hr => ?_⟩
        split at hr
        · cases r with
          | error e => cases hr
          | ok found =>
            cases hr
            exact List.forall_mem_cons.mpr ⟨hordered d hread, hdocs found rfl⟩
        · exact hdocs docs hr

/-- The documents that a cursor has gathered have their names in order. -/
def Ordered (c : QueryCursor String) : Prop :=
  ∀ docs, c.supply = .documents docs → ∀ d ∈ docs, d.Ordered

variable {c : QueryCursor String}

theorem ordered_run (p : Plan) (ids : List String) : (run p ids).Ordered := by
  intro docs hdocs
  rw [run] at hdocs
  split at hdocs
  · cases hdocs
    exact fun d hd => absurd hd List.not_mem_nil
  · dsimp only at hdocs
    split at hdocs <;> cases hdocs

theorem ordered_deliver (hc : c.Ordered) {item : Option (Except QueryError Document)}
    (hitem : ∀ d, item = some (.ok d) → d.Ordered) : (c.deliver item).2.Ordered ∧
      ∀ d, (c.deliver item).1 = some (.ok d) → d.Ordered := by
  cases item with
  | none => exact ⟨hc, fun _ hd => nomatch hd⟩
  | some r =>
    cases r with
    | error e => exact ⟨hc, fun _ hd => nomatch hd⟩
    | ok d =>
      refine ⟨hc, fun d' hd => ?_⟩
      have hsame : (c.projection.map (·.apply d)).getD d = d' :=
        Except.ok.inj (Option.some.inj hd)
      rw [← hsame]
      cases c.projection with
      | none => exact hitem d rfl
      | some p => exact (hitem d rfl).apply p

theorem ordered_nextOf {docs : List Document} (hdocs : ∀ d ∈ docs, d.Ordered) :
    (nextOf docs c).2.Ordered ∧ ∀ d, (nextOf docs c).1 = some (.ok d) → d.Ordered := by
  have hleft : ∀ d ∈ docs.drop c.skip, d.Ordered := fun d hd => hdocs d (List.mem_of_mem_drop hd)
  rw [nextOf]
  split
  next =>
    refine ordered_deliver (fun rest hrest => ?_) fun _ hd => nomatch hd
    cases hrest
    exact fun d hd => absurd hd List.not_mem_nil
  next d rest heq =>
    rw [heq, List.forall_mem_cons] at hleft
    refine ordered_deliver (fun docs hrest => ?_) fun d' hd => ?_
    · cases hrest
      exact hleft.2
    · cases hd
      exact hleft.1

theorem next_indistinct (hS : Indistinct S) (hc : c.Ordered) (h : S s t) : ∃ item after s' t',
    c.next s = (item, after, s') ∧ c.next t = (item, after, t') ∧ S s' t' ∧ after.Ordered ∧
      ∀ d, item = some (.ok d) → d.Ordered := by
  rw [next, next]
  split
  · exact ⟨none, c, s, t, rfl, rfl, h, hc, fun _ hd => nomatch hd⟩
  split
  · exact ⟨none, _, s, t, rfl, rfl, h, hc, fun _ hd => nomatch hd⟩
  split
  next ids _ =>
    obtain ⟨item, rest, skip, s', t', hs, ht, hst, hitem⟩ :=
      seek_indistinct hS c.predicate ids c.skip h
    rw [hs, ht]
    have hplaces : QueryCursor.Ordered { c with supply := .places rest, skip } :=
      fun _ hdocs => nomatch hdocs
    obtain ⟨hafter, hd⟩ := ordered_deliver hplaces hitem
    exact ⟨_, _, s', t', rfl, rfl, hst, hafter, hd⟩
  next keys ids _ =>
    obtain ⟨r, s', t', hs, ht, hst, hdocs⟩ := gather_indistinct hS c.predicate ids h
    rw [hs, ht]
    cases r with
    | error e =>
      refine ⟨_, _, s', t', rfl, rfl, hst, fun docs hdocs => ?_, fun _ hd => nomatch hd⟩
      cases hdocs
      exact fun d hd => absurd hd List.not_mem_nil
    | ok docs =>
      have hsorted : ∀ d ∈ sortDocuments keys docs, d.Ordered :=
        fun d hd => hdocs docs rfl d (List.mem_mergeSort.mp hd)
      obtain ⟨hafter, hd⟩ := ordered_nextOf (c := c) hsorted
      exact ⟨_, _, s', t', rfl, rfl, hst, hafter, hd⟩
  next docs hsupply =>
    obtain ⟨hafter, hd⟩ := ordered_nextOf (c := c) (hc docs hsupply)
    exact ⟨_, _, s, t, rfl, rfl, h, hafter, hd⟩

theorem collectWithin_indistinct (hS : Indistinct S) (fuel : Nat) (hc : c.Ordered) (h : S s t) :
    ∃ r s' t', collectWithin fuel c s = (r, s') ∧ collectWithin fuel c t = (r, t') ∧ S s' t' ∧
      ∀ docs, r = .ok docs → ∀ d ∈ docs, d.Ordered := by
  have hnil : ∀ docs, (.ok [] : Except QueryError (List Document)) = .ok docs →
      ∀ d ∈ docs, d.Ordered := by
    rintro docs ⟨⟩ d hd
    exact absurd hd List.not_mem_nil
  induction fuel generalizing c s t with
  | zero => exact ⟨.ok [], s, t, rfl, rfl, h, hnil⟩
  | succ fuel ih =>
    obtain ⟨item, after, s', t', hs, ht, hst, hafter, hitem⟩ := next_indistinct hS hc h
    rw [collectWithin, collectWithin, hs, ht]
    cases item with
    | none => exact ⟨.ok [], s', t', rfl, rfl, hst, hnil⟩
    | some r =>
      cases r with
      | error e => exact ⟨.error e, s', t', rfl, rfl, hst, fun _ hdocs => nomatch hdocs⟩
      | ok d =>
        obtain ⟨r, s'', t'', hs', ht', hst', hdocs⟩ := ih hafter hst
        dsimp only
        rw [hs', ht']
        refine ⟨_, s'', t'', rfl, rfl, hst', fun docs hr => ?_⟩
        cases r with
        | error e => cases hr
        | ok rest =>
          cases hr
          exact List.forall_mem_cons.mpr ⟨hitem d rfl, hdocs rest rfl⟩

/-! ## Reading alone -/

theorem fetch_unmoved (hS : Unmoved S) (h : S s t) (id : String) :
    S (Source.fetch id s).2 t := by
  have hget := hS.get h id
  simp only [Source.fetch]
  split <;> simp_all

theorem seek_unmoved (hS : Unmoved S) (p : Predicate) (ids : List String) (skip : Nat)
    (h : S s t) : S (seek p ids skip s).2.2.2 t := by
  induction ids generalizing skip s with
  | nil => exact h
  | cons id rest ih =>
    have hfetch := fetch_unmoved hS h id
    rw [seek]
    generalize Source.fetch id s = fetched at hfetch
    obtain ⟨item, s'⟩ := fetched
    dsimp only
    split
    · exact hfetch
    · exact ih skip hfetch
    · split
      · exact ih skip hfetch
      split
      · exact hfetch
      · exact ih (skip - 1) hfetch

theorem gather_unmoved (hS : Unmoved S) (p : Predicate) (ids : List String) (h : S s t) :
    S (gather p ids s).2 t := by
  induction ids generalizing s with
  | nil => exact h
  | cons id rest ih =>
    have hfetch := fetch_unmoved hS h id
    rw [gather]
    generalize Source.fetch id s = fetched at hfetch
    obtain ⟨item, s'⟩ := fetched
    dsimp only
    split
    · exact hfetch
    · exact ih hfetch
    · exact ih hfetch

theorem next_unmoved (hS : Unmoved S) (h : S s t) : S (c.next s).2.2 t := by
  rw [next]
  split
  · exact h
  split
  · exact h
  split
  next ids _ => exact seek_unmoved hS c.predicate ids c.skip h
  next keys ids _ =>
    have hgather := gather_unmoved hS c.predicate ids h
    generalize gather c.predicate ids s = gathered at hgather
    obtain ⟨r, s'⟩ := gathered
    cases r <;> exact hgather
  next => exact h

theorem collectWithin_unmoved (hS : Unmoved S) (fuel : Nat) (h : S s t) :
    S (collectWithin fuel c s).2 t := by
  induction fuel generalizing c s with
  | zero => exact h
  | succ fuel ih =>
    have hnext := next_unmoved (c := c) hS h
    rw [collectWithin]
    generalize c.next s = pulled at hnext
    obtain ⟨item, after, s'⟩ := pulled
    dsimp only
    split
    next heq => cases heq; exact hnext
    next heq => cases heq; exact hnext
    next heq => cases heq; exact ih hnext

end QueryCursor
end DocBase
