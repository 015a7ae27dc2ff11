import DocBase.Proofs.Action
import DocBase.Proofs.Query.Ordered
import DocBase.Proofs.Collection.Ledger

/-! Collections that differ only in what their stores have counted and cached. Every operation
has the same outcome on both and leaves them so, and reading alone changes nothing else. The
documents that come out have the names of all objects in order. -/
namespace DocBase.Collection
open Keyed

variable {σ : Type} {S : σ → σ → Prop} {c d : Collection σ}

/-- Collections over related stores, alike but for their counts, under a schema whose defaults
are in order. -/
structure Twins (S : σ → σ → Prop) (c d : Collection σ) : Prop where
  store : S c.store d.store
  rest : d = { c with store := d.store, counts := d.counts }
  schema : ∀ s, c.schema = some s → s.WellFormed

namespace Twins

theorem schema_eq (h : Twins S c d) : d.schema = c.schema := by rw [h.rest]

theorem limit_eq (h : Twins S c d) : d.maxDocumentSize = c.maxDocumentSize := by rw [h.rest]

theorem indexes_eq (h : Twins S c d) : d.indexes = c.indexes := by rw [h.rest]

theorem name_eq (h : Twins S c d) : d.name = c.name := by rw [h.rest]

theorem withStore (h : Twins S c d) {S' : σ → σ → Prop} {s t : σ} (hst : S' s t) :
    Twins S' { c with store := s } { d with store := t } := by
  refine ⟨hst, ?_, h.schema⟩
  rw [h.rest]

theorem count (h : Twins S c d) (f : CollectionCounts → CollectionCounts) :
    Twins S (c.count f) (d.count f) := by
  refine ⟨h.store, ?_, h.schema⟩
  rw [h.rest]
  rfl

theorem withIndexes (h : Twins S c d) (f : Keyed String Index → Keyed String Index) :
    Twins S { c with indexes := f c.indexes } { d with indexes := f d.indexes } := by
  refine ⟨h.store, ?_, h.schema⟩
  rw [h.rest]

theorem withSchema (h : Twins S c d) {s : Option Schema} (hs : ∀ t, s = some t → t.WellFormed) :
    Twins S { c with schema := s } { d with schema := s } := by
  refine ⟨h.store, ?_, hs⟩
  rw [h.rest]

theorem plan_eq (h : Twins S c d) (q : Query) : d.plan q = c.plan q := by
  rw [plan, plan, indexKinds, indexKinds, h.name_eq, h.indexes_eq]

theorem candidates_eq (h : Twins S c d) (p : Plan) : d.candidates p = c.candidates p := by
  rw [candidates.eq_def, candidates.eq_def, h.indexes_eq]

theorem isEmpty_eq [RecordStore σ] (hS : Indistinct S) (h : Twins S c d) :
    d.isEmpty = c.isEmpty := by
  rw [isEmpty, isEmpty, size, size, hS.size h.store]

end Twins

/-! ## Steps -/

theorem relates_onStore {α : Type} {f : σ → Except StoreError α × σ}
    (hf : ∀ s t, S s t → ∃ r s' t', f s = (r, s') ∧ f t = (r, t') ∧ S s' t') :
    Relates (Twins S) (onStore f) (onStore f) Eq := by
  intro c d h
  obtain ⟨r, s', t', hs, ht, hst⟩ := hf c.store d.store h.store
  rw [onStore_apply hs, onStore_apply ht]
  refine ⟨?_, h.withStore hst⟩
  cases r <;> exact rfl

theorem silent_onStore {α : Type} {f : σ → Except StoreError α × σ}
    (hf : ∀ s t, S s t → S (f s).2 t) : Silent (Twins S) (onStore f) := by
  intro c d h
  refine ⟨hf _ _ h.store, ?_, h.schema⟩
  rw [h.rest]
  rfl

theorem relates_decode (id : String) (record : Bytes) :
    Relates (Twins S) (liftM (decode id record) : CollectionAction σ Document)
      (liftM (decode id record)) fun d w => d = w ∧ d.WellFormed :=
  .lift <| .of_eq rfl fun _ hd => Document.wellFormed_of_decode (decode_eq_ok.mp hd)

/-! ## The same outcome -/

variable [RecordStore σ]

theorem relates_readRecord (hS : Indistinct S) (id : String) :
    Relates (Twins S) (readRecord id) (readRecord id) Eq :=
  relates_onStore fun _ _ h => hS.get h id

theorem relates_scanAll (hS : Indistinct S) : Relates (Twins S) scanAll scanAll Eq :=
  relates_onStore fun _ _ h => hS.scan h .all

/-- A document is put in place and answered. -/
theorem relates_commit (hS : Indistinct S) (id : String) (w : Document) (record : Bytes)
    (f : CollectionCounts → CollectionCounts) {P : Document → Prop} (hw : P w) :
    let commit : CollectionAction σ Document := do
      writeRecord id record
      modify fun c => (c.reindex id w).count f
      return w
    Relates (Twins S) commit commit fun a b => a = b ∧ P a := by
  refine (relates_onStore fun _ _ h => hS.put h id record).bind fun _ _ _ => ?_
  refine (Relates.modify fun c d h => ?_).bind fun _ _ _ => Relates.pure ⟨rfl, hw⟩
  exact (h.withIndexes fun ixs => ixs.map fun e => (e.1, e.2.add id w)).count f

theorem relates_insert (hS : Indistinct S) (stamp : Stamp) {doc : Document}
    (hdoc : doc.Ordered) :
    Relates (Twins S) (insert stamp doc) (insert stamp doc) fun a b => a = b ∧ a.Ordered := by
  refine Relates.get.bind fun c d h => ?_
  have hprepare : SameOutcome (fun a b => a = b ∧ a.2.1.Ordered) (c.prepareInsert stamp doc)
      (d.prepareInsert stamp doc) := by
    refine .of_eq (prepareInsert_congr h.schema_eq h.limit_eq stamp doc).symm ?_
    rintro ⟨id, w, record⟩ hok
    exact (filledUnder_of_prepareInsert hdoc hok).1.ordered h.schema
  refine (Relates.lift hprepare).bind ?_
  rintro ⟨id, w, record⟩ _ ⟨rfl, hw⟩
  refine (relates_readRecord hS id).bind ?_
  rintro found _ rfl
  cases found with
  | some old => exact Relates.throw _
  | none => exact relates_commit hS id w record _ hw

theorem relates_insertMany (hS : Indistinct S) (stamps : Nat → Stamp) (i : Nat)
    {docs : List Document} (hdocs : ∀ doc ∈ docs, doc.Ordered) :
    Relates (Twins S) (insertMany stamps i docs) (insertMany stamps i docs)
      fun as bs => as = bs ∧ ∀ a ∈ as, a.Ordered := by
  induction docs generalizing i with
  | nil => exact Relates.pure ⟨rfl, fun a ha => absurd ha List.not_mem_nil⟩
  | cons doc rest ih =>
    rw [List.forall_mem_cons] at hdocs
    refine (relates_insert hS (stamps i) hdocs.1).bind ?_
    rintro w _ ⟨rfl, hw⟩
    refine (ih (i + 1) hdocs.2).bind ?_
    rintro ws _ ⟨rfl, hws⟩
    exact Relates.pure ⟨rfl, List.forall_mem_cons.mpr ⟨hw, hws⟩⟩

theorem relates_get? (hS : Indistinct S) (id : String) :
    Relates (Twins S) (get? id) (get? id) fun a b => a = b ∧ ∀ d, a = some d → d.Ordered := by
  refine (relates_readRecord hS id).bind ?_
  rintro found _ rfl
  cases found with
  | none => exact Relates.pure ⟨rfl, fun _ hd => nomatch hd⟩
  | some record =>
    refine (relates_decode id record).bind ?_
    rintro d _ ⟨rfl, hd⟩
    refine Relates.pure ⟨rfl, ?_⟩
    rintro _ ⟨⟩
    exact hd.object

theorem relates_update (hS : Indistinct S) (now : Int64) (id : String) {upd : Update}
    (hupd : upd.WellFormed) :
    Relates (Twins S) (update now id upd) (update now id upd) fun a b => a = b ∧ a.Ordered := by
  have hcheck : SameOutcome (fun a b => a = b ∧ upd.check = .ok ())
      (upd.check.mapError CollectionError.validation)
      (upd.check.mapError CollectionError.validation) := by
    refine .of_eq rfl fun _ hok => ?_
    cases hresult : upd.check with
    | error e => rw [hresult] at hok; cases hok
    | ok _ => rfl
  refine (Relates.lift hcheck).bind ?_
  rintro _ _ ⟨-, hcheck⟩
  refine (relates_readRecord hS id).bind ?_
  rintro found _ rfl
  cases found with
  | none => exact Relates.throw _
  | some record =>
    refine (relates_decode id record).bind ?_
    rintro current _ ⟨rfl, hcurrent⟩
    refine Relates.get.bind fun c d h => ?_
    have hprepare : SameOutcome (fun a b => a = b ∧ a.1.Ordered)
        (c.prepareUpdate now id upd current) (d.prepareUpdate now id upd current) := by
      refine .of_eq (prepareUpdate_congr h.schema_eq h.limit_eq now id upd current).symm ?_
      rintro ⟨w, record⟩ hok
      exact (filledUnder_of_prepareUpdate hupd hcurrent hcheck hok).1.ordered h.schema
    refine (Relates.lift hprepare).bind ?_
    rintro ⟨w, record⟩ _ ⟨rfl, hw⟩
    exact relates_commit hS id w record _ hw

theorem relates_remove (hS : Indistinct S) (id : String) :
    Relates (Twins S) (remove id) (remove id) Eq := by
  refine (relates_onStore fun _ _ h => hS.delete h id).bind ?_
  rintro found _ rfl
  cases found with
  | false => exact Relates.pure rfl
  | true =>
    refine (Relates.modify fun c d h => ?_).bind fun _ _ _ => Relates.pure rfl
    exact (h.withIndexes fun ixs => ixs.map fun e => (e.1, e.2.remove id)).count _

/-- The cursor is the same, and nothing is gathered in it yet. -/
theorem relates_execute (hS : Indistinct S) (q : Query) :
    Relates (Twins S) (execute q) (execute q) fun a b => a = b ∧ a.Ordered := by
  refine Relates.get.bind fun c d h => ?_
  rw [h.plan_eq]
  refine (Relates.lift (.refl _)).bind ?_
  rintro p _ rfl
  refine (Relates.modify fun _ _ h => h.count _).bind fun _ _ _ => ?_
  rw [h.candidates_eq]
  split
  · exact Relates.pure ⟨rfl, by rintro _ ⟨⟩ d hd; exact absurd hd List.not_mem_nil⟩
  split
  · exact Relates.pure ⟨rfl, QueryCursor.ordered_run p _⟩
  · refine (relates_scanAll hS).bind ?_
    rintro ids _ rfl
    exact Relates.pure ⟨rfl, QueryCursor.ordered_run p ids⟩

theorem relates_find (hS : Indistinct S) (q : Query) :
    Relates (Twins S) (find q) (find q) fun a b => a = b ∧ ∀ d ∈ a, d.Ordered := by
  refine (relates_execute hS q).bind ?_
  rintro cursor _ ⟨rfl, hcursor⟩ c d h
  obtain ⟨r, s', t', hs, ht, hst, hdocs⟩ :=
    QueryCursor.collectWithin_indistinct hS (cursor.supply.size + 1) hcursor h.store
  rw [collect_apply hs, collect_apply ht]
  refine ⟨.of_eq rfl fun docs hok => ?_, h.withStore hst⟩
  cases r with
  | error e => cases hok
  | ok found => cases hok; exact hdocs docs rfl

theorem relates_countMatching (hS : Indistinct S) (f : Option Filter) :
    Relates (Twins S) (countMatching f) (countMatching f) Eq := by
  cases f with
  | none =>
    refine Relates.get.bind fun c d h => ?_
    rw [size, size, hS.size h.store]
    exact Relates.lift (.refl _)
  | some f =>
    rw [countMatching, matchCount_eq_find]
    refine (relates_find hS _).bind ?_
    rintro docs _ ⟨rfl, -⟩
    exact Relates.pure rfl

theorem relates_readAll (hS : Indistinct S) (ids : List String) :
    Relates (Twins S) (readAll ids) (readAll ids) Eq := by
  induction ids with
  | nil => exact Relates.pure rfl
  | cons id rest ih =>
    refine (relates_readRecord hS id).bind ?_
    rintro found _ rfl
    cases found with
    | none => exact ih
    | some record =>
      refine (relates_decode id record).bind ?_
      rintro d _ ⟨rfl, -⟩
      refine ih.bind ?_
      rintro docs _ rfl
      exact Relates.pure rfl

theorem relates_createIndex (hS : Indistinct S) (field : String) (kind : IndexKind) :
    Relates (Twins S) (createIndex field kind) (createIndex field kind) Eq := by
  rw [createIndex]
  split
  · exact Relates.throw _
  refine Relates.get.bind fun c d h => ?_
  rw [h.indexes_eq]
  split
  · exact Relates.pure rfl
  refine (relates_scanAll hS).bind ?_
  rintro ids _ rfl
  refine (relates_readAll hS ids).bind ?_
  rintro docs _ rfl
  exact Relates.modify fun _ _ h => h.withIndexes _

theorem relates_attachSchema (hS : Indistinct S) {s : Option Schema}
    (hs : ∀ t, s = some t → t.WellFormed) :
    Relates (Twins S) (attachSchema s) (attachSchema s) Eq := by
  refine Relates.get.bind fun c d h => ?_
  have hset := h.withSchema hs
  rw [h.name_eq] at hset
  rw [h.schema_eq, h.isEmpty_eq hS, h.name_eq]
  split
  · exact Relates.pure rfl
  refine (Relates.lift (.refl _)).bind ?_
  rintro empty _ rfl
  cases empty with
  | false => exact Relates.throw _
  | true => exact Relates.set hset

theorem relates_close (hS : Indistinct S) : Relates (Twins S) close close Eq := by
  refine (relates_onStore fun _ _ h => hS.close h).bind fun _ _ _ => ?_
  exact Relates.modify fun _ _ h => h.withIndexes fun _ => []

/-! ## Reading alone -/

theorem silent_get? (hS : Unmoved S) (id : String) : Silent (Twins S) (get? id) := by
  refine (silent_onStore fun _ _ h => hS.get h id).bind fun found => ?_
  cases found with
  | none => exact Silent.pure none
  | some record => exact (Silent.lift _).bind fun d => Silent.pure (some d)

theorem silent_execute (hS : Unmoved S) (q : Query) : Silent (Twins S) (execute q) := by
  refine Silent.get_bind fun c => ?_
  refine (Silent.lift _).bind fun p => ?_
  refine (Silent.modify fun c d h => ?_).bind fun _ => ?_
  · refine ⟨h.store, ?_, h.schema⟩
    rw [h.rest]
    rfl
  split
  · exact Silent.pure _
  split
  · exact Silent.pure _
  · exact (silent_onStore fun _ _ h => hS.scan h .all).bind fun ids => Silent.pure _

theorem silent_find (hS : Unmoved S) (q : Query) : Silent (Twins S) (find q) := by
  refine (silent_execute hS q).bind fun cursor c d h => ?_
  refine ⟨QueryCursor.collectWithin_unmoved hS (cursor.supply.size + 1) h.store, ?_, h.schema⟩
  rw [h.rest]
  rfl

theorem silent_countMatching (hS : Unmoved S) (f : Option Filter) :
    Silent (Twins S) (countMatching f) := by
  cases f with
  | none => exact Silent.get_bind fun c => Silent.lift _
  | some f =>
    rw [countMatching, matchCount_eq_find]
    exact (silent_find hS _).bind fun docs => Silent.pure _

theorem store_close (c : Collection σ) :
    (close c).2.store = (RecordStore.close c.store).2 := by
  refine Silent.after (R := fun c s => c.store = s) (t := (RecordStore.close c.store).2)
    (x := onStore RecordStore.close) (f := fun _ => modify fun c => { c with indexes := [] })
    (fun _ => Silent.modify fun _ _ h => h) ?_
  rfl

end DocBase.Collection
