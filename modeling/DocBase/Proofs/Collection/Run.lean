import DocBase.Proofs.Collection.Call

/-! What the operations of a collection over an open store do: which records, indexes and
answers they leave. -/
namespace DocBase
open Keyed

namespace Collection

/-! ## Actions -/

section
variable {σ α β : Type} {c t : Collection σ}

theorem planned_of_plan {q : Query} {p : Plan} (h : c.plan q = .ok p) :
    q.predicate = .ok p.predicate ∧ p = q.planned c.name c.indexKinds p.predicate := by
  rw [plan, Plan.compile_eq] at h
  cases hpredicate : q.predicate with
  | error fault => rw [hpredicate] at h; cases h
  | ok predicate => rw [hpredicate] at h; cases h; exact ⟨rfl, rfl⟩

theorem predicate_of_plan {q : Query} {p : Plan} (h : c.plan q = .ok p) :
    q.predicate = .ok p.predicate := (planned_of_plan h).1

theorem find_of_fault [RecordStore σ] {q : Query} {e : CollectionError}
    (hplan : c.plan q = .error e) : find q c = (.error e, c) := by
  rw [find, execute]
  exact bind_of_error (by rw [get_bind, hplan]; exact bind_of_error (lift_apply _) _) _

theorem collect_apply [RecordStore σ] {cursor : QueryCursor String}
    {r : Except QueryError (List Document)} {s : σ} (h : cursor.collect c.store = (r, s)) :
    collect cursor c = (r.mapError .query, { c with store := s }) := by
  rw [collect, h]

theorem matchCount_eq_find [RecordStore σ] (q : Query) :
    (matchCount q : CollectionAction σ Nat) = do return (← find q).length := by
  funext c
  rw [matchCount, find]
  cases hexecute : execute q c with
  | mk r t =>
    cases r with
    | error e => rw [bind_of_error hexecute, bind_of_error (bind_of_error hexecute _)]
    | ok cursor =>
      rw [bind_of_ok hexecute, tally, QueryCursor.tally_eq]
      cases hcollect : cursor.collect t.store with
      | mk found s =>
        have hfind : (execute q >>= collect) c = _ :=
          (bind_of_ok hexecute collect).trans (collect_apply hcollect)
        cases found with
        | error e => rw [bind_of_error hfind]; rfl
        | ok docs => rw [bind_of_ok hfind]; rfl

end

variable {σ : Type} [RecordStore σ] [LawfulStore σ] {c d t u : Collection σ}

/-- What a collection became: its store is open with these records, it has these indexes,
and the rest of what writes depend on is as it was. -/
structure Became (c t : Collection σ) (records : Keyed String Bytes)
    (indexes : Keyed String Index) : Prop where
  ready : LawfulStore.Ready t.store
  records : LawfulStore.records t.store = records
  indexes : t.indexes = indexes
  schema : t.schema = c.schema
  limit : t.maxDocumentSize = c.maxDocumentSize

theorem Became.refl (h : LawfulStore.Ready c.store) :
    Became c c (LawfulStore.records c.store) c.indexes := ⟨h, rfl, rfl, rfl, rfl⟩

theorem Became.trans {rs rs' : Keyed String Bytes} {ixs ixs' : Keyed String Index}
    (h : Became c t rs ixs) (h' : Became t u rs' ixs') : Became c u rs' ixs' :=
  ⟨h'.ready, h'.records, h'.indexes, h'.schema.trans h.schema, h'.limit.trans h.limit⟩

theorem Became.of_resembles {m : Keyed String Bytes}
    (h : @Resembles σ _ (LawfulStore.fallible σ) t d m) (hschema : d.schema = c.schema)
    (hlimit : d.maxDocumentSize = c.maxDocumentSize) : Became c t m d.indexes :=
  let _ := LawfulStore.fallible σ
  ⟨h.ready, h.records, by rw [h.rest], by rw [h.rest]; exact hschema, by rw [h.rest]; exact hlimit⟩

theorem Became.of_untouched (h : @Untouched σ _ (LawfulStore.fallible σ) t c) :
    Became c t (LawfulStore.records c.store) c.indexes := of_resembles h rfl rfl

theorem readRecord_spec (h : LawfulStore.Ready c.store) (id : String) :
    ∃ t, readRecord id c = (.ok ((LawfulStore.records c.store).get? id), t) ∧
      Became c t (LawfulStore.records c.store) c.indexes := by
  obtain ⟨s, hget, hs, hrecords⟩ := LawfulStore.get h id
  refine ⟨{ c with store := s }, ?_, hs, hrecords, rfl, rfl, rfl⟩
  rw [readRecord, onStore, hget]
  rfl

theorem scanAll_spec (h : LawfulStore.Ready c.store) :
    ∃ t, scanAll c = (.ok (LawfulStore.records c.store).keys, t) ∧
      Became c t (LawfulStore.records c.store) c.indexes := by
  obtain ⟨s, hscan, hs, hrecords⟩ := LawfulStore.scan h .all
  refine ⟨{ c with store := s }, ?_, hs, hrecords, rfl, rfl, rfl⟩
  rw [scanAll, onStore, hscan, walk_all]
  rfl

/-! ## Changes -/

/-- The document that is answered is the one that was put in place. -/
theorem write_cases (h : LawfulStore.Ready c.store) (write : Write) :
    (∃ e t, write.run c = (.error e, t) ∧
      Became c t (LawfulStore.records c.store) c.indexes) ∨
    ∃ id w record t, write.run c = (.ok w, t) ∧ w.id = some id ∧
      encode c.maxDocumentSize w = .ok record ∧
      Became c t ((LawfulStore.records c.store).insert id record)
        (mapValues (·.add id w) c.indexes) := by
  let _ := LawfulStore.fallible σ
  rcases (allOrNothing_write (c := c) h write).cases with
    ⟨e, t, hrun, ht⟩ | ⟨w, t, hrun, id, record, _, hid, hencode, ht⟩
  · exact Or.inl ⟨e, t, hrun, Became.of_untouched ht⟩
  · exact Or.inr ⟨id, w, record, t, hrun, hid, hencode, Became.of_resembles ht rfl rfl⟩

theorem prepareUpdate_of_apply {σ : Type} {c : Collection σ} {upd : Update}
    {d applied fitted : Document} (happly : upd.apply d = .ok applied)
    (hfit : c.fitSchema applied = .ok fitted) (now : Int64) (id : String) :
    let w := { fitted with
      id := some id
      createdAt := d.createdAt
      updatedAt := some (if now < d.updatedAt.getD 0 then d.updatedAt.getD 0 else now) }
    c.prepareUpdate now id upd d = (encode c.maxDocumentSize w).map (w, ·) := by
  intro w
  rw [prepareUpdate, happly]
  change (c.fitSchema applied >>= _) = _
  rw [hfit]
  change (encode c.maxDocumentSize w >>= fun r => pure (w, r)) = _
  cases encode c.maxDocumentSize w <;> rfl

theorem update_of_check_error {σ : Type} [RecordStore σ] {c : Collection σ} {now : Int64}
    {id : String} {upd : Update} {e : ValidationError} (h : upd.check = .error e) :
    update now id upd c = (.error (.validation e), c) := by
  rw [update]
  refine bind_of_error ?_ _
  rw [lift_apply, h]
  rfl

section Update
variable {id : String} {upd : Update} {record : Bytes} {current applied fitted : Document}

/-- An update looks at the stored document, and does with it as the collection that it was. -/
theorem update_apply (h : LawfulStore.Ready c.store) (now : Int64) (hcheck : upd.check = .ok ())
    (hrecord : (LawfulStore.records c.store).get? id = some record)
    (hcurrent : Document.decode record = .ok current) :
    ∃ t, Became c t (LawfulStore.records c.store) c.indexes ∧ update now id upd c =
      (do
        let (w, r) ← liftM (c.prepareUpdate now id upd current)
        writeRecord id r
        modify fun c => (c.reindex id w).count fun n => { n with updates := n.updates + 1 }
        return w : CollectionAction σ Document) t := by
  obtain ⟨t, hread, ht⟩ := readRecord_spec h id
  have hok : (liftM (upd.check.mapError CollectionError.validation) : CollectionAction σ Unit) c =
      (.ok (), c) := by rw [lift_apply, hcheck]; rfl
  have hdecode : (liftM (decode id record) : CollectionAction σ Document) t =
      (.ok current, t) := by rw [lift_apply, decode_eq_ok.mpr hcurrent]
  refine ⟨t, ht, ?_⟩
  rw [update, bind_of_ok hok, bind_of_ok hread, hrecord]
  dsimp only
  rw [bind_of_ok hdecode, get_bind, prepareUpdate_congr ht.schema ht.limit]

theorem update_of_prepareUpdate_error (h : LawfulStore.Ready c.store) {now : Int64}
    (hcheck : upd.check = .ok ()) (hrecord : (LawfulStore.records c.store).get? id = some record)
    (hcurrent : Document.decode record = .ok current) {e : CollectionError}
    (hprepare : c.prepareUpdate now id upd current = .error e) :
    ∃ t, update now id upd c = (.error e, t) ∧
      Became c t (LawfulStore.records c.store) c.indexes := by
  obtain ⟨t, ht, hupdate⟩ := update_apply h now hcheck hrecord hcurrent
  rw [hprepare] at hupdate
  exact ⟨t, hupdate.trans (bind_of_error (lift_apply _) _), ht⟩

/-- An update that passes its checks puts the new document in place, unless the record of that is
refused. -/
theorem update_of_fit (h : LawfulStore.Ready c.store) (now : Int64) (hcheck : upd.check = .ok ())
    (hrecord : (LawfulStore.records c.store).get? id = some record)
    (hcurrent : Document.decode record = .ok current) (happly : upd.apply current = .ok applied)
    (hfit : c.fitSchema applied = .ok fitted) :
    let w := { fitted with
      id := some id
      createdAt := current.createdAt
      updatedAt := some (if now < current.updatedAt.getD 0 then current.updatedAt.getD 0 else now) }
    match encode c.maxDocumentSize w with
    | .error e => ∃ t, update now id upd c = (.error e, t) ∧
        Became c t (LawfulStore.records c.store) c.indexes
    | .ok r =>
      (∃ t, update now id upd c = (.ok w, t) ∧
        Became c t ((LawfulStore.records c.store).insert id r)
          (mapValues (·.add id w) c.indexes)) ∨
      ∃ e t, update now id upd c = (.error (.store e), t) ∧
        Became c t (LawfulStore.records c.store) c.indexes := by
  intro w
  obtain ⟨t, ht, hupdate⟩ := update_apply h now hcheck hrecord hcurrent
  rw [prepareUpdate_of_apply happly hfit] at hupdate
  cases hencode : encode c.maxDocumentSize w with
  | error e =>
    rw [hencode] at hupdate
    exact ⟨t, hupdate.trans (bind_of_error (lift_apply _) _), ht⟩
  | ok r =>
    rw [hencode, Except.map, bind_of_ok (lift_apply _)] at hupdate
    obtain ⟨outcome, s, hput, hs, hcases⟩ := LawfulStore.put ht.ready id r
    have hwrite : writeRecord id r t = (outcome.mapError .store, { t with store := s }) :=
      onStore_apply hput
    rcases hcases with ⟨rfl, hrecords⟩ | ⟨⟨e, rfl⟩, hrecords⟩
    · refine Or.inl ⟨(({ t with store := s } : Collection σ).reindex id w).countUpdate,
        hupdate.trans (bind_of_ok hwrite _), hs, ?_, ?_, ht.schema, ht.limit⟩
      · rw [← ht.records]
        exact hrecords
      · rw [← ht.indexes]
        rfl
    · refine Or.inr ⟨e, { t with store := s }, hupdate.trans (bind_of_error hwrite _), hs, ?_,
        ht.indexes, ht.schema, ht.limit⟩
      exact hrecords.trans ht.records

end Update

theorem remove_spec (h : LawfulStore.Ready c.store) (id : String) :
    ∃ t, remove id c = (.ok ((LawfulStore.records c.store).contains id), t) ∧
      Became c t ((LawfulStore.records c.store).erase id)
        (if (LawfulStore.records c.store).contains id then mapValues (·.remove id) c.indexes
          else c.indexes) := by
  obtain ⟨s, hdelete, hs, hrecords⟩ := LawfulStore.delete h id
  have hfound : onStore (RecordStore.delete id) c =
      (.ok ((LawfulStore.records c.store).contains id), { c with store := s }) := by
    rw [onStore, hdelete]; rfl
  rw [remove, bind_of_ok hfound]
  cases (LawfulStore.records c.store).contains id with
  | true => exact ⟨_, rfl, hs, hrecords, rfl, rfl, rfl⟩
  | false => exact ⟨_, rfl, hs, hrecords, rfl, rfl, rfl⟩

theorem readAll_spec (h : LawfulStore.Ready c.store) {ids : List String}
    (hread : Readable (LawfulStore.records c.store) ids) :
    ∃ t, readAll ids c = (.ok (ids.filterMap fun id =>
        (documentAt (LawfulStore.records c.store) id).map (id, ·)), t) ∧
      Became c t (LawfulStore.records c.store) c.indexes := by
  induction ids generalizing c with
  | nil => exact ⟨c, rfl, Became.refl h⟩
  | cons id rest ih =>
    obtain ⟨t, hrecord, ht⟩ := readRecord_spec h id
    have hrest := ih ht.ready
    rw [ht.records, ht.indexes] at hrest
    obtain ⟨u, hall, hu⟩ := hrest hread.tail
    refine ⟨u, ?_, ht.trans hu⟩
    rw [readAll, bind_of_ok hrecord]
    cases hget : (LawfulStore.records c.store).get? id with
    | none =>
      have hnone : documentAt (LawfulStore.records c.store) id = none := by
        rw [documentAt, hget]; rfl
      rw [List.filterMap_cons, hnone]
      exact hall
    | some record =>
      obtain ⟨d, hd⟩ := hread id List.mem_cons_self record hget
      have hsome : documentAt (LawfulStore.records c.store) id = some d := by
        rw [documentAt, hget, Option.bind_some, hd]; rfl
      dsimp only
      rw [decode_eq_ok.mpr hd, bind_of_ok (lift_apply _), bind_of_ok hall, List.filterMap_cons,
        hsome]
      rfl

/-- Where all records can be read, an index is created over any field of a path without
empty segments. -/
theorem createIndex_spec (h : LawfulStore.Ready c.store)
    (hread : Readable (LawfulStore.records c.store) (LawfulStore.records c.store).keys)
    {field : String} (hfield : (Path.segments field).any (·.isEmpty) = false)
    (hnew : c.indexes.get? field = none) (kind : IndexKind) :
    ∃ t, createIndex field kind c = (.ok (), t) ∧
      t.indexes =
        c.indexes.insert field (indexOver (LawfulStore.records c.store) field kind) := by
  obtain ⟨t, hscan, ht⟩ := scanAll_spec h
  have hall := readAll_spec ht.ready (ht.records ▸ hread)
  rw [ht.records, ht.indexes] at hall
  obtain ⟨u, hall, hu⟩ := hall
  refine ⟨u.putIndex field (indexOver (LawfulStore.records c.store) field kind), ?_, ?_⟩
  · rw [createIndex, hfield, if_neg Bool.false_ne_true]
    simp only [get_bind]
    rw [hnew, Option.map_none, if_neg (by simp), bind_of_ok hscan, bind_of_ok hall]
    rfl
  · rw [putIndex, hu.indexes]

/-! ## Reads -/

theorem get?_spec (h : LawfulStore.Ready c.store) (id : String) :
    ∃ t, get? id c = (match (LawfulStore.records c.store).get? id with
        | none => .ok none
        | some record => (decode id record).map some, t) ∧
      Became c t (LawfulStore.records c.store) c.indexes := by
  obtain ⟨t, hread, ht⟩ := readRecord_spec h id
  refine ⟨t, ?_, ht⟩
  rw [get?, bind_of_ok hread]
  cases (LawfulStore.records c.store).get? id with
  | none => rfl
  | some record =>
    dsimp only
    cases hdecode : decode id record with
    | error e => exact bind_of_error (lift_apply _) _
    | ok d => exact bind_of_ok (lift_apply _) _

/-- A query of which documents can come out looks at the places of its plan. -/
theorem execute_of_plan (h : LawfulStore.Ready c.store) {q : Query} {p : Plan}
    (hplan : c.plan q = .ok p) :
    ∃ t, execute q c = (.ok (if p.isEmpty then .empty else
      .run p ((c.candidates p).getD (LawfulStore.records c.store).keys)), t) ∧
      Became c t (LawfulStore.records c.store) c.indexes := by
  let counted := c.count fun n => { n with queries := n.queries + 1 }
  have hcounted : Became c counted (LawfulStore.records c.store) c.indexes :=
    ⟨h, rfl, rfl, rfl, rfl⟩
  have hcount : (modify (count fun n => { n with queries := n.queries + 1 }) :
      CollectionAction σ Unit) c = (.ok (), counted) := rfl
  rw [execute, get_bind, hplan, bind_of_ok (lift_apply _), bind_of_ok hcount]
  split
  next => exact ⟨counted, rfl, hcounted⟩
  next =>
    cases hcandidates : c.candidates p with
    | some ids => exact ⟨counted, rfl, hcounted⟩
    | none =>
      obtain ⟨t, hscan, ht⟩ := scanAll_spec hcounted.ready
      exact ⟨t, bind_of_ok hscan _, hcounted.trans ht⟩

/-- A query that is well-formed finds the matches at the places of its plan. -/
theorem find_of_plan (h : LawfulStore.Ready c.store) {q : Query} {p : Plan}
    (hplan : c.plan q = .ok p)
    (hread : Readable (LawfulStore.records c.store) (LawfulStore.records c.store).keys) :
    ∃ t, find q c = (.ok (if p.isEmpty then [] else
      let ids := (c.candidates p).getD (LawfulStore.records c.store).keys
      let docs := matchesAt p.predicate (LawfulStore.records c.store) ids
      (QueryCursor.run p ids).page (if p.needsSort then sortDocuments p.sort docs else docs)), t) ∧
      Became c t (LawfulStore.records c.store) c.indexes := by
  obtain ⟨t, hexecute, ht⟩ := execute_of_plan h hplan
  rw [find, bind_of_ok hexecute]
  split
  next => exact ⟨t, rfl, ht⟩
  next hempty =>
    have hids : Readable (LawfulStore.records t.store)
        ((c.candidates p).getD (LawfulStore.records c.store).keys) := by
      rw [ht.records]
      exact hread.of_keys _
    obtain ⟨s, hcollect, hs, hrecords⟩ :=
      QueryCursor.collect_run ht.ready hids (by simpa using hempty)
    refine ⟨{ t with store := s }, ?_, hs, hrecords.trans ht.records, ht.indexes, ht.schema,
      ht.limit⟩
    rw [collect_apply hcollect, ht.records]
    rfl

/-- A query for all documents finds them in the order of their identifiers, or fails at a
record that cannot be read. -/
theorem find_all_cases (h : LawfulStore.Ready c.store) :
    (Readable (LawfulStore.records c.store) (LawfulStore.records c.store).keys ∧
      (find {} c).1 = .ok ((LawfulStore.records c.store).keys.filterMap
        (documentAt (LawfulStore.records c.store)))) ∨
    ∃ id record e, (LawfulStore.records c.store).get? id = some record ∧
      Document.decode record = .error e ∧ (find {} c).1 = .error (.query (.corrupt id e)) := by
  let p := Query.planned {} c.name c.indexKinds (.const true)
  have hplan : c.plan {} = .ok p := by
    rw [plan, Plan.compile_eq]
    rfl
  have hempty : p.isEmpty = false := rfl
  by_cases hread : Readable (LawfulStore.records c.store) (LawfulStore.records c.store).keys
  · obtain ⟨t, hfind, -⟩ := find_of_plan h hplan hread
    refine Or.inl ⟨hread, ?_⟩
    have hpage : ∀ ids docs, (QueryCursor.run p ids).page docs = docs :=
      fun ids docs => List.map_id docs
    have hall : ∀ docs : List Document, docs.filter (Predicate.const true).holds = docs :=
      fun docs => List.filter_eq_self.mpr fun _ _ => rfl
    rw [hfind, hempty, if_neg Bool.false_ne_true, hpage]
    exact congrArg Except.ok (hall _)
  · obtain ⟨t, hexecute, ht⟩ := execute_of_plan h hplan
    have hexecute : execute {} c =
        (.ok (QueryCursor.scanning (LawfulStore.records c.store).keys 0), t) := hexecute
    have hstored : ∀ id ∈ (LawfulStore.records c.store).keys,
        ∃ record, (LawfulStore.records t.store).get? id = some record := by
      intro id hid
      obtain ⟨record, hmem⟩ := mem_keys.mp hid
      rw [ht.records]
      exact ⟨record, get?_of_mem (LawfulStore.ascending h) hmem⟩
    obtain ⟨id, record, e, s, hrecord, hdecode, hcollect⟩ :=
      QueryCursor.collectWithin_unreadable 0 ht.ready hstored (ht.records ▸ hread)
        (Nat.lt_succ_self _)
    rw [ht.records] at hrecord
    refine Or.inr ⟨id, record, e, hrecord, hdecode, ?_⟩
    rw [find, bind_of_ok hexecute, collect_apply hcollect]
    rfl

end Collection
end DocBase
