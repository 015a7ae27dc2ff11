import DocBase.Proofs.Collection.Ledger
import DocBase.Proofs.Query.Candidates

/-! Indexes are kept up with the documents that are written, call by call, and are never
built again from the records. Where the records are read as what was written, an index is all
the same as a new one, whichever of the calls before failed. -/
namespace DocBase
open Keyed

/-! ## Single indexes -/

/-- An index over the documents that were written, or decoded when it was created. -/
structure Index.Tracks (ix : Index) (m : Keyed String Bytes)
    (written : String → Option Document) : Prop where
  sound : ix.Sound
  absent : ∀ id, m.get? id = none → ix.keyOf.get? id = none
  stored : ∀ id record, m.get? id = some record →
    ∃ d, (written id = some d ∨ Document.decode record = .ok d) ∧ ix.keyOf.get? id = ix.key? d

namespace Index.Tracks
variable {ix ix' : Index} {m : Keyed String Bytes} {written : String → Option Document}

theorem add (h : ix.Tracks m written) {id : String} {w : Document}
    (hid : w.id = some id) (record : Bytes) : (ix.add id w).Tracks (m.insert id record)
      fun i => if w.id = some i then some w else written i := by
  have hkey : (ix.add id w).key? = ix.key? := key?_congr (field_add ix id w)
  refine ⟨h.sound.add id w, fun i hi => ?_, fun i r hi => ?_⟩
  · rw [get?_keyOf_add h.sound]
    by_cases hsame : i = id
    · rw [hsame, get?_insert_same] at hi
      cases hi
    · rw [get?_insert_ne hsame] at hi
      rw [if_neg hsame, h.absent i hi]
  · rw [get?_keyOf_add h.sound, hkey, hid]
    rcases get?_insert_eq_some.mp hi with ⟨rfl, -⟩ | ⟨hne, hi⟩
    · simp only [if_true]
      exact ⟨w, Or.inl rfl, rfl⟩
    · rw [if_neg hne, if_neg fun e => hne (Option.some.inj e).symm]
      exact h.stored i r hi

theorem remove (h : ix.Tracks m written) (hm : Ascending m) (id : String) :
    (ix.remove id).Tracks (m.erase id) fun i => if i = id then none else written i := by
  have hkey : (ix.remove id).key? = ix.key? := key?_congr (field_remove ix id)
  refine ⟨h.sound.remove id, fun i hi => ?_, fun i r hi => ?_⟩
  · rw [get?_keyOf_remove h.sound]
    by_cases hsame : i = id
    · rw [if_pos hsame]
    · rw [get?_erase_ne hm hsame] at hi
      rw [if_neg hsame, h.absent i hi]
  · obtain ⟨hne, hi⟩ := (get?_erase_eq_some hm).mp hi
    rw [get?_keyOf_remove h.sound, hkey]
    simp only [if_neg hne]
    exact h.stored i r hi

/-- What was written matters where there are records. -/
theorem congr (h : ix.Tracks m written) {written' : String → Option Document}
    (hwritten : ∀ i record, m.get? i = some record → written' i = written i) :
    ix.Tracks m written' := by
  refine ⟨h.sound, h.absent, fun i r hi => ?_⟩
  rw [hwritten i r hi]
  exact h.stored i r hi

end Index.Tracks

/-- An index that is created over readable records. -/
theorem Collection.tracks_indexOver {m : Keyed String Bytes} (hread : Readable m m.keys)
    (field : String) (kind : IndexKind) (written : String → Option Document) :
    (indexOver m field kind).Tracks m written := by
  obtain ⟨hsound, hfield, hkeyOf⟩ := Index.foldl_add_spec
    (f := documentAt m) (Index.sound_empty field kind) m.keys
  refine ⟨hsound, fun id hid => ?_, fun id record hid => ?_⟩
  · rw [indexOver, hkeyOf, documentAt, hid]
    simp [Keyed.get?]
  · have hmem := mem_keys_of_get? hid
    obtain ⟨d, hd⟩ := hread id hmem record hid
    refine ⟨d, Or.inr hd, ?_⟩
    rw [indexOver, hkeyOf, if_pos hmem, documentAt, hid, Option.bind_some, hd,
      Index.key?_congr hfield]
    rfl

theorem Collection.field_indexOver (m : Keyed String Bytes) (field : String) (kind : IndexKind) :
    (indexOver m field kind).field = field :=
  (Index.foldl_add_spec (Index.sound_empty field kind) m.keys).2.1

theorem Collection.kind_indexOver (m : Keyed String Bytes) (field : String) (kind : IndexKind) :
    (indexOver m field kind).kind = kind := Index.kind_foldl_add _ _

/-- Where records are read as what was written, it is all the same which of the two came in. -/
theorem Index.Tracks.over {ix : Index} {m : Keyed String Bytes}
    {written : String → Option Document} (h : ix.Tracks m written) (hread : ReadsBack m written) :
    ix.Over m := by
  refine ⟨h.sound, fun id => ?_⟩
  cases hrecord : m.get? id with
  | none =>
    rw [h.absent id hrecord, documentAt, hrecord]
    rfl
  | some record =>
    obtain ⟨d, hd, hwritten⟩ := hread id record hrecord
    obtain ⟨e, he, hkey⟩ := h.stored id record hrecord
    have hsame : e = d := by
      rcases he with he | he
      · exact hwritten e he
      · rw [hd] at he; exact (Except.ok.inj he).symm
    rw [hkey, hsame, documentAt, hrecord, Option.bind_some, hd]
    rfl

/-! ## Indexes over the same documents -/

namespace Index.Over
variable {ix ix' : Index} {m : Keyed String Bytes}

theorem keyOf_eq (h : ix.Over m) (h' : ix'.Over m) (hfield : ix.field = ix'.field) (id : String) :
    ix.keyOf.get? id = ix'.keyOf.get? id := by
  rw [h.keyOf, h'.keyOf, key?_congr hfield]

theorem findEq_eq (h : ix.Over m) (h' : ix'.Over m) (hfield : ix.field = ix'.field)
    (keys : List Value) : ix.findEq keys = ix'.findEq keys := by
  have : Std.Asymm fun a b : String => compare a b = .lt :=
    ⟨fun _ _ hlt => Std.OrientedCmp.not_lt_of_lt hlt⟩
  refine (pairwise_findEq ix keys).eq_of_mem_iff (pairwise_findEq ix' keys) fun id => ?_
  rw [mem_findEq h.sound, mem_findEq h'.sound, h.keyOf_eq h' hfield]

theorem findRange_eq (h : ix.Over m) (h' : ix'.Over m) (hfield : ix.field = ix'.field)
    (hkind : ix.kind = ix'.kind) (lower upper : Bound Value) (descending : Bool) :
    ix.findRange lower upper descending = ix'.findRange lower upper descending := by
  have hkeys := h.keyOf_eq h' hfield
  have hsome : (ix.findRange lower upper descending).isSome =
      (ix'.findRange lower upper descending).isSome := by
    rw [Bool.eq_iff_iff, Option.isSome_iff_exists, Option.isSome_iff_exists, exists_findRange_iff,
      exists_findRange_iff, hkind]
  cases hids : ix.findRange lower upper descending with
  | none =>
    rw [hids] at hsome
    exact (Option.not_isSome_iff_eq_none.mp (by rw [← hsome]; exact Bool.false_ne_true)).symm
  | some ids =>
    rw [hids] at hsome
    obtain ⟨ids', hids'⟩ := Option.isSome_iff_exists.mp hsome.symm
    -- both lists are in the one order that their common values have
    have hprecedes : ix'.Precedes descending = ix.Precedes descending := by
      funext a b
      simp only [Precedes, hkeys]
    have hordered' := pairwise_findRange h'.sound hids'
    rw [hprecedes] at hordered'
    rw [hids']
    refine congrArg some ((pairwise_findRange h.sound hids).eq_of_mem_iff hordered' fun id => ?_)
    rw [mem_findRange h.sound hids, mem_findRange h'.sound hids', hkeys]

end Index.Over

/-! ## What every call keeps -/

variable {σ : Type} [RecordStore σ] [FallibleStore σ]

/-- All indexes are over the stored documents. Of the fields of indexes something is known
that is so for all that can be indexed. -/
structure Ledger.Upkept (named : String → Prop) (l : Ledger σ) : Prop where
  ready : FallibleStore.Ready l.collection.store
  ascending : Ascending l.collection.indexes
  indexed : ∀ field ix, l.collection.indexes.get? field = some ix → named field ∧
    ix.field = field ∧ ix.Tracks (FallibleStore.records l.collection.store) l.written

namespace Ledger.Upkept
variable {named : String → Prop} {l : Ledger σ} {c t : Collection σ}

theorem kept (h : l.Upkept named) (ht : t.Resembles c (FallibleStore.records l.collection.store))
    (hc : c.indexes = l.collection.indexes) {written : String → Option Document}
    (hwritten : ∀ i record, (FallibleStore.records l.collection.store).get? i = some record →
      written i = l.written i) : Upkept named { collection := t, written } := by
  have hindexes : t.indexes = l.collection.indexes := by rw [ht.rest]; exact hc
  refine ⟨ht.ready, ?_, fun field ix hix => ?_⟩
  · rw [hindexes]; exact h.ascending
  · rw [hindexes] at hix
    obtain ⟨hnamed, hfield, htracks⟩ := h.indexed field ix hix
    simp only [ht.records]
    exact ⟨hnamed, hfield, htracks.congr hwritten⟩

/-- All indexes changed in the same way as the records. -/
theorem mapped (h : l.Upkept named) {m : Keyed String Bytes} (ht : t.Resembles c m)
    {f : Index → Index} (hc : c.indexes = mapValues f l.collection.indexes)
    {written : String → Option Document} (hfield : ∀ ix, (f ix).field = ix.field)
    (hf : ∀ ix, ix.Tracks (FallibleStore.records l.collection.store) l.written →
      (f ix).Tracks m written) : Upkept named { collection := t, written } := by
  have hindexes : t.indexes = mapValues f l.collection.indexes := by rw [ht.rest]; exact hc
  refine ⟨ht.ready, ?_, fun field ix hix => ?_⟩
  · rw [hindexes]; exact ascending_mapValues.mpr h.ascending
  · rw [hindexes, get?_mapValues, Option.map_eq_some_iff] at hix
    obtain ⟨old, hold, rfl⟩ := hix
    obtain ⟨hnamed, hold, htracks⟩ := h.indexed field old hold
    simp only [ht.records]
    exact ⟨hnamed, (hfield old).trans hold, hf old htracks⟩

theorem write (h : l.Upkept named) (w : Write) : (l.apply (.write w)).Upkept named := by
  rw [Ledger.apply]
  rcases (Collection.allOrNothing_write h.ready w).cases with
    ⟨e, t, hrun, ht⟩ | ⟨d, t, hrun, id, record, f, hid, -, ht⟩
  · rw [hrun]
    exact h.kept ht rfl fun _ _ _ => rfl
  · rw [hrun]
    exact h.mapped ht rfl (fun ix => Index.field_add ix id d)
      fun ix hix => hix.add hid record

theorem remove (h : l.Upkept named) (id : String) : (l.call (.remove id)).Upkept named := by
  rw [Ledger.call]
  rcases (Collection.allOrNothing_remove h.ready id).cases with
    ⟨e, t, hrun, ht⟩ | ⟨found, t, hrun, hfound, ht⟩
  · rw [hrun]
    exact h.kept ht rfl fun _ _ _ => rfl
  · rw [hrun]
    cases found with
    | true =>
      exact h.mapped ht rfl (fun ix => Index.field_remove ix id)
        fun ix hix => hix.remove (FallibleStore.ascending h.ready) id
    -- the indexes are left alone then, and need not be changed
    | false =>
      have hnone : (FallibleStore.records l.collection.store).get? id = none := by
        simpa [Keyed.contains] using hfound.symm
      rw [erase_of_get?_none hnone] at ht
      refine h.kept ht rfl fun i record hi => if_neg fun e => ?_
      rw [e, hnone] at hi
      cases hi

theorem createIndex (h : l.Upkept named)
    (hnamed : ∀ field, (Path.segments field).any (·.isEmpty) = false → named field)
    (field : String) (kind : IndexKind) : (l.call (.createIndex field kind)).Upkept named := by
  rw [Ledger.call, Ledger.apply]
  rcases (Collection.allOrNothing_createIndex h.ready field kind).cases with
    ⟨e, t, hrun, ht⟩ | ⟨_, t, hrun, ⟨-, ht⟩ | ⟨hsegments, hread, ht⟩⟩
  · rw [hrun]; exact h.kept ht rfl fun _ _ _ => rfl
  · rw [hrun]; exact h.kept ht rfl fun _ _ _ => rfl
  · rw [hrun]
    have hindexes : t.indexes = l.collection.indexes.insert field
        (Collection.indexOver (FallibleStore.records l.collection.store) field kind) := by
      rw [ht.rest]; rfl
    refine ⟨ht.ready, ?_, fun field' ix hix => ?_⟩
    · rw [hindexes]; exact h.ascending.insert _ _
    · simp only [ht.records]
      rw [hindexes] at hix
      rcases get?_insert_eq_some.mp hix with ⟨rfl, rfl⟩ | ⟨-, hix⟩
      · exact ⟨hnamed _ hsegments, Collection.field_indexOver _ _ _,
          Collection.tracks_indexOver hread _ _ _⟩
      · exact h.indexed field' ix hix

theorem dropIndex (h : l.Upkept named) (field : String) :
    (l.call (.dropIndex field)).Upkept named := by
  refine ⟨h.ready, h.ascending.erase field, fun field' ix hix => ?_⟩
  exact h.indexed field' ix ((get?_erase_eq_some h.ascending).mp hix).2

theorem attachSchema (h : l.Upkept named) (s : Option Schema) :
    (l.call (.attachSchema s)).Upkept named := by
  rw [Ledger.call]
  rcases (Collection.allOrNothing_attachSchema h.ready s).cases with
    ⟨e, t, hrun, ht⟩ | ⟨_, t, hrun, ⟨-, ht⟩ | ⟨-, rfl⟩⟩
  · rw [hrun]; exact h.kept ht rfl fun _ _ _ => rfl
  · rw [hrun]; exact h.kept ht rfl fun _ _ _ => rfl
  · rw [hrun]; exact ⟨h.ready, h.ascending, h.indexed⟩

theorem call (h : l.Upkept named)
    (hnamed : ∀ field, (Path.segments field).any (·.isEmpty) = false → named field)
    (call : Call) : (l.call call).Upkept named := by
  cases call with
  | write w => exact h.write w
  | insertMany stamps docs =>
    exact insertAll_induction stamps 0 h fun l stamp d _ hl => hl.write (.insert stamp d)
  | remove id => exact h.remove id
  | createIndex field kind => exact h.createIndex hnamed field kind
  | dropIndex field => exact h.dropIndex field
  | attachSchema s => exact h.attachSchema s

theorem callAll (h : l.Upkept named)
    (hnamed : ∀ field, (Path.segments field).any (·.isEmpty) = false → named field)
    (calls : List Call) : (l.callAll calls).Upkept named :=
  List.foldlRecOn (motive := fun l : Ledger σ => l.Upkept named) calls Ledger.call h
    fun _ hl call _ => hl.call hnamed call

end Ledger.Upkept

/-! ## Indexes and new ones -/

namespace Collection

/-- An index holds the stored documents by the values of its field, and answers what one
answers that is created for the same records. -/
theorem index_eq_created {start : Collection σ} (hready : FallibleStore.Ready start.store)
    (hstart : start.indexes = []) (calls : List Call) {l : Ledger σ}
    (hrun : Ledger.callAll calls { collection := start } = l)
    (hread : ReadsBack (FallibleStore.records l.collection.store) l.written)
    {field : String} {ix : Index} (hix : l.collection.indexes.get? field = some ix) :
    let stored := documentAt (FallibleStore.records l.collection.store)
    (∀ id v, ix.keyOf.get? id = some v ↔
      ∃ d, stored id = some d ∧ d.lookup field = some v ∧ v.isIndexable) ∧
    (∀ key id, id ∈ ix.idsUnder key ↔
      ∃ v, ix.keyOf.get? id = some v ∧ compare key v = .eq) ∧
    ∀ {τ : Type} [RecordStore τ] [LawfulStore τ] (plain : Collection τ),
      LawfulStore.Ready plain.store → plain.indexes = [] →
      LawfulStore.records plain.store = FallibleStore.records l.collection.store →
      ∃ built new, createIndex field ix.kind plain = (.ok (), built) ∧
        built.indexes.get? field = some new ∧
        (∀ keys, ix.findEq keys = new.findEq keys) ∧
        ∀ lower upper descending,
          ix.findRange lower upper descending = new.findRange lower upper descending := by
  have hupkept : l.Upkept fun field => (Path.segments field).any (·.isEmpty) = false := by
    rw [← hrun]
    refine Ledger.Upkept.callAll ⟨hready, ?_, fun field ix hix => ?_⟩ (fun _ h => h) calls
    · rw [hstart]; exact ascending_nil
    · rw [hstart] at hix; cases hix
  obtain ⟨hsegments, hfield, htracks⟩ := hupkept.indexed field ix hix
  have hover := htracks.over hread
  refine ⟨fun id v => ?_, hover.sound.held, fun plain hplain hnone hrecords => ?_⟩
  · rw [hover.keyOf, Option.bind_eq_some_iff]
    simp only [Index.key?, Option.filter_eq_some_iff, hfield]
  · have hreadable : Readable (LawfulStore.records plain.store)
        (LawfulStore.records plain.store).keys := by
      rw [hrecords]
      intro id _ record hrecord
      obtain ⟨d, hd, -⟩ := hread id record hrecord
      exact ⟨d, hd⟩
    obtain ⟨built, hcreate, hindexes⟩ :=
      createIndex_spec hplain hreadable hsegments (by rw [hnone]; rfl) ix.kind
    rw [hrecords] at hreadable hindexes
    have hnew : (indexOver (FallibleStore.records l.collection.store) field ix.kind).Over
        (FallibleStore.records l.collection.store) :=
      (tracks_indexOver hreadable field ix.kind l.written).over hread
    have hsame := hfield.trans (field_indexOver (FallibleStore.records l.collection.store)
      field ix.kind).symm
    refine ⟨built, _, hcreate, ?_, hover.findEq_eq hnew hsame,
      hover.findRange_eq hnew hsame ?_⟩
    · rw [hindexes, hnone]
      exact get?_insert_same _ _ _
    · exact (kind_indexOver _ field ix.kind).symm

/-- An index over numbers, one of which becomes another of the same size and one an array.
In between a removal fails. -/
def callsWithFault : List Call :=
  [.createIndex "n" .btree,
    .insertMany (fun _ => { now := 0, freshId := "" })
      [{ id := some "p", fields := [("n", .int 2)] }, { id := some "q", fields := [("n", .int 1)] }],
    .write (.update 1 "p" (.patch [("n", .float (.ofDecimal false 2 0))] [])),
    .remove "q",
    .write (.update 2 "q" (.patch [("n", .array [])] []))]

theorem index_eq_created_after_fault :
    let start : Collection (Faulty MemoryStore) := {
      name := "a"
      store := { store := {}, fault := fun n => if n = 7 then some .closed else none } }
    ∃ l ix built new, Ledger.callAll callsWithFault { collection := start } = l ∧
      l.collection.indexes.get? "n" = some ix ∧ ix.keyOf.keys = ["p"] ∧
      l.collection.store.store.records.keys = ["p", "q"] ∧
      createIndex "n" ix.kind { name := "b", store := l.collection.store.store } = (.ok (), built) ∧
      built.indexes.get? "n" = some new ∧ ∀ keys, ix.findEq keys = new.findEq keys := by
  intro start
  have hready : FallibleStore.Ready start.store := Or.inl ⟨rfl, ascending_nil⟩
  have hcalls : ∀ call ∈ callsWithFault, call.WellFormed := by
    simp [callsWithFault, Call.WellFormed, Write.WellFormed, Update.WellFormed, Value.WellFormed,
      Value.WellFormedFields, Value.WellFormedItems, Ascending]
  have hfiled := (Ledger.filed_start hready).callAll (fun _ h => by cases h) hcalls
  obtain ⟨l, hrun⟩ : ∃ l, Ledger.callAll callsWithFault { collection := start } = l := ⟨_, rfl⟩
  have hkeys : (l.collection.indexes.get? "n").map (·.keyOf.keys) = some ["p"] ∧
      l.collection.store.store.records.keys = ["p", "q"] := by
    rw [← hrun]; decide +kernel
  have hopen : l.collection.store.store.closed = false := by
    rw [← hrun]; decide +kernel
  have hread : Readable l.collection.store.store.records l.collection.store.store.records.keys := by
    rw [← hrun]; exact readable_of_forall (by decide +kernel)
  rw [hrun] at hfiled
  cases hix : l.collection.indexes.get? "n" with
  | none => rw [hix] at hkeys; cases hkeys.1
  | some ix =>
    rw [hix] at hkeys
    have hreads := hfiled.readsBack (fun _ h => by cases h) hread
    obtain ⟨-, -, hcreated⟩ := index_eq_created hready rfl callsWithFault hrun hreads hix
    let plain : Collection MemoryStore := { name := "b", store := l.collection.store.store }
    have hplain : LawfulStore.Ready plain.store := ⟨hopen, FallibleStore.ascending hfiled.ready⟩
    obtain ⟨built, new, hcreate, hnew, heq, -⟩ := hcreated plain hplain rfl rfl
    exact ⟨l, ix, built, new, hrun, hix, Option.some.inj hkeys.1, hkeys.2, hcreate, hnew, heq⟩

end Collection
end DocBase
