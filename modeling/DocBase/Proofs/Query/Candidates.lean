import DocBase.Proofs.Query.Access
import DocBase.Proofs.Query.Cursor
import DocBase.Proofs.Query.Order
import DocBase.Collection.Query

/-! Indexes over the stored documents offer every match of a plan once, and in the order
asked for where the plan does not sort. -/
namespace DocBase
open Keyed Std

variable {m : Keyed String Bytes} {p : Predicate} {keys : List SortKey} {ids : List String}

/-! ## Matches at different places -/

/-- Documents are stored under their own identifiers. -/
def OwnIds (m : Keyed String Bytes) : Prop := ∀ id d, documentAt m id = some d → d.id = some id

/-- Every match is at one of the places, and none is at two of them. -/
structure Delivers (m : Keyed String Bytes) (p : Predicate) (ids : List String) : Prop where
  nodup : ids.Nodup
  complete : ∀ id d, documentAt m id = some d → p.holds d → id ∈ ids

theorem mem_matchesAt {d : Document} :
    d ∈ matchesAt p m ids ↔ (∃ id ∈ ids, documentAt m id = some d) ∧ p.holds d := by
  rw [matchesAt, List.mem_filter, List.mem_filterMap]

theorem Delivers.mem_iff (h : Delivers m p ids) {d : Document} :
    d ∈ matchesAt p m ids ↔ (∃ id, documentAt m id = some d) ∧ p.holds d := by
  rw [mem_matchesAt]
  constructor
  · rintro ⟨⟨id, -, hd⟩, hp⟩
    exact ⟨⟨id, hd⟩, hp⟩
  · rintro ⟨⟨id, hd⟩, hp⟩
    exact ⟨⟨id, h.complete id d hd hp, hd⟩, hp⟩

theorem nodup_matchesAt (own : OwnIds m) (h : ids.Nodup) : (matchesAt p m ids).Nodup := by
  refine List.Nodup.filter _ (List.Nodup.filterMap (fun a b d hda hdb => ?_) h)
  have ha := own a d hda
  have hb := own b d hdb
  rw [ha] at hb
  exact Option.some.inj hb

theorem perm_matchesAt (own : OwnIds m) {others : List String} (h : Delivers m p ids)
    (h' : Delivers m p others) : (matchesAt p m ids).Perm (matchesAt p m others) :=
  (List.perm_ext_iff_of_nodup (nodup_matchesAt own h.nodup) (nodup_matchesAt own h'.nodup)).mpr
    fun _ => h.mem_iff.trans h'.mem_iff.symm

/-- Places in some order give matches in order where the one order leads to the other. -/
theorem inOrder_matchesAt {R : String → String → Prop} (h : ids.Pairwise R)
    (hR : ∀ a b d e, R a b → documentAt m a = some d → documentAt m b = some e →
      compareDocuments keys d e ≠ .gt) : InOrder keys (matchesAt p m ids) := by
  refine List.Pairwise.filter _ (List.pairwise_filterMap.mpr (h.imp fun {a b} hab d hd e he => ?_))
  exact hR a b d e hab hd he

theorem inOrder_of_ascending (own : OwnIds m) (h : ids.Pairwise fun a b => compare a b = .lt) :
    InOrder [] (matchesAt p m ids) := by
  refine inOrder_matchesAt h fun a b d e hab hd he => ?_
  rw [compareDocuments, own a d hd, own b e he, compareIds, hab]
  intro hgt
  cases hgt

theorem eq_of_id_eq (own : OwnIds m) {a b : Document} (ha : a ∈ matchesAt p m ids)
    (hb : b ∈ matchesAt p m ids) (hid : a.id = b.id) : a = b := by
  obtain ⟨⟨ida, -, hda⟩, -⟩ := mem_matchesAt.mp ha
  obtain ⟨⟨idb, -, hdb⟩, -⟩ := mem_matchesAt.mp hb
  rw [own ida a hda, own idb b hdb, Option.some.injEq] at hid
  rw [hid, hdb] at hda
  exact (Option.some.inj hda).symm

/-- Matches that are put in order are the same from all places that deliver them. -/
theorem sorted_eq_sortDocuments (own : OwnIds m) {others : List String} (h : Delivers m p ids)
    (h' : Delivers m p others) {docs : List Document} (hperm : docs.Perm (matchesAt p m ids))
    (horder : InOrder keys docs) : docs = sortDocuments keys (matchesAt p m others) :=
  (sortDocuments_eq (fun _ ha _ hb => eq_of_id_eq own ha hb)
    (hperm.trans (perm_matchesAt own h h')) horder).symm

theorem delivers_keys (h : Ascending m) : Delivers m p m.keys := by
  refine ⟨h.nodup_keys, fun id d hd _ => ?_⟩
  rw [documentAt, Option.bind_eq_some_iff] at hd
  obtain ⟨record, hrecord, -⟩ := hd
  exact (mem_keys_iff_get? h).mpr (by rw [hrecord]; rfl)

/-! ## Indexes over the stored documents -/

/-- Each identifier has the value of its document, and no other identifier has one. -/
structure Index.Over (ix : Index) (m : Keyed String Bytes) : Prop where
  sound : ix.Sound
  keyOf : ∀ id, ix.keyOf.get? id = (documentAt m id).bind ix.key?

def Indexed (indexes : Keyed String Index) (m : Keyed String Bytes) : Prop :=
  ∀ field ix, indexes.get? field = some ix → ix.field = field ∧ ix.Over m

theorem Index.Precedes.asymm {ix : Index} {descending : Bool} {a b : String}
    (h : ix.Precedes descending a b) : ¬ ix.Precedes descending b a := by
  obtain ⟨ka, kb, hka, hkb, hab⟩ := h
  rintro ⟨kb', ka', hkb', hka', hba⟩
  rw [hka] at hka'
  rw [hkb] at hkb'
  cases hka'
  cases hkb'
  have hkeys : (compare ka kb).swap = compare kb ka := OrientedCmp.eq_swap.symm
  have hids : (compare a b).swap = compare b a := OrientedCmp.eq_swap.symm
  rw [← hkeys, ← hids] at hba
  rw [← hkeys] at hab
  cases descending <;> cases hc : compare ka kb <;> cases hd : compare a b <;>
    simp [hc, hd] at hab hba

instance (ix : Index) (descending : Bool) : Std.Asymm (ix.Precedes descending) :=
  ⟨fun _ _ h => h.asymm⟩

theorem Index.not_precedes_self (ix : Index) (descending : Bool) (id : String) :
    ¬ ix.Precedes descending id id := fun h => h.asymm h

namespace Index.Over
variable {ix : Index}

theorem get?_keyOf (h : ix.Over m) {id : String} {d : Document} (hd : documentAt m id = some d)
    {v : Value} (hv : d.lookup ix.field = some v) (hindexable : v.isIndexable) :
    ix.keyOf.get? id = some v := by
  rw [h.keyOf, hd, Option.bind_some, key?, hv, Option.filter_some, if_pos hindexable]

theorem lookup_of_keyOf (h : ix.Over m) {id : String} {d : Document}
    (hd : documentAt m id = some d) {v : Value} (hv : ix.keyOf.get? id = some v) :
    d.lookup ix.field = some v := by
  rw [h.keyOf, hd, Option.bind_some, key?, Option.filter_eq_some_iff] at hv
  exact hv.1

theorem complete (h : ix.Over m) {ask : Value → Prop} (asks : p.AsksFor ix.field ask)
    (hids : ∀ id, id ∈ ids ↔ ∃ v, ix.keyOf.get? id = some v ∧ ask v) :
    ∀ id d, documentAt m id = some d → p.holds d → id ∈ ids := by
  intro id d hd hp
  obtain ⟨v, hv, hindexable, hask⟩ := asks d hp
  exact (hids id).mpr ⟨v, h.get?_keyOf hd hv hindexable, hask⟩

theorem delivers_findEq (h : ix.Over m) {values : List Value}
    (asks : p.AsksFor ix.field fun v => ∃ key ∈ values, compare key v = .eq) :
    Delivers m p (ix.findEq values) := by
  refine ⟨nodup_of_ascending (ix.pairwise_findEq values), h.complete asks fun id => ?_⟩
  refine (ix.mem_findEq h.sound values id).trans ?_
  exact ⟨fun ⟨key, hkey, k, hk, hc⟩ => ⟨k, hk, key, hkey, hc⟩,
    fun ⟨k, hk, key, hkey, hc⟩ => ⟨key, hkey, k, hk, hc⟩⟩

theorem delivers_findRange (h : ix.Over m) {r : ValueRange} {descending : Bool}
    (hids : ix.findRange r.lower r.upper descending = some ids)
    (asks : p.AsksFor ix.field r.Admits) : Delivers m p ids := by
  refine ⟨?_, h.complete asks (ix.mem_findRange h.sound hids)⟩
  refine (ix.pairwise_findRange h.sound hids).imp fun {a b} hab e => ?_
  rw [e] at hab
  exact ix.not_precedes_self descending b hab

/-- The order in which an index gives a range is the order of the documents by its field. -/
theorem compareDocuments_ne_gt (h : ix.Over m) (own : OwnIds m) {order : SortOrder}
    {a b : String} {d e : Document} (hab : ix.Precedes (order == .desc) a b)
    (hd : documentAt m a = some d) (he : documentAt m b = some e) :
    compareDocuments [{ field := ix.field, order }] d e ≠ .gt := by
  obtain ⟨ka, kb, hka, hkb, hab⟩ := hab
  have hids : compareIds d.id e.id = compare a b := by rw [own a d hd, own b e he]; rfl
  have hkey : SortKey.compare { field := ix.field, order } d e =
      if order == .desc then compare kb ka else compare ka kb := by
    rw [SortKey.compare, h.lookup_of_keyOf hd hka, h.lookup_of_keyOf he hkb]
    cases order with
    | asc => rfl
    | desc =>
      change (compare ka kb).swap = compare kb ka
      exact OrientedCmp.eq_swap.symm
  rw [compareDocuments, compareDocuments, hkey, hids]
  rcases hab with hlt | ⟨heq, hlt⟩
  · rw [hlt]
    intro hgt
    cases hgt
  · have hkeys : (if order == .desc then compare kb ka else compare ka kb) = .eq := by
      split
      · exact OrientedCmp.eq_symm heq
      · exact heq
    rw [hkeys, hlt]
    intro hgt
    cases hgt

end Index.Over

/-! ## Candidates -/

variable {σ : Type} {c : Collection σ}

theorem Collection.get?_indexKinds (c : Collection σ) (field : String) :
    c.indexKinds.get? field = (c.indexes.get? field).map (·.kind) :=
  get?_mapValues (fun ix : Index => ix.kind) field c.indexes

theorem pairwise_mergeSort_ids (h : ids.Nodup) :
    (ids.mergeSort fun a b => compare a b != .gt).Pairwise fun a b => compare a b = .lt := by
  have hnodup := (List.mergeSort_perm ids fun a b => compare a b != .gt).nodup_iff.mpr h
  refine (pairwise_mergeSort_ne_gt compare ids).imp₂ (fun a b hle hne => ?_) hnodup
  cases hc : compare a b with
  | lt => rfl
  | eq => exact absurd (LawfulEqOrd.eq_of_compare hc) hne
  | gt => exact absurd hc hle

theorem Delivers.mergeSort (h : Delivers m p ids) :
    Delivers m p (ids.mergeSort fun a b => compare a b != .gt) :=
  ⟨(List.mergeSort_perm ids _).nodup_iff.mpr h.nodup,
    fun id d hd hp => List.mem_mergeSort.mpr (h.complete id d hd hp)⟩

/-- The places that a plan looks at: those that its index offers, or all of them. -/
theorem candidates_spec (hindexed : Indexed c.indexes m) (own : OwnIds m) {p : Plan}
    (covers : p.access.Covers c.indexKinds p.predicate p.sort) :
    match c.candidates p with
    | none => p.access.isOrdered = false
    | some ids => Delivers m p.predicate ids ∧
        (p.needsSort = false → InOrder p.sort (matchesAt p.predicate m ids)) := by
  have hunsorted : p.access.isOrdered = false → p.needsSort = false → p.sort = [] := by
    intro hordered hsort
    simpa [Plan.needsSort, hordered] using hsort
  rw [Collection.candidates]
  cases haccess : p.access with
  | fullScan => rfl
  | lookup field keys =>
    rw [haccess] at covers hunsorted
    cases covers with
    | lookup indexed asks =>
      rw [Keyed.contains, Collection.get?_indexKinds, Option.isSome_map] at indexed
      obtain ⟨ix, hix⟩ := Option.isSome_iff_exists.mp indexed
      obtain ⟨rfl, hover⟩ := hindexed field ix hix
      simp only [hix, Option.map_some]
      refine ⟨hover.delivers_findEq asks, fun hsort => ?_⟩
      rw [hunsorted rfl hsort]
      exact inOrder_of_ascending own (ix.pairwise_findEq keys)
  | range field r ordered descending =>
    rw [haccess] at covers hunsorted
    cases covers with
    | range indexed asks sorted =>
      rw [Collection.get?_indexKinds, Option.map_eq_some_iff] at indexed
      obtain ⟨ix, hix, hkind⟩ := indexed
      obtain ⟨rfl, hover⟩ := hindexed field ix hix
      obtain ⟨ids, hids⟩ : ∃ ids, ix.findRange r.lower r.upper descending = some ids :=
        Index.exists_findRange_iff.mpr hkind
      have hdelivers := hover.delivers_findRange hids asks
      simp only [hix, hids, Option.bind_eq_bind, Option.bind_some, Option.pure_def]
      cases ordered with
      | true =>
        obtain ⟨order, hsort, rfl⟩ := sorted rfl
        refine ⟨hdelivers, fun _ => ?_⟩
        rw [hsort]
        exact inOrder_matchesAt (ix.pairwise_findRange hover.sound hids)
          fun a b d e hab hd he => hover.compareDocuments_ne_gt own hab hd he
      | false =>
        refine ⟨hdelivers.mergeSort, fun hsort => ?_⟩
        rw [hunsorted rfl hsort]
        exact inOrder_of_ascending own (pairwise_mergeSort_ids hdelivers.nodup)

end DocBase
