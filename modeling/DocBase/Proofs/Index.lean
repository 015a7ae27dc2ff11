import DocBase.Proofs.Value.TotalOrder
import DocBase.Index

/-! An index holds each identifier under its value and under no other, whatever was added
and removed, and so its answers are the identifiers whose values are asked for. -/
namespace DocBase.Index
open Keyed Std

/-- The identifiers under a value. -/
def idsUnder (ix : Index) (key : Value) : List String := ((ix.entries.get? key).getD []).keys

/-- The identifiers under the values are those that have them. -/
structure Sound (ix : Index) : Prop where
  keyOf : Ascending ix.keyOf
  entries : Ascending ix.entries
  ids : ∀ key ids, ix.entries.get? key = some ids → Ascending ids
  held : ∀ key id,
    id ∈ ix.idsUnder key ↔ ∃ k, ix.keyOf.get? id = some k ∧ compare key k = .eq

variable {ix : Index}

theorem sound_empty (field : String) (kind : IndexKind) : Sound { field, kind } :=
  ⟨ascending_nil, ascending_nil, by simp [Keyed.get?], by simp [idsUnder, Keyed.get?, keys]⟩

theorem Sound.getD (h : ix.Sound) (key : Value) :
    Ascending ((ix.entries.get? key).getD []) := by
  cases hkey : ix.entries.get? key with
  | none => exact ascending_nil
  | some ids => exact h.ids key ids hkey

/-- The identifiers under one value are put in place. -/
def withIds (ix : Index) (key : Value) (ids : IdSet) : Keyed Value IdSet :=
  if ids.isEmpty then ix.entries.erase key else ix.entries.insert key ids

theorem get?_withIds (h : ix.Sound) (key : Value) (ids : IdSet) (k : Value) :
    ((ix.withIds key ids).get? k).getD [] =
      if compare k key = .eq then ids else (ix.entries.get? k).getD [] := by
  rw [withIds]
  split
  next hempty =>
    rw [List.isEmpty_iff] at hempty
    rw [get?_erase h.entries, hempty]
    split <;> rfl
  next =>
    rw [get?_insert h.entries]
    split <;> rfl

theorem ascending_withIds (h : ix.Sound) (key : Value) (ids : IdSet) :
    Ascending (ix.withIds key ids) := by
  rw [withIds]
  split
  · exact h.entries.erase key
  · exact h.entries.insert key ids

theorem ids_withIds (h : ix.Sound) {key : Value} {ids : IdSet} (hids : Ascending ids) :
    ∀ k s, (ix.withIds key ids).get? k = some s → Ascending s := by
  intro k s hs
  rw [withIds] at hs
  split at hs
  · rw [get?_erase h.entries] at hs
    split at hs
    · cases hs
    · exact h.ids k s hs
  · rw [get?_insert h.entries] at hs
    split at hs
    · cases hs; exact hids
    · exact h.ids k s hs

/-- An index whose identifiers under one value changed as the value of one did. -/
theorem Sound.change (h : ix.Sound) {key : Value} {ids : IdSet} {keyOf : Keyed String Value}
    (hids : Ascending ids) (hkeyOf : Ascending keyOf)
    (hsame : ∀ id, id ∈ ids.keys ↔ ∃ k, keyOf.get? id = some k ∧ compare key k = .eq)
    (hother : ∀ id k, compare k key ≠ .eq →
      ((∃ v, keyOf.get? id = some v ∧ compare k v = .eq) ↔
        ∃ v, ix.keyOf.get? id = some v ∧ compare k v = .eq)) :
    Sound { ix with entries := ix.withIds key ids, keyOf } := by
  refine ⟨hkeyOf, ascending_withIds h key ids, ids_withIds h hids, fun k id => ?_⟩
  simp only [idsUnder, get?_withIds h]
  split
  next hk =>
    rw [hsame]
    simp only [TransCmp.congr_left hk]
  next hk => rw [hother id k hk, ← h.held k id]; rfl

theorem Sound.remove (h : ix.Sound) (id : String) : (ix.remove id).Sound := by
  rw [Index.remove]
  cases hkey : ix.keyOf.get? id with
  | none => exact h
  | some key =>
    refine h.change ((h.getD key).erase id) (h.keyOf.erase id) (fun id' => ?_) fun id' k hk => ?_
    · have hheld := h.held key id'
      rw [idsUnder] at hheld
      rw [mem_keys_erase (h.getD key), hheld]
      constructor
      · rintro ⟨hne, v, hv, hc⟩
        refine ⟨v, ?_, hc⟩
        rw [get?_erase h.keyOf, if_neg fun e => hne (LawfulEqOrd.eq_of_compare e), hv]
      · rintro ⟨v, hv, hc⟩
        rw [get?_erase h.keyOf] at hv
        split at hv
        · cases hv
        next hne => exact ⟨fun e => hne (e ▸ ReflOrd.compare_self), v, hv, hc⟩
    · refine exists_congr fun v => and_congr_left fun hc => ?_
      rw [get?_erase h.keyOf]
      split
      next hid =>
        rw [LawfulEqOrd.eq_of_compare hid, hkey]
        simp only [reduceCtorEq, Option.some.injEq, false_iff]
        rintro rfl
        exact hk hc
      next => rfl

theorem get?_keyOf_remove (h : ix.Sound) (id id' : String) :
    (ix.remove id).keyOf.get? id' = if id' = id then none else ix.keyOf.get? id' := by
  rw [Index.remove]
  cases hkey : ix.keyOf.get? id with
  | none =>
    by_cases hid : id' = id
    · rw [if_pos hid, hid]; exact hkey
    · rw [if_neg hid]
  | some key =>
    simp only [get?_erase h.keyOf]
    by_cases hid : id' = id
    · rw [if_pos hid, if_pos (hid ▸ ReflOrd.compare_self)]
    · rw [if_neg hid, if_neg fun e => hid (LawfulEqOrd.eq_of_compare e)]

@[simp] theorem field_remove (ix : Index) (id : String) : (ix.remove id).field = ix.field := by
  rw [Index.remove]; split <;> rfl

@[simp] theorem key?_remove (ix : Index) (id : String) (d : Document) :
    (ix.remove id).key? d = ix.key? d := by
  rw [key?, key?, field_remove]

@[simp] theorem field_add (ix : Index) (id : String) (d : Document) :
    (ix.add id d).field = ix.field := by
  simp only [add, key?_remove]
  split <;> simp

@[simp] theorem kind_remove (ix : Index) (id : String) : (ix.remove id).kind = ix.kind := by
  rw [Index.remove]; split <;> rfl

@[simp] theorem kind_add (ix : Index) (id : String) (d : Document) :
    (ix.add id d).kind = ix.kind := by
  simp only [add]
  split <;> simp

theorem kind_foldl_add (docs : List (String × Document)) (ix : Index) :
    (docs.foldl (fun ix e => ix.add e.1 e.2) ix).kind = ix.kind := by
  induction docs generalizing ix with
  | nil => rfl
  | cons e rest ih => rw [List.foldl_cons, ih, kind_add]

theorem Sound.add (h : ix.Sound) (id : String) (d : Document) : (ix.add id d).Sound := by
  have hnone : (ix.remove id).keyOf.get? id = none := by
    rw [get?_keyOf_remove h, if_pos rfl]
  simp only [Index.add]
  have h := h.remove id
  generalize ix.remove id = ix at *
  cases hkey : ix.key? d with
  | none => exact h
  | some key =>
    have hids := (h.getD key).insert id ()
    have hentries : ix.entries.insert key (((ix.entries.get? key).getD []).insert id ()) =
        ix.withIds key (((ix.entries.get? key).getD []).insert id ()) := by
      rw [withIds, if_neg]
      rw [List.isEmpty_iff]
      exact insert_ne_nil id () _
    dsimp only
    rw [hentries]
    refine h.change hids (h.keyOf.insert id key) (fun id' => ?_) fun id' k hk => ?_
    · have hheld := h.held key id'
      rw [idsUnder] at hheld
      rw [mem_keys_insert (h.getD key), hheld]
      by_cases hid : id' = id
      · subst hid
        simp [get?_insert_same, ReflOrd.compare_self]
      · simp [get?_insert_ne hid, hid]
    · by_cases hid : id' = id
      · subst hid
        simp [get?_insert_same, hnone, hk]
      · simp [get?_insert_ne hid]

theorem get?_keyOf_add (h : ix.Sound) (id : String) (d : Document) (id' : String) :
    (ix.add id d).keyOf.get? id' = if id' = id then ix.key? d else ix.keyOf.get? id' := by
  simp only [Index.add, key?_remove]
  cases hkey : ix.key? d with
  | none => exact get?_keyOf_remove h id id'
  | some key =>
    dsimp only
    split
    next hid => rw [hid, get?_insert_same]
    next hid => rw [get?_insert_ne hid, get?_keyOf_remove h, if_neg hid]

theorem key?_congr {ix ix' : Index} (h : ix.field = ix'.field) : ix.key? = ix'.key? := by
  funext d
  rw [key?, key?, h]

/-- An index to which the documents at these identifiers are added. -/
theorem foldl_add_spec {f : String → Option Document} (h : ix.Sound) (ids : List String) :
    let out := (ids.filterMap fun id => (f id).map (id, ·)).foldl (fun ix e => ix.add e.1 e.2) ix
    out.Sound ∧ out.field = ix.field ∧ ∀ id, out.keyOf.get? id =
      match if id ∈ ids then f id else none with
      | some d => ix.key? d
      | none => ix.keyOf.get? id := by
  induction ids generalizing ix with
  | nil => exact ⟨h, rfl, fun id => by simp⟩
  | cons i rest ih =>
    cases hi : f i with
    | none =>
      simp only [List.filterMap_cons, hi, Option.map_none]
      obtain ⟨hsound, hfield, hkeyOf⟩ := ih h
      refine ⟨hsound, hfield, fun id => (hkeyOf id).trans ?_⟩
      by_cases hid : id = i
      · simp [hid, hi]
      · simp [hid]
    | some d =>
      simp only [List.filterMap_cons, hi, Option.map_some, List.foldl_cons]
      obtain ⟨hsound, hfield, hkeyOf⟩ := ih (h.add i d)
      have hfield := hfield.trans (field_add ix i d)
      refine ⟨hsound, hfield, fun id => (hkeyOf id).trans ?_⟩
      rw [key?_congr (field_add ix i d), get?_keyOf_add h]
      by_cases hid : id = i
      · subst hid
        by_cases hrest : id ∈ rest <;> simp [hrest, hi]
      · simp [hid]

/-! ## Answers -/

theorem mem_foldl_findEq (ix : Index) (keys : List Value) {s : IdSet} (h : Ascending s) :
    Ascending (keys.foldl (fun ids key =>
        ((ix.entries.get? key).getD []).foldl (fun ids e => ids.insert e.1 ()) ids) s) ∧
      ∀ id, id ∈ (keys.foldl (fun ids key =>
        ((ix.entries.get? key).getD []).foldl (fun ids e => ids.insert e.1 ()) ids) s).keys ↔
        (∃ key ∈ keys, id ∈ ix.idsUnder key) ∨ id ∈ s.keys := by
  induction keys generalizing s with
  | nil => exact ⟨h, fun id => by simp⟩
  | cons key rest ih =>
    obtain ⟨hasc, hall⟩ := ih (h.foldl_insert ((ix.entries.get? key).getD []))
    refine ⟨hasc, fun id => ?_⟩
    rw [List.foldl_cons, hall, mem_keys_foldl_insert h, List.exists_mem_cons_iff, or_assoc,
      or_left_comm]
    rfl

theorem mem_findEq (h : ix.Sound) (keys : List Value) (id : String) :
    id ∈ ix.findEq keys ↔
      ∃ key ∈ keys, ∃ k, ix.keyOf.get? id = some k ∧ compare key k = .eq := by
  have hmem := (mem_foldl_findEq ix keys ascending_nil).2 id
  rw [findEq]
  refine hmem.trans ?_
  simp only [h.held, Keyed.keys, List.map_nil, List.not_mem_nil, or_false]

theorem pairwise_findEq (ix : Index) (keys : List Value) :
    (ix.findEq keys).Pairwise fun a b => compare a b = .lt :=
  pairwise_keys (mem_foldl_findEq ix keys ascending_nil).1

/-- The identifiers of an entry have the value of the entry. -/
theorem Sound.mem_ids (h : ix.Sound) {e : Value × IdSet} (he : e ∈ ix.entries) (id : String) :
    id ∈ e.2.keys ↔ ∃ k, ix.keyOf.get? id = some k ∧ compare e.1 k = .eq := by
  rw [← h.held, idsUnder, get?_of_mem h.entries he]; rfl

theorem Sound.exists_entry (h : ix.Sound) {id : String} {k : Value}
    (hk : ix.keyOf.get? id = some k) :
    ∃ e ∈ ix.entries, id ∈ e.2.keys ∧ compare e.1 k = .eq := by
  have hmem := (h.held k id).mpr ⟨k, hk, ReflOrd.compare_self⟩
  rw [idsUnder] at hmem
  cases hget : ix.entries.get? k with
  | none => rw [hget] at hmem; cases hmem
  | some ids =>
    rw [hget] at hmem
    obtain ⟨k', hc, he⟩ := (get?_eq_some_iff h.entries).mp hget
    exact ⟨(k', ids), he, hmem, OrientedCmp.eq_symm hc⟩

/-- The entries whose values are within the bounds. -/
def within (ix : Index) (lower upper : Bound Value) : Keyed Value IdSet :=
  ix.entries.filter fun e => lower.admitsAbove e.1 && upper.admitsBelow e.1

theorem within_of_crossed (ix : Index) {lower upper : Bound Value} (h : lower.crossed upper) :
    ix.within lower upper = [] := by
  refine List.filter_eq_nil_iff.mpr fun e _ hadmits => ?_
  obtain ⟨ha, hb⟩ := Bool.and_eq_true_iff.mp hadmits
  rw [Bound.not_crossed_of_admits ha hb] at h
  cases h

theorem range?_eq_within (ix : Index) {lower upper : Bound Value}
    (h : lower.crossed upper = false) :
    ix.entries.range? lower upper = some (ix.within lower upper) := by
  rw [Keyed.range?, Bound.not_reversed_of_not_crossed h]
  rfl

/-- An ordered index always has an answer, and leaving the search out where the bounds cross makes
no difference to it. -/
theorem findRange_eq_some_iff {lower upper : Bound Value} {descending : Bool} {ids : List String} :
    ix.findRange lower upper descending = some ids ↔ ix.kind = .btree ∧
      ids = (if descending then (ix.within lower upper).reverse else ix.within lower upper).flatMap
        fun e => Keyed.keys e.2 := by
  rw [findRange]
  cases ix.kind with
  | hash => simp
  | btree =>
    cases hcrossed : lower.crossed upper with
    | true => cases descending <;> simp [within_of_crossed ix hcrossed, eq_comm]
    | false => simp [range?_eq_within ix hcrossed, eq_comm]

theorem exists_findRange_iff {lower upper : Bound Value} {descending : Bool} :
    (∃ ids, ix.findRange lower upper descending = some ids) ↔ ix.kind = .btree := by
  simp only [findRange_eq_some_iff, exists_and_left, exists_eq, and_true]

/-- The order in which an index gives the identifiers of a range. -/
def Precedes (ix : Index) (descending : Bool) (a b : String) : Prop :=
  ∃ ka kb, ix.keyOf.get? a = some ka ∧ ix.keyOf.get? b = some kb ∧
    ((if descending then compare kb ka else compare ka kb) = .lt ∨
      compare ka kb = .eq ∧ compare a b = .lt)

theorem mem_findRange (h : ix.Sound) {lower upper : Bound Value} {descending : Bool}
    {ids : List String} (hids : ix.findRange lower upper descending = some ids) (id : String) :
    id ∈ ids ↔ ∃ k, ix.keyOf.get? id = some k ∧ lower.admitsAbove k ∧ upper.admitsBelow k := by
  obtain ⟨-, rfl⟩ := findRange_eq_some_iff.mp hids
  have hiff : id ∈ (if descending then (ix.within lower upper).reverse
        else ix.within lower upper).flatMap (fun e => Keyed.keys e.2) ↔
      ∃ e ∈ ix.entries, (lower.admitsAbove e.1 ∧ upper.admitsBelow e.1) ∧ id ∈ e.2.keys := by
    cases descending <;> simp [within, List.mem_flatMap, and_assoc]
  refine hiff.trans ⟨?_, ?_⟩
  · rintro ⟨e, he, ⟨hlower, hupper⟩, hid⟩
    obtain ⟨k, hk, hc⟩ := (h.mem_ids he id).mp hid
    exact ⟨k, hk, by rwa [← Bound.admitsAbove_congr hc], by rwa [← Bound.admitsBelow_congr hc]⟩
  · rintro ⟨k, hk, hlower, hupper⟩
    obtain ⟨e, he, hid, hc⟩ := h.exists_entry hk
    exact ⟨e, he, ⟨by rwa [Bound.admitsAbove_congr hc], by rwa [Bound.admitsBelow_congr hc]⟩, hid⟩

theorem pairwise_findRange (h : ix.Sound) {lower upper : Bound Value} {descending : Bool}
    {ids : List String} (hids : ix.findRange lower upper descending = some ids) :
    ids.Pairwise (ix.Precedes descending) := by
  obtain ⟨-, rfl⟩ := findRange_eq_some_iff.mp hids
  have hsub : (ix.within lower upper).Sublist ix.entries := List.filter_sublist
  generalize ix.within lower upper = within at hsub
  have hbetween : within.Pairwise fun e f => ∀ a ∈ e.2.keys, ∀ b ∈ f.2.keys,
      ∃ ka kb, ix.keyOf.get? a = some ka ∧ ix.keyOf.get? b = some kb ∧
        compare ka kb = .lt := by
    refine List.Pairwise.imp_of_mem (fun {e f} he hf hlt a ha b hb => ?_)
      (h.entries.sublist hsub)
    obtain ⟨ka, hka, hca⟩ := (h.mem_ids (hsub.subset he) a).mp ha
    obtain ⟨kb, hkb, hcb⟩ := (h.mem_ids (hsub.subset hf) b).mp hb
    refine ⟨ka, kb, hka, hkb, ?_⟩
    rw [← TransCmp.congr_left hca, ← TransCmp.congr_right hcb]
    exact hlt
  have hinside : ∀ e ∈ within, e.2.keys.Pairwise (ix.Precedes descending) := by
    intro e he
    have hids : Ascending e.2 := h.ids e.1 e.2 (get?_of_mem h.entries (hsub.subset he))
    refine List.Pairwise.imp_of_mem (fun {a b} ha hb hlt => ?_) (pairwise_keys hids)
    obtain ⟨ka, hka, hca⟩ := (h.mem_ids (hsub.subset he) a).mp ha
    obtain ⟨kb, hkb, hcb⟩ := (h.mem_ids (hsub.subset he) b).mp hb
    exact ⟨ka, kb, hka, hkb, Or.inr ⟨TransCmp.eq_trans (OrientedCmp.eq_symm hca) hcb, hlt⟩⟩
  cases descending with
  | false =>
    refine List.pairwise_flatMap.mpr ⟨hinside, hbetween.imp fun {e f} hef a ha b hb => ?_⟩
    obtain ⟨ka, kb, hka, hkb, hlt⟩ := hef a ha b hb
    exact ⟨ka, kb, hka, hkb, Or.inl hlt⟩
  | true =>
    refine List.pairwise_flatMap.mpr ⟨fun e he => hinside e (List.mem_reverse.mp he), ?_⟩
    refine List.pairwise_reverse.mpr (hbetween.imp fun {e f} hef a ha b hb => ?_)
    obtain ⟨kb, ka, hkb, hka, hlt⟩ := hef b hb a ha
    exact ⟨ka, kb, hka, hkb, Or.inl hlt⟩

end DocBase.Index
