import DocBase.Proofs.Index

/-! What an index answers after any calls: what the values say that the last calls left. Values
that are equal share one entry, however they are spelled, and an entry goes with its last
identifier, so that entries are counted as values are. -/
namespace DocBase
open Keyed Std

/-! ## Counting -/

theorem encard_mem_of_nodup {α : Type} {l : List α} (h : l.Nodup) :
    {a | a ∈ l}.encard = l.length := by
  classical
  rw [← List.coe_toFinset, Set.encard_coe_eq_coe_finsetCard, List.toFinset_card_of_nodup h]

/-- Values that are equal under the order are counted once. -/
def Value.sameSetoid : Setoid Value where
  r v w := v.same w
  iseqv :=
    { refl := fun _ => same_iff.mpr ReflOrd.compare_self
      symm := fun h => same_iff.mpr (OrientedCmp.eq_symm (same_iff.mp h))
      trans := fun h h' => same_iff.mpr (TransCmp.eq_trans (same_iff.mp h) (same_iff.mp h')) }

theorem Value.mk_eq_mk_iff {v w : Value} :
    Quotient.mk sameSetoid v = Quotient.mk sameSetoid w ↔ compare v w = .eq :=
  Quotient.eq.trans same_iff

namespace Index

/-! ## Calls -/

inductive Call
  | add (id : String) (d : Document)
  | remove (id : String)
  | clear

def call (ix : Index) : Call → Index
  | .add id d => ix.add id d
  | .remove id => ix.remove id
  | .clear => ix.clear

def callAll (ix : Index) (calls : List Call) : Index := calls.foldl call ix

/-- The value that calls leave for an identifier, of which the latest comes first. -/
def valueAfter (field id : String) : List Call → Option Value
  | [] => none
  | .add other d :: earlier =>
    if id = other then (d.lookup field).filter (·.isIndexable) else valueAfter field id earlier
  | .remove other :: earlier => if id = other then none else valueAfter field id earlier
  | .clear :: _ => none

/-! ## Nothing but the values -/

/-- An index that holds these values by identifier, and no entry without an identifier. -/
structure Holds (ix : Index) (values : String → Option Value) : Prop where
  sound : ix.Sound
  keyOf : ∀ id, ix.keyOf.get? id = values id
  occupied : ∀ e ∈ ix.entries, e.2 ≠ []

variable {ix : Index} {values : String → Option Value}

theorem mem_withIds {key : Value} {ids : IdSet} {e : Value × IdSet}
    (he : e ∈ ix.withIds key ids) : e.2 = ids ∧ ids ≠ [] ∨ e ∈ ix.entries := by
  rw [withIds] at he
  split at he
  next => exact Or.inr ((erase_sublist key _).subset he)
  next hids =>
    rcases mem_insert he with ⟨-, hsame⟩ | he
    · exact Or.inl ⟨hsame, fun hnil => hids (List.isEmpty_iff.mpr hnil)⟩
    · exact Or.inr he

theorem holds_empty (field : String) (kind : IndexKind) : Holds { field, kind } fun _ => none :=
  ⟨sound_empty field kind, fun _ => rfl, fun _ he => absurd he List.not_mem_nil⟩

theorem Holds.remove (h : ix.Holds values) (id : String) :
    (ix.remove id).Holds fun i => if i = id then none else values i := by
  refine ⟨h.sound.remove id, fun i => ?_, fun e he => ?_⟩
  · rw [get?_keyOf_remove h.sound, h.keyOf]
  · rw [Index.remove] at he
    split at he
    · exact h.occupied e he
    · rcases mem_withIds he with ⟨hids, hne⟩ | he
      · rw [hids]
        exact hne
      · exact h.occupied e he

theorem Holds.add (h : ix.Holds values) (id : String) (d : Document) :
    (ix.add id d).Holds fun i => if i = id then ix.key? d else values i := by
  refine ⟨h.sound.add id d, fun i => ?_, ?_⟩
  · rw [get?_keyOf_add h.sound, h.keyOf]
  · have hremoved := (h.remove id).occupied
    simp only [Index.add]
    cases (ix.remove id).key? d with
    | none => exact hremoved
    | some key =>
      intro e he
      rcases mem_insert he with ⟨-, hids⟩ | he
      · rw [hids]
        exact insert_ne_nil id () _
      · exact hremoved e he

theorem holds_clear (ix : Index) : ix.clear.Holds fun _ => none := holds_empty ix.field ix.kind

theorem field_call (ix : Index) (c : Call) : (ix.call c).field = ix.field := by
  cases c with
  | add id d => exact field_add ix id d
  | remove id => exact field_remove ix id
  | clear => rfl

theorem kind_call (ix : Index) (c : Call) : (ix.call c).kind = ix.kind := by
  cases c with
  | add id d => exact kind_add ix id d
  | remove id => exact kind_remove ix id
  | clear => rfl

theorem Holds.call {earlier : List Call} (h : ix.Holds fun id => valueAfter ix.field id earlier)
    (c : Call) : (ix.call c).Holds fun id => valueAfter (ix.call c).field id (c :: earlier) := by
  rw [field_call]
  cases c with
  | add id d => exact h.add id d
  | remove id => exact h.remove id
  | clear => exact holds_clear ix

theorem holds_callAll {earlier : List Call}
    (h : ix.Holds fun id => valueAfter ix.field id earlier) (calls : List Call) :
    (ix.callAll calls).kind = ix.kind ∧ (ix.callAll calls).Holds fun id =>
      valueAfter ix.field id (calls.reverse ++ earlier) := by
  induction calls generalizing ix earlier with
  | nil => exact ⟨rfl, h⟩
  | cons c rest ih =>
    obtain ⟨hkind, hholds⟩ := ih (h.call c)
    rw [field_call] at hholds
    rw [List.reverse_cons, List.append_assoc]
    exact ⟨hkind.trans (kind_call ix c), hholds⟩

/-! ## Answers -/

/-- By value in either direction, and by identifier among equal values. -/
def Before (values : String → Option Value) (descending : Bool) (a b : String) : Prop :=
  ∃ v w, values a = some v ∧ values b = some w ∧
    ((if descending then compare w v else compare v w) = .lt ∨ v.same w ∧ compare a b = .lt)

/-- The answers of an index are those that values by identifier ask for. -/
structure AnswersFor (ix : Index) (values : String → Option Value) : Prop where
  ascending : ∀ keys, (ix.findEq keys).Pairwise fun a b => compare a b = .lt
  equal : ∀ keys id, id ∈ ix.findEq keys ↔ ∃ v, values id = some v ∧ ∃ key ∈ keys, v.same key
  /-- The search is never asked for bounds that it refuses. -/
  searched : ∀ lower upper : Bound Value, lower.crossed upper = false →
    ∃ found, ix.entries.range? lower upper = some found
  unordered : ix.kind = .hash → ∀ lower upper descending,
    ix.findRange lower upper descending = none
  ordered : ix.kind = .btree → ∀ lower upper descending, ∃ ids,
    ix.findRange lower upper descending = some ids ∧ ids.Pairwise (Before values descending) ∧
      ∀ id, id ∈ ids ↔ ∃ v, values id = some v ∧ lower.admitsAbove v ∧ upper.admitsBelow v
  size : {id | ∃ v, values id = some v}.encard = ix.size
  keyCount : {c | ∃ id v, values id = some v ∧ c = Quotient.mk Value.sameSetoid v}.encard =
    ix.keyCount

theorem Holds.precedes (h : ix.Holds values) (descending : Bool) :
    ix.Precedes descending = Before values descending := by
  funext a b
  simp only [Precedes, Before, h.keyOf, Value.same_iff]

/-- Each identifier has one value. -/
theorem Holds.encard_ids (h : ix.Holds values) :
    {id | ∃ v, values id = some v}.encard = ix.size := by
  have hmem : {id | ∃ v, values id = some v} = {id | id ∈ ix.keyOf.keys} := by
    ext id
    rw [Set.mem_ofPred_eq, Set.mem_ofPred_eq, mem_keys_iff_get? h.sound.keyOf, h.keyOf,
      Option.isSome_iff_exists]
  rw [hmem, encard_mem_of_nodup h.sound.keyOf.nodup_keys, size, Keyed.keys, List.length_map]

/-- Each entry stands for the values that are equal to its own, and there are some. -/
theorem Holds.encard_values (h : ix.Holds values) :
    {c | ∃ id v, values id = some v ∧ c = Quotient.mk Value.sameSetoid v}.encard =
      ix.keyCount := by
  have hnodup : (ix.entries.keys.map (Quotient.mk Value.sameSetoid)).Nodup := by
    refine List.pairwise_map.mpr ((pairwise_keys h.sound.entries).imp fun {v w} hlt heq => ?_)
    rw [Value.mk_eq_mk_iff.mp heq] at hlt
    cases hlt
  have hmem : {c | ∃ id v, values id = some v ∧ c = Quotient.mk Value.sameSetoid v} =
      {c | c ∈ ix.entries.keys.map (Quotient.mk Value.sameSetoid)} := by
    ext c
    simp only [Set.mem_ofPred_eq, List.mem_map]
    constructor
    · rintro ⟨id, v, hv, rfl⟩
      obtain ⟨e, he, -, hsame⟩ := h.sound.exists_entry ((h.keyOf id).trans hv)
      exact ⟨e.1, List.mem_map_of_mem he, Value.mk_eq_mk_iff.mpr hsame⟩
    · rintro ⟨key, hkey, rfl⟩
      obtain ⟨e, he, rfl⟩ := List.mem_map.mp hkey
      obtain ⟨⟨id, _⟩, hid⟩ := List.exists_mem_of_ne_nil _ (h.occupied e he)
      obtain ⟨v, hv, hsame⟩ := (h.sound.mem_ids he id).mp (List.mem_map_of_mem hid)
      exact ⟨id, v, (h.keyOf id).symm.trans hv, Value.mk_eq_mk_iff.mpr hsame⟩
  rw [hmem, encard_mem_of_nodup hnodup, keyCount, List.length_map, Keyed.keys, List.length_map]

theorem Holds.answersFor (h : ix.Holds values) : ix.AnswersFor values := by
  constructor
  · exact fun keys => pairwise_findEq ix keys
  · intro keys id
    rw [mem_findEq h.sound]
    simp only [h.keyOf, Value.same_iff]
    constructor
    · rintro ⟨key, hkey, v, hv, hsame⟩
      exact ⟨v, hv, key, hkey, OrientedCmp.eq_symm hsame⟩
    · rintro ⟨v, hv, key, hkey, hsame⟩
      exact ⟨key, hkey, v, hv, OrientedCmp.eq_symm hsame⟩
  · exact fun lower upper hcrossed => ⟨_, range?_eq_within ix hcrossed⟩
  · intro hkind lower upper descending
    rw [findRange, hkind]
  · intro hkind lower upper descending
    obtain ⟨ids, hids⟩ := exists_findRange_iff.mpr hkind
    refine ⟨ids, hids, ?_, fun id => ?_⟩
    · rw [← h.precedes]
      exact pairwise_findRange h.sound hids
    · rw [mem_findRange h.sound hids, h.keyOf]
  · exact h.encard_ids
  · exact h.encard_values

/-- Whatever documents were added, added again and removed, and however often all was cleared: the
index answers for the values that the last calls left. A search for equal values and, where the
index is ordered, a search between any bounds find just the identifiers that have such values, in
order; the sizes are the numbers of identifiers and of different values. -/
theorem callAll_answersFor (field : String) (kind : IndexKind) (calls : List Call) :
    (callAll { field, kind } calls).kind = kind ∧
      (callAll { field, kind } calls).AnswersFor fun id => valueAfter field id calls.reverse := by
  have hempty : Holds { field, kind } fun id => valueAfter field id [] := holds_empty field kind
  obtain ⟨hkind, hholds⟩ := holds_callAll hempty calls
  rw [List.append_nil] at hholds
  exact ⟨hkind, hholds.answersFor⟩

end Index
end DocBase
