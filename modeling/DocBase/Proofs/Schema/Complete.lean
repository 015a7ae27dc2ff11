import DocBase.Proofs.Schema.Equality

/-! When defaults are filled in once and for all. An object that comes in as a default is not
filled in itself, but it is there the next time. Elements of arrays are never filled in, and so
nothing is asked of what is declared for them. -/
namespace DocBase
open Keyed

/-! ## Nothing is missing -/

mutual

/-- No default is missing from what stands in the field. -/
def FieldSchema.Complete : FieldSchema → Option Value → Prop
  | .mk rules _ _, none => rules.default = none
  | .mk _ _ (some s), some (.object nested) => s.Complete nested
  | _, some _ => True

def Schema.Complete : Schema → Fields → Prop
  | .mk _ fields _ _ => AllComplete fields

def AllComplete : List (String × FieldSchema) → Fields → Prop
  | [], _ => True
  | (k, f) :: rest, fs => f.Complete (get? k fs) ∧ AllComplete rest fs

end

mutual

/-- Whatever comes in as a default is complete. -/
def FieldSchema.Settles : FieldSchema → Option Value → Prop
  | .mk rules _ (some s), none =>
    ∀ nested, rules.default = some (.object nested) → s.Complete nested
  | .mk _ _ (some s), some (.object nested) => s.Settles nested
  | _, _ => True

def Schema.Settles : Schema → Fields → Prop
  | .mk _ fields _ _ => AllSettle fields

def AllSettle : List (String × FieldSchema) → Fields → Prop
  | [], _ => True
  | (k, f) :: rest, fs => f.Settles (get? k fs) ∧ AllSettle rest fs

end

mutual

/-- Each default that is an object is complete, at all depths. -/
def FieldSchema.Whole : FieldSchema → Prop
  | .mk _ _ none => True
  | .mk rules _ (some s) =>
    (∀ nested, rules.default = some (.object nested) → s.Complete nested) ∧ s.Whole

def Schema.Whole : Schema → Prop
  | .mk _ fields _ _ => AllWhole fields

def AllWhole : List (String × FieldSchema) → Prop
  | [] => True
  | (_, f) :: rest => f.Whole ∧ AllWhole rest

end

section
variable {fields : List (String × FieldSchema)} {fs gs : Fields}

theorem allComplete_iff : AllComplete fields fs ↔ ∀ e ∈ fields, e.2.Complete (get? e.1 fs) := by
  induction fields with
  | nil => simp [AllComplete]
  | cons e rest ih => rw [AllComplete, ih, List.forall_mem_cons]

theorem allSettle_iff : AllSettle fields fs ↔ ∀ e ∈ fields, e.2.Settles (get? e.1 fs) := by
  induction fields with
  | nil => simp [AllSettle]
  | cons e rest ih => rw [AllSettle, ih, List.forall_mem_cons]

theorem allWhole_iff : AllWhole fields ↔ ∀ e ∈ fields, e.2.Whole := by
  induction fields with
  | nil => simp [AllWhole]
  | cons e rest ih => rw [AllWhole, ih, List.forall_mem_cons]

theorem orderedFields_iff : OrderedFields fields ↔ ∀ e ∈ fields, e.2.Ordered := by
  induction fields with
  | nil => simp [OrderedFields]
  | cons e rest ih => rw [OrderedFields, ih, List.forall_mem_cons]

/-! ## Filling in again -/

theorem ascending_fillAll (h : Ascending fs) (fields : List (String × FieldSchema)) :
    Ascending (fillAll fields fs) := by
  induction fields generalizing fs with
  | nil => exact h
  | cons e rest ih => exact ih (ascending_fillOne h e.1 e.2)

theorem get?_fillAll_of_mem (hfields : Ascending fields) (h : Ascending fs)
    {e : String × FieldSchema} (he : e ∈ fields) :
    get? e.1 (fillAll fields fs) = e.2.filled (get? e.1 fs) := by
  rw [get?_fillAll hfields h, get?_of_mem hfields he]

theorem fillAll_eq_self_iff (hfields : Ascending fields) (h : Ascending fs) :
    fillAll fields fs = fs ↔ ∀ e ∈ fields, e.2.filled (get? e.1 fs) = get? e.1 fs := by
  constructor
  · intro hself e he
    rw [← get?_fillAll_of_mem hfields h he, hself]
  · intro hall
    refine ext (ascending_fillAll h fields) h fun name => ?_
    rw [get?_fillAll hfields h]
    split
    next f hf => exact hall (name, f) (mem_of_get? hf)
    next => rfl

theorem allComplete_fillAll_iff (hfields : Ascending fields) (h : Ascending fs) :
    AllComplete fields (fillAll fields fs) ↔
      ∀ e ∈ fields, e.2.Complete (e.2.filled (get? e.1 fs)) := by
  rw [allComplete_iff]
  refine forall₂_congr fun e he => ?_
  rw [get?_fillAll_of_mem hfields h he]

end

mutual

/-- What is complete is left as it is. -/
theorem FieldSchema.filled_eq_self_iff : ∀ (f : FieldSchema) {o : Option Value}, f.Ordered →
    (∀ v, o = some v → v.WellFormed) → (f.filled o = o ↔ f.Complete o)
  | .mk rules items none, none, _, _ => Iff.rfl
  | .mk rules items (some s), none, _, _ => Iff.rfl
  | .mk rules items none, some v, _, _ => by cases v <;> exact iff_of_true rfl trivial
  | .mk rules items (some s), some v, hf, hv => by
    cases v with
    | object nested =>
      have hs := (FieldSchema.ordered_mk.mp hf).2 s rfl
      rw [FieldSchema.Complete, ← s.fill_eq_self_iff hs (hv _ rfl), FieldSchema.filled,
        Option.some.injEq, Value.object.injEq]
    | _ => exact iff_of_true rfl trivial

theorem Schema.fill_eq_self_iff : ∀ (s : Schema) {fs : Fields}, s.Ordered →
    (Value.object fs).WellFormed → (s.fill fs = fs ↔ s.Complete fs)
  | .mk _ fields _ _, fs, hs, hfs => by
    rw [Schema.fill, Schema.Complete, fillAll_eq_self_iff hs.1 hfs.1, allComplete_iff]
    exact forall_filled_eq_self_iff fields hs.2 hfs

theorem forall_filled_eq_self_iff : ∀ (fields : List (String × FieldSchema)) {fs : Fields},
    OrderedFields fields → (Value.object fs).WellFormed →
      ((∀ e ∈ fields, e.2.filled (get? e.1 fs) = get? e.1 fs) ↔
        ∀ e ∈ fields, e.2.Complete (get? e.1 fs))
  | [], _, _, _ => by simp
  | (k, f) :: rest, fs, hfields, hfs => by
    have hstands : ∀ v, get? k fs = some v → v.WellFormed := fun _ => Value.WellFormed.get? hfs.2
    rw [List.forall_mem_cons, List.forall_mem_cons, f.filled_eq_self_iff hfields.1 hstands,
      forall_filled_eq_self_iff rest hfields.2 hfs]

end

mutual

/-- After filling in nothing is missing, but for what is missing from the defaults. -/
theorem FieldSchema.complete_filled_iff : ∀ (f : FieldSchema) {o : Option Value}, f.Ordered →
    (∀ v, o = some v → v.WellFormed) → (f.Complete (f.filled o) ↔ f.Settles o)
  | .mk rules items none, o, _, _ => by
    refine iff_of_true ?_ (by cases o <;> trivial)
    cases o with
    | none =>
      cases hdefault : rules.default with
      | none => rw [FieldSchema.filled, hdefault]; exact hdefault
      | some v => rw [FieldSchema.filled, hdefault]; cases v <;> trivial
    | some v => cases v <;> trivial
  | .mk rules items (some s), none, _, _ => by
    rw [FieldSchema.filled, FieldSchema.Settles]
    cases hdefault : rules.default with
    | none => exact iff_of_true hdefault nofun
    | some v =>
      cases v with
      | object nested => simp [FieldSchema.Complete]
      | _ => exact iff_of_true trivial nofun
  | .mk rules items (some s), some v, hf, hv => by
    cases v with
    | object nested =>
      exact s.complete_fill_iff ((FieldSchema.ordered_mk.mp hf).2 s rfl) (hv _ rfl)
    | _ => exact iff_of_true trivial trivial

theorem Schema.complete_fill_iff : ∀ (s : Schema) {fs : Fields}, s.Ordered →
    (Value.object fs).WellFormed → (s.Complete (s.fill fs) ↔ s.Settles fs)
  | .mk _ fields _ _, fs, hs, hfs => by
    rw [Schema.fill, Schema.Complete, Schema.Settles, allComplete_fillAll_iff hs.1 hfs.1,
      allSettle_iff]
    exact forall_complete_filled_iff fields hs.2 hfs

theorem forall_complete_filled_iff : ∀ (fields : List (String × FieldSchema)) {fs : Fields},
    OrderedFields fields → (Value.object fs).WellFormed →
      ((∀ e ∈ fields, e.2.Complete (e.2.filled (get? e.1 fs))) ↔
        ∀ e ∈ fields, e.2.Settles (get? e.1 fs))
  | [], _, _, _ => by simp
  | (k, f) :: rest, fs, hfields, hfs => by
    have hstands : ∀ v, get? k fs = some v → v.WellFormed := fun _ => Value.WellFormed.get? hfs.2
    rw [List.forall_mem_cons, List.forall_mem_cons, f.complete_filled_iff hfields.1 hstands,
      forall_complete_filled_iff rest hfields.2 hfs]

end

mutual

/-- Documents of one field at each depth tell whether all defaults are complete. -/
theorem FieldSchema.forall_settles_iff : ∀ f : FieldSchema,
    (∀ o : Option Value, (∀ v, o = some v → v.WellFormed) → f.Settles o) ↔ f.Whole
  | .mk rules items none => iff_of_true (fun o _ => by cases o <;> trivial) trivial
  | .mk rules items (some s) => by
    rw [FieldSchema.Whole, ← s.forall_settles_iff]
    constructor
    · intro hall
      refine ⟨hall none nofun, fun fs hfs => hall (some (.object fs)) ?_⟩
      rintro v ⟨⟩
      exact hfs
    · rintro ⟨hdefault, hs⟩ o ho
      cases o with
      | none => exact hdefault
      | some v =>
        cases v with
        | object nested => exact hs nested (ho _ rfl)
        | _ => trivial

theorem Schema.forall_settles_iff : ∀ s : Schema,
    (∀ fs, (Value.object fs).WellFormed → s.Settles fs) ↔ s.Whole
  | .mk _ fields _ _ => by
    rw [Schema.Whole, allWhole_iff, ← forall_field_settles_iff fields]
    constructor
    · intro hall e he o ho
      cases o with
      | none => exact allSettle_iff.mp (hall [] ⟨ascending_nil, trivial⟩) e he
      | some v =>
        have hv : (Value.object [(e.1, v)]).WellFormed :=
          ⟨List.pairwise_singleton _ _, ho v rfl, trivial⟩
        have hget : get? e.1 [(e.1, v)] = some v := get?_insert_same e.1 v []
        exact hget ▸ allSettle_iff.mp (hall _ hv) e he
    · intro hall fs hfs
      exact allSettle_iff.mpr fun e he =>
        hall e he _ fun v hv => Value.WellFormed.get? hfs.2 hv

theorem forall_field_settles_iff : ∀ fields : List (String × FieldSchema),
    (∀ e ∈ fields, ∀ o : Option Value, (∀ v, o = some v → v.WellFormed) → e.2.Settles o) ↔
      ∀ e ∈ fields, e.2.Whole
  | [] => by simp
  | (_, f) :: rest => by
    rw [List.forall_mem_cons, List.forall_mem_cons, f.forall_settles_iff,
      forall_field_settles_iff rest]

end

namespace Schema
variable {s : Schema} {fs : Fields} {d w : Document}

/-- All that is declared ascends, and so do the fields of objects in defaults. -/
structure Tidy (s : Schema) : Prop where
  ordered : s.Ordered
  wellFormed : s.WellFormed

/-- What is declared under names of users. -/
def unreserved : Schema → Schema
  | mk name fields required strict =>
    mk name (fields.filter fun e => !Document.isReserved e.1) required strict

theorem Tidy.unreserved (hs : s.Tidy) : s.unreserved.Tidy := by
  obtain ⟨_, fields, _, _⟩ := s
  constructor
  · exact ⟨hs.ordered.1.sublist List.filter_sublist, orderedFields_iff.mpr fun e he =>
      orderedFields_iff.mp hs.ordered.2 e (List.mem_of_mem_filter he)⟩
  · exact wellFormedDeclared_iff.mpr fun e he =>
      wellFormedDeclared_iff.mp hs.wellFormed e (List.mem_of_mem_filter he)

theorem Whole.unreserved (hs : s.Whole) : s.unreserved.Whole := by
  obtain ⟨_, fields, _, _⟩ := s
  exact allWhole_iff.mpr fun e he => allWhole_iff.mp hs e (List.mem_of_mem_filter he)

end Schema
end DocBase
