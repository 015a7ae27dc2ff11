import DocBase.Proofs.Action
import DocBase.Proofs.Json.Restored
import DocBase.Collection.Json

/-! Values, documents and updates that were read from JSON and are written again. -/
namespace DocBase
open Keyed

/-! ## Values -/
namespace Value

theorem nonFiniteFields_eq_none {fields : List (String × Value)}
    (h : ∀ e ∈ fields, ∀ path, e.2.nonFinitePath path = none) (path : String) :
    nonFiniteFields path fields = none := by
  induction fields with
  | nil => rfl
  | cons e rest ih =>
    obtain ⟨k, v⟩ := e
    rw [nonFiniteFields, h (k, v) List.mem_cons_self,
      ih fun e he => h e (List.mem_cons_of_mem _ he)]
    rfl

theorem nestingFields_le_iff {fields : List (String × Value)} {n : Nat} :
    nestingFields fields ≤ n ↔ ∀ e ∈ fields, e.2.nesting ≤ n := by
  induction fields with
  | nil => simp [nestingFields]
  | cons e rest ih =>
    obtain ⟨k, v⟩ := e
    simp [nestingFields, ih]

mutual

theorem nonFinitePath_ofJson : ∀ {j : Json}, j.Printable →
    ∀ path, (ofJson j).nonFinitePath path = none
  | .null, _, _ => rfl
  | .bool _, _, _ => rfl
  | .int n, h, path => by
    have hfinite : (Binary64.ofInt n).isFinite := by
      have hlow : -(2 ^ 63) ≤ n := h.1
      have hhigh : n < 2 ^ 64 := h.2
      refine Binary64.isFinite_ofInt ?_
      change n.natAbs ≤ 18446744073709551616
      omega
    rw [ofJson, ofInt]
    split
    · rfl
    · rw [nonFinitePath, if_pos hfinite]
  | .float x, h, path => if_pos h
  | .str _, _, _ => rfl
  | .arr items, h, path => nonFiniteItems_ofJsonItems h path 0
  | .obj members, h, path => by
    refine nonFiniteFields_eq_none ?_ path
    exact forall_mem_foldl_insert
      (P := fun v : Value => ∀ path, v.nonFinitePath path = none)
      (fun e he => absurd he List.not_mem_nil) (nonFinitePath_ofJsonMembers h)

theorem nonFiniteItems_ofJsonItems : ∀ {items : List Json}, Json.PrintableItems items →
    ∀ path i, nonFiniteItems path i (ofJsonItems items) = none
  | [], _, _, _ => rfl
  | v :: rest, h, path, i => by
    rw [ofJsonItems, nonFiniteItems, nonFinitePath_ofJson h.1, nonFiniteItems_ofJsonItems h.2]
    rfl

theorem nonFinitePath_ofJsonMembers : ∀ {members : List (String × Json)},
    Json.PrintableMembers members →
    ∀ e ∈ ofJsonMembers members, ∀ path, e.2.nonFinitePath path = none
  | [], _ => fun e he => absurd he List.not_mem_nil
  | (k, v) :: rest, h => by
    refine List.forall_mem_cons.mpr ⟨nonFinitePath_ofJson h.1, ?_⟩
    exact nonFinitePath_ofJsonMembers h.2

end

mutual

theorem nesting_ofJson_le : ∀ j : Json, (ofJson j).nesting ≤ j.depth
  | .null => Nat.le_refl _
  | .bool _ => Nat.le_refl _
  | .int n => by
    rw [ofJson, ofInt]
    split <;> exact Nat.zero_le _
  | .float _ => Nat.le_refl _
  | .str _ => Nat.le_refl _
  | .arr items => Nat.succ_le_succ (nestingItems_ofJsonItems_le items)
  | .obj members => by
    refine Nat.succ_le_succ (nestingFields_le_iff.mpr ?_)
    exact forall_mem_foldl_insert (P := fun v : Value => v.nesting ≤ Json.depthMembers members)
      (fun e he => absurd he List.not_mem_nil) (nesting_ofJsonMembers_le members)

theorem nestingItems_ofJsonItems_le : ∀ items : List Json,
    nestingItems (ofJsonItems items) ≤ Json.depthItems items
  | [] => Nat.le_refl _
  | v :: rest => max_le_max (nesting_ofJson_le v) (nestingItems_ofJsonItems_le rest)

theorem nesting_ofJsonMembers_le : ∀ members : List (String × Json),
    ∀ e ∈ ofJsonMembers members, e.2.nesting ≤ Json.depthMembers members
  | [] => fun e he => absurd he List.not_mem_nil
  | (k, v) :: rest => by
    refine List.forall_mem_cons.mpr
      ⟨(nesting_ofJson_le v).trans (Nat.le_max_left _ _), fun e he => ?_⟩
    exact (nesting_ofJsonMembers_le rest e he).trans (Nat.le_max_right _ _)

end

/-- Every JSON value that can be printed is a value, and the same one when it is written. -/
theorem restores_ofJson {j : Json} {limit : Nat} (h : j.Legible limit) :
    Json.Restores (fun j => some (ofJson j)) limit (ofJson j).toJson (ofJson j) where
  printable := printable_toJson _
  depth := by
    rw [depth_toJson]
    exact (nesting_ofJson_le j).trans h.depth
  reads := congrArg some
    (ofJson_toJson (wellFormed_ofJson j) (nonFinitePath_ofJson h.printable ""))

theorem toJsonItems_eq (items : List Value) : toJsonItems items = items.map toJson := by
  induction items with
  | nil => rfl
  | cons v rest ih => rw [toJsonItems, ih, List.map_cons]

end Value

/-! ## Documents -/
namespace Document
variable {d : Document}

theorem exists_member_of_ofJson {members : List (String × Json)}
    (h : ofJson (.obj members) = .ok d) :
    ∀ e ∈ d.fields, ∃ j, (∃ k, (k, j) ∈ members) ∧ e.2 = Value.ofJson j := by
  rintro ⟨k, v⟩ he
  rw [fields_of_ofJson h, Value.ofJsonMembers_eq, mem_mapValues] at he
  obtain ⟨j, hj, rfl⟩ := he
  refine ⟨j, ?_, rfl⟩
  exact forall_mem_foldl_insert (P := fun j : Json => ∃ k, (k, j) ∈ members)
    (fun e he => absurd he List.not_mem_nil) (fun e he => ⟨e.1, he⟩) _ (List.mem_filter.mp hj).1

theorem restores_of_read {j : Json} {limit : Nat} (h : (ofJson j).toOption = some d)
    (hj : j.Legible limit) :
    Json.Restores (fun j => (ofJson j).toOption) limit d.toJson d := by
  have hok := eq_ok_of_toOption h
  have hwellFormed := wellFormed_of_ofJson hok
  cases j with
  | obj members =>
    obtain ⟨n, rfl, hmembers⟩ := Json.legible_obj_iff.mp hj
    have hfields : ∀ e ∈ d.fields, (∀ path, e.2.nonFinitePath path = none) ∧ e.2.nesting ≤ n := by
      intro e he
      obtain ⟨j, ⟨k, hj⟩, hv⟩ := exists_member_of_ofJson hok e he
      have hlegible : j.Legible n := hmembers (k, j) hj
      rw [hv]
      exact ⟨Value.nonFinitePath_ofJson hlegible.printable,
        (Value.nesting_ofJson_le j).trans hlegible.depth⟩
    have hfinite : d.nonFinitePath = none :=
      List.findSome?_eq_none_iff.mpr fun e he => (hfields e he).1 e.1
    have hnesting : d.nesting ≤ n + 1 :=
      Nat.succ_le_succ (Value.nestingFields_le_iff.mpr fun e he => (hfields e he).2)
    refine ⟨⟨d.printable_toJson, (depth_toJson_le_iff hwellFormed.ascending _).mpr hnesting⟩, ?_⟩
    rw [ofJson_toJson hwellFormed hfinite]
    rfl
  | _ => cases hok

end Document

/-! ## Updates -/
namespace Update

theorem restores_fields {j : Json} {limit : Nat} {fields : Fields}
    (h : fieldsOfJson? j = some fields) (hj : j.Legible limit) :
    Json.Restores fieldsOfJson? limit (Value.object fields).toJson fields := by
  rw [fieldsOfJson?] at h
  split at h
  next found heq =>
    cases h
    have hrestores := Value.restores_ofJson hj
    rw [heq] at hrestores
    refine ⟨hrestores.toLegible, ?_⟩
    rw [fieldsOfJson?, Option.some.inj hrestores.reads]
  next => cases h

/-- What an update is read from, by its mode. -/
theorem cases_of_read {inner : Bool} {j : Json} {u : Update} (h : read inner j = some u) :
    ∃ ms : Json.Members, j = .obj ms ∧
      ((∃ fields, u = replace fields ∧ ms.required "fields" fieldsOfJson? = some fields) ∨
        ∃ writes removals, u = patch writes removals ∧
          ms.withDefault "set" [] fieldsOfJson? = some writes ∧
          ms.withDefault "unset" [] (Json.asList Json.asString) = some removals) := by
  rw [read] at h
  simp only [Option.bind_eq_bind] at h
  obtain ⟨ms, hms, h⟩ := Option.bind_eq_some_iff.mp h
  refine ⟨ms, Json.eq_obj_of_asMembers hms, ?_⟩
  split at h
  · cases h
  obtain ⟨mode, -, h⟩ := Option.bind_eq_some_iff.mp h
  split at h
  · split at h
    · cases h
    obtain ⟨fields, hfields, h⟩ := Option.bind_eq_some_iff.mp h
    cases h
    exact .inl ⟨fields, rfl, hfields⟩
  · split at h
    · cases h
    obtain ⟨writes, hwrites, h⟩ := Option.bind_eq_some_iff.mp h
    obtain ⟨removals, hremovals, h⟩ := Option.bind_eq_some_iff.mp h
    cases h
    exact .inr ⟨writes, removals, rfl, hwrites, hremovals⟩
  · cases h

theorem restores_replace {fields : Fields} {n : Nat} (inner : Bool)
    (h : Json.Restores fieldsOfJson? n (Value.object fields).toJson fields) :
    Json.Restores (read inner) (n + 1) (replace fields).toJson (replace fields) := by
  refine ⟨?_, ?_⟩
  · exact (Json.legible_str _ _).cons _ <| h.toLegible.cons _ <| Json.legible_obj_nil _
  · have hreads : read inner (toJson (replace fields)) =
        (fieldsOfJson? (Value.object fields).toJson).bind fun fs => some (replace fs) := rfl
    rw [hreads, h.reads]
    rfl

theorem restores_patch {writes : Fields} {n : Nat} (removals : List String) (inner : Bool)
    (h : Json.Restores fieldsOfJson? (n + 1) (Value.object writes).toJson writes) :
    Json.Restores (read inner) (n + 2) (patch writes removals).toJson (patch writes removals) := by
  have hunset : Json.Restores (Json.asList Json.asString) (n + 1) (.arr (removals.map .str))
      removals := Json.restores_arr fun s _ => Json.restores_str s n
  refine ⟨?_, ?_⟩
  · exact (Json.legible_str _ _).cons _ <| h.toLegible.cons _ <| hunset.toLegible.cons _ <|
      Json.legible_obj_nil _
  · have hreads : read inner (toJson (patch writes removals)) =
        (fieldsOfJson? (Value.object writes).toJson).bind fun fs =>
          (Json.asList Json.asString (.arr (removals.map .str))).bind fun names =>
            some (patch fs names) := rfl
    rw [hreads, h.reads, hunset.reads]
    rfl

theorem restores_of_read {inner : Bool} {j : Json} {limit : Nat} {u : Update}
    (hread : read inner j = some u) (hj : j.Legible limit) (hlimit : 2 ≤ limit) (inner' : Bool) :
    Json.Restores (read inner') limit u.toJson u := by
  obtain ⟨ms, rfl, hmode⟩ := cases_of_read hread
  obtain ⟨n, rfl, hmembers⟩ := Json.legible_obj_iff.mp hj
  obtain ⟨m, rfl⟩ : ∃ m, n = m + 1 := ⟨n - 1, by omega⟩
  rcases hmode with ⟨fields, rfl, hfields⟩ | ⟨writes, removals, rfl, hwrites, -⟩
  · obtain ⟨j, hfind, hread⟩ := Json.exists_of_required hfields
    exact restores_replace inner' (restores_fields hread (Json.legible_of_find? hmembers hfind))
  · refine restores_patch removals inner' ?_
    rcases Json.exists_of_withDefault hwrites with rfl | ⟨j, hfind, hread⟩
    · exact ⟨⟨trivial, Nat.le_add_left 1 m⟩, rfl⟩
    · exact restores_fields hread (Json.legible_of_find? hmembers hfind)

end Update
end DocBase
