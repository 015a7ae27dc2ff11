import DocBase.Proofs.Document.Restored
import DocBase.Query.Json

/-! Queries that were read from JSON and are written again. -/
namespace DocBase

/-! ## Filters -/

namespace Condition

/-- The value that a condition compares with. -/
def value? : Condition → Option Value
  | compare _ v | oneOf v | noneOf v | contains v => some v
  | _ => none

theorem value_of_members {ms : Json.Members} {op : String} {c : Condition}
    (h : ofMembers? ms op = some c) {v : Value} (hv : c.value? = some v) :
    ∃ j, ms.find? "value" = some j ∧ v = Value.ofJson j := by
  have hvalue : ∀ {f : Value → Condition}, (∀ w, (f w).value? = some w) →
      (ms.required "value" fun j => some (Value.ofJson j)).map f = some c →
      ∃ j, ms.find? "value" = some j ∧ v = Value.ofJson j := by
    intro f hf hmap
    obtain ⟨w, hw, rfl⟩ := Option.map_eq_some_iff.mp hmap
    obtain ⟨j, hfind, hj⟩ := Json.exists_of_required hw
    rw [hf] at hv
    cases hv
    exact ⟨j, hfind, (Option.some.inj hj).symm⟩
  have hplain : ∀ {α : Type} {o : Option α} {f : α → Condition}, (∀ a, (f a).value? = none) →
      o.map f = some c → ∃ j, ms.find? "value" = some j ∧ v = Value.ofJson j := by
    intro α o f hf hmap
    obtain ⟨a, -, rfl⟩ := Option.map_eq_some_iff.mp hmap
    rw [hf] at hv
    cases hv
  rw [ofMembers?.eq_def] at h
  dsimp only at h
  split at h
  · exact hvalue (fun _ => rfl) h
  · exact hvalue (fun _ => rfl) h
  · exact hplain (fun _ => rfl) h
  · exact hplain (fun _ => rfl) h
  · exact hvalue (fun _ => rfl) h
  · exact hplain (fun _ => rfl) h
  · exact hplain (fun _ => rfl) h
  · obtain ⟨op, -, h⟩ := Option.bind_eq_some_iff.mp h
    exact hvalue (fun _ => rfl) h

theorem legible_operand {c : Condition} {limit : Nat}
    (h : ∀ v, c.value? = some v → v.toJson.Legible limit) : c.operand.2.Legible limit := by
  cases c with
  | compare op v => exact h v rfl
  | oneOf v => exact h v rfl
  | noneOf v => exact h v rfl
  | contains v => exact h v rfl
  | present b => exact Json.legible_bool b limit
  | regex p => exact Json.legible_str p limit
  | startsWith s => exact Json.legible_str s limit
  | endsWith s => exact Json.legible_str s limit

end Condition

namespace Filter

theorem toJsonList_eq (fs : List Filter) : toJsonList fs = fs.map toJson := by
  induction fs with
  | nil => rfl
  | cons f rest ih => rw [toJsonList, ih, List.map_cons]

theorem readList_eq (items : List Json) : readList items = items.mapM (read true) := by
  induction items with
  | nil => rfl
  | cons j rest ih => rw [readList, ih, List.mapM_cons]

theorem filtersOf?_eq (ms : Json.Members) :
    filtersOf? ms = ms.required "filters" (Json.asList (read true)) := by
  refine Json.required_eq_of_search filtersOf? rfl ?_ ms
  intro k j rest
  rw [filtersOf?.eq_def]
  cases j <;> try rfl
  dsimp only
  rw [readList_eq]
  rfl

theorem filterOf?_eq (ms : Json.Members) : filterOf? ms = ms.required "filter" (read true) := by
  refine Json.required_eq_of_search filterOf? rfl ?_ ms
  intro k j rest
  rw [filterOf?]

/-- A filter is read again when the value in it is. -/
theorem read_field {name : String} {c : Condition}
    (h : ∀ v, c.value? = some v → Value.ofJson v.toJson = v) (inner : Bool) :
    read inner (field name c).toJson = some (field name c) := by
  cases c with
  | compare op v =>
    have hread : read inner (field name (.compare op v)).toJson =
        some (field name (.compare op (Value.ofJson v.toJson))) := by cases op <;> rfl
    rw [hread, h v rfl]
  | oneOf v =>
    have hread : read inner (field name (.oneOf v)).toJson =
        some (field name (.oneOf (Value.ofJson v.toJson))) := rfl
    rw [hread, h v rfl]
  | noneOf v =>
    have hread : read inner (field name (.noneOf v)).toJson =
        some (field name (.noneOf (Value.ofJson v.toJson))) := rfl
    rw [hread, h v rfl]
  | contains v =>
    have hread : read inner (field name (.contains v)).toJson =
        some (field name (.contains (Value.ofJson v.toJson))) := rfl
    rw [hread, h v rfl]
  | present b => rfl
  | regex p => rfl
  | startsWith s => rfl
  | endsWith s => rfl

theorem restores_field {ms : Json.Members} {op name : String} {c : Condition} {n : Nat}
    (hms : ∀ e ∈ ms, e.2.Legible n) (h : Condition.ofMembers? ms op = some c) (inner : Bool) :
    Json.Restores (read inner) (n + 1) (field name c).toJson (field name c) := by
  have hvalue : ∀ v, c.value? = some v →
      Json.Restores (fun j => some (Value.ofJson j)) n v.toJson v := by
    intro v hv
    obtain ⟨j, hfind, rfl⟩ := Condition.value_of_members h hv
    exact Value.restores_ofJson (Json.legible_of_find? hms hfind)
  have hoperand := Condition.legible_operand fun v hv => (hvalue v hv).toLegible
  refine ⟨?_, ?_⟩
  · exact (Json.legible_str _ _).cons _ <| (Json.legible_str _ _).cons _ <| hoperand.cons _ <|
      Json.legible_obj_nil _
  · exact read_field (fun v hv => Option.some.inj (hvalue v hv).reads) inner

theorem restores_junction {make : List Filter → Filter} {name : String} {fs : List Filter} {n : Nat}
    {inner : Bool}
    (hjson : (make fs).toJson = .obj [("op", .str name), ("filters", .arr (toJsonList fs))])
    (hread : read inner (make fs).toJson = (readList (toJsonList fs)).bind fun gs => some (make gs))
    (h : Json.Restores (Json.asList (read true)) n (.arr (toJsonList fs)) fs) :
    Json.Restores (read inner) (n + 1) (make fs).toJson (make fs) := by
  have hreads : readList (toJsonList fs) = some fs := (readList_eq _).trans h.reads
  refine ⟨?_, ?_⟩
  · rw [hjson]
    exact (Json.legible_str _ _).cons _ <| h.toLegible.cons _ <| Json.legible_obj_nil _
  · rw [hread, hreads]
    rfl

theorem restores_not {g : Filter} {n : Nat} {inner : Bool}
    (h : Json.Restores (read true) n g.toJson g) :
    Json.Restores (read inner) (n + 1) (not g).toJson (not g) := by
  refine ⟨?_, ?_⟩
  · exact (Json.legible_str _ _).cons _ <| h.toLegible.cons _ <| Json.legible_obj_nil _
  · have hreads : read inner (not g).toJson =
        (read true g.toJson).bind fun k => some (not k) := rfl
    rw [hreads, h.reads]
    rfl

/-- By induction on how deep the filter may nest. -/
theorem restores_of_read {limit : Nat} : ∀ {inner : Bool} {j : Json} {f : Filter},
    read inner j = some f → j.Legible limit →
      ∀ inner', Json.Restores (read inner') limit f.toJson f := by
  induction limit using Nat.strongRecOn with
  | ind limit ih =>
    intro inner j f h hj inner'
    cases j with
    | obj ms =>
      obtain ⟨n, rfl, hmembers⟩ := Json.legible_obj_iff.mp hj
      rw [read] at h
      simp only [Option.bind_eq_bind] at h
      obtain ⟨op, -, h⟩ := Option.bind_eq_some_iff.mp h
      split at h
      · cases h
      have hlist : ∀ {fs : List Filter}, filtersOf? ms = some fs →
          Json.Restores (Json.asList (read true)) n (.arr (toJsonList fs)) fs := by
        intro fs hfs
        rw [filtersOf?_eq] at hfs
        obtain ⟨items, hfind, hitems⟩ := Json.exists_of_required hfs
        have hlegible := Json.legible_of_find? hmembers hfind
        obtain ⟨m, rfl⟩ := Json.exists_limit_of_asList hitems hlegible
        rw [toJsonList_eq]
        exact Json.restores_of_asList hitems hlegible fun hread hi =>
          ih m (by omega) hread hi true
      split at h
      · obtain ⟨fs, hfs, h⟩ := Option.bind_eq_some_iff.mp h
        cases h
        exact restores_junction rfl rfl (hlist hfs)
      · obtain ⟨fs, hfs, h⟩ := Option.bind_eq_some_iff.mp h
        cases h
        exact restores_junction rfl rfl (hlist hfs)
      · obtain ⟨g, hg, h⟩ := Option.bind_eq_some_iff.mp h
        cases h
        rw [filterOf?_eq] at hg
        obtain ⟨i, hfind, hi⟩ := Json.exists_of_required hg
        have hfilter := ih n (Nat.lt_succ_self n) hi (Json.legible_of_find? hmembers hfind) true
        exact restores_not hfilter
      · obtain ⟨name, -, h⟩ := Option.bind_eq_some_iff.mp h
        obtain ⟨c, hc, h⟩ := Option.bind_eq_some_iff.mp h
        cases h
        exact restores_field hmembers hc inner'
    | _ => simp [read] at h

theorem toJson_ne_null (f : Filter) : f.toJson ≠ .null := by
  cases f <;> exact Json.noConfusion

end Filter

/-! ## Sorting and projections -/

theorem SortKey.restores (k : SortKey) (n : Nat) :
    Json.Restores SortKey.ofJson? (n + 1) k.toJson k := by
  refine ⟨?_, ?_⟩
  · exact (Json.legible_str _ _).cons _ <| (Json.legible_str _ _).cons _ <| Json.legible_obj_nil _
  · obtain ⟨field, order⟩ := k
    cases order <;> rfl

theorem Projection.restores (p : Projection) (n : Nat) :
    Json.Restores Projection.ofJson? (n + 2) p.toJson p := by
  have hfields : ∀ fields : List String,
      Json.Restores (Json.asList Json.asString) (n + 1) (.arr (fields.map .str)) fields :=
    fun fields => Json.restores_arr fun s _ => Json.restores_str s n
  refine ⟨?_, ?_⟩
  · exact (Json.legible_str _ _).cons _ <| (hfields p.fields).toLegible.cons _ <|
      Json.legible_obj_nil _
  · cases p with
    | keeping fields =>
      have hreads : ofJson? (keeping fields).toJson =
          (Json.asList Json.asString (.arr (fields.map .str))).bind fun fs => some (keeping fs) := rfl
      rw [hreads, (hfields fields).reads]
      rfl
    | dropping fields =>
      have hreads : ofJson? (dropping fields).toJson =
          (Json.asList Json.asString (.arr (fields.map .str))).bind fun fs => some (dropping fs) := rfl
      rw [hreads, (hfields fields).reads]
      rfl

/-! ## Queries -/
namespace Query

/-- A query whose parts are read again is itself. -/
theorem restores_of_parts {q : Query} {n : Nat} {inner : Bool}
    (hfilter : Json.Restores (Json.orNull (Filter.read inner)) n
      ((q.filter.map Filter.toJson).getD .null) q.filter)
    (hsort : Json.Restores (Json.asList SortKey.ofJson?) n (.arr (q.sort.map SortKey.toJson)) q.sort)
    (hprojection : Json.Restores (Json.orNull Projection.ofJson?) n
      ((q.projection.map Projection.toJson).getD .null) q.projection)
    (hskip : Json.Restores Json.asCount n (.int q.skip) q.skip)
    (hlimit : Json.Restores (Json.orNull Json.asCount) n
      ((q.limit.map fun n : Nat => Json.int n).getD .null) q.limit) :
    Json.Restores (read inner) (n + 1) q.toJson q := by
  obtain ⟨filter, sort, projection, skip, limit⟩ := q
  have hwritten : toJson ⟨filter, sort, projection, skip, limit⟩ =
      .obj [("filter", (filter.map Filter.toJson).getD .null),
        ("sort", .arr (sort.map SortKey.toJson)),
        ("projection", (projection.map Projection.toJson).getD .null), ("skip", .int skip),
        ("limit", (limit.map fun n : Nat => Json.int n).getD .null)] := by
    cases limit <;> rfl
  rw [hwritten]
  refine ⟨?_, ?_⟩
  · exact hfilter.toLegible.cons _ <| hsort.toLegible.cons _ <| hprojection.toLegible.cons _ <|
      hskip.toLegible.cons _ <| hlimit.toLegible.cons _ <| Json.legible_obj_nil _
  · have hreads : ∀ filter' sort' projection' skip' limit' : Json,
        read inner (.obj [("filter", filter'), ("sort", sort'), ("projection", projection'),
          ("skip", skip'), ("limit", limit')]) =
          (Json.orNull (Filter.read inner) filter').bind fun f =>
            (Json.asList SortKey.ofJson? sort').bind fun ks =>
              (Json.orNull Projection.ofJson? projection').bind fun p =>
                (Json.asCount skip').bind fun s =>
                  (Json.orNull Json.asCount limit').bind fun l => some ⟨f, ks, p, s, l⟩ :=
      fun _ _ _ _ _ => rfl
    rw [hreads, hfilter.reads, hsort.reads, hprojection.reads, hskip.reads, hlimit.reads]
    rfl

/-- The page of a query is written even where it was left out. -/
theorem restores_of_read {inner : Bool} {j : Json} {q : Query} {limit : Nat}
    (hread : read inner j = some q) (hj : j.Legible limit) (hlimit : 3 ≤ limit) (inner' : Bool) :
    Json.Restores (read inner') limit q.toJson q := by
  rw [read] at hread
  simp only [Option.bind_eq_bind] at hread
  obtain ⟨ms, hms, h⟩ := Option.bind_eq_some_iff.mp hread
  rw [Json.eq_obj_of_asMembers hms] at hj
  obtain ⟨n, rfl, hmembers⟩ := Json.legible_obj_iff.mp hj
  split at h
  · cases h
  obtain ⟨filter, hfilter, h⟩ := Option.bind_eq_some_iff.mp h
  obtain ⟨sort, -, h⟩ := Option.bind_eq_some_iff.mp h
  obtain ⟨projection, -, h⟩ := Option.bind_eq_some_iff.mp h
  obtain ⟨skip, hskip, h⟩ := Option.bind_eq_some_iff.mp h
  obtain ⟨limit, hlimit, h⟩ := Option.bind_eq_some_iff.mp h
  cases h
  obtain ⟨m, rfl⟩ : ∃ m, n = m + 2 := ⟨n - 2, by omega⟩
  refine restores_of_parts ?filter (Json.restores_arr fun k _ => k.restores m) ?projection ?skip
    ?limit
  case filter =>
    refine Json.restores_orNull ?_
    rintro f rfl
    obtain ⟨i, hfind, -, hi⟩ := Json.exists_of_optional hfilter
    exact ⟨Filter.restores_of_read hi (Json.legible_of_find? hmembers hfind) inner',
      f.toJson_ne_null⟩
  case projection =>
    exact Json.restores_orNull fun p _ => ⟨p.restores m, by cases p <;> exact Json.noConfusion⟩
  case skip =>
    rcases Json.exists_of_withDefault hskip with rfl | ⟨i, -, hi⟩
    · have hzero : Json.asCount (.int 0) = some 0 := rfl
      exact Json.restores_count hzero _
    · exact Json.restores_count hi _
  case limit =>
    refine Json.restores_orNull ?_
    rintro k rfl
    obtain ⟨i, -, -, hi⟩ := Json.exists_of_optional hlimit
    exact ⟨Json.restores_count hi _, Json.noConfusion⟩

end Query
end DocBase
