import DocBase.Proofs.Query.Restored
import DocBase.Proofs.Schema.Restored
import DocBase.Proofs.Server.Request

/-! Requests that were read from a line and are written as one again. -/
namespace DocBase

namespace CollectionRequest

/-- The schema that comes with a request. -/
def schema? : CollectionRequest → Option Schema
  | declare s => s
  | _ => none

/-- The members are legible, one level deeper where a schema is among them, and the request is
read from them behind those that all requests have. -/
structure Restored (limit : Nat) (r : CollectionRequest) : Prop where
  legible : ∀ e ∈ r.members, e.2.Legible (if r.schema?.isSome then limit + 1 else limit)
  reads : ∀ op database collection, ofMembers? r.name
    (("op", op) :: ("database", database) :: ("collection", collection) :: r.members) = some r

theorem legible_member {name : String} {j : Json} {limit : Nat} (h : j.Legible limit) :
    ∀ e ∈ [(name, j)], e.2.Legible limit := by
  intro e he
  cases List.mem_singleton.mp he
  exact h

section
variable {ms : Json.Members} {n : Nat}

theorem restores_query {q : Query} (h : ms.withDefault "query" {} (Query.read true) = some q)
    (hms : ∀ e ∈ ms, e.2.Legible (n + 1)) (hn : 3 ≤ n + 1) :
    Json.Restores (Query.read true) (n + 1) q.toJson q := by
  rcases Json.exists_of_withDefault h with rfl | ⟨j, hfind, hj⟩
  · have hempty : Query.read true (.obj []) = some {} := rfl
    exact Query.restores_of_read hempty
      (Json.legible_obj_iff.mpr ⟨n, rfl, fun e he => absurd he List.not_mem_nil⟩) hn true
  · exact Query.restores_of_read hj (Json.legible_of_find? hms hfind) hn true

theorem restores_filter {f : Option Filter} (h : ms.optional "filter" (Filter.read true) = some f)
    (hms : ∀ e ∈ ms, e.2.Legible (n + 1)) :
    Json.Restores (Json.orNull (Filter.read true)) (n + 1) ((f.map Filter.toJson).getD .null) f := by
  refine Json.restores_orNull ?_
  rintro g rfl
  obtain ⟨j, hfind, -, hj⟩ := Json.exists_of_optional h
  exact ⟨Filter.restores_of_read hj (Json.legible_of_find? hms hfind) true, g.toJson_ne_null⟩

/-- A schema is written one level deeper than it was read, and null where there is none. -/
theorem restores_schema {s : Option Schema} (h : ms.optional "schema" Schema.ofJson? = some s)
    (hms : ∀ e ∈ ms, e.2.Legible (n + 1)) :
    Json.Restores (Json.orNull Schema.ofJson?) (if s.isSome then n + 2 else n + 1)
      ((s.map Schema.toJson).getD .null) s := by
  refine Json.restores_orNull ?_
  rintro t rfl
  obtain ⟨j, hfind, -, hj⟩ := Json.exists_of_optional h
  exact ⟨(restores_of_ofJson? (n + 1)).2 hj (Json.legible_of_find? hms hfind), t.toJson_ne_null⟩

theorem restored_of_readFrom {r : CollectionRequest} (h : r.ReadFrom ms)
    (hms : ∀ e ∈ ms, e.2.Legible (n + 1)) (hn : 3 ≤ n + 1) : r.Restored (n + 1) := by
  have htext : ∀ {name text : String}, ∀ e ∈ [(name, Json.str text)], e.2.Legible (n + 1) :=
    legible_member (Json.legible_str _ _)
  cases h with
  | insert h =>
    obtain ⟨j, hfind, hj⟩ := Json.exists_of_required h
    have hrestores := Document.restores_of_read hj (Json.legible_of_find? hms hfind)
    refine ⟨legible_member hrestores.toLegible, fun op database collection => ?_⟩
    exact congrArg (Option.map insert) hrestores.reads
  | @insertMany docs h =>
    obtain ⟨j, hfind, hj⟩ := Json.exists_of_required h
    have hrestores : Json.Restores (Json.asList fun j => (Document.ofJson j).toOption) (n + 1)
        (.arr (docs.map Document.toJson)) docs :=
      Json.restores_of_asList hj (Json.legible_of_find? hms hfind) Document.restores_of_read
    refine ⟨legible_member hrestores.toLegible, fun op database collection => ?_⟩
    exact congrArg (Option.map insertMany) hrestores.reads
  | @update id u _ h =>
    obtain ⟨j, hfind, hj⟩ := Json.exists_of_required h
    have hrestores := Update.restores_of_read hj (Json.legible_of_find? hms hfind) (by omega) true
    refine ⟨?_, fun op database collection => ?_⟩
    · exact List.forall_mem_cons.mpr ⟨Json.legible_str _ _, legible_member hrestores.toLegible⟩
    · exact congrArg (Option.bind · fun v => some (update id v)) hrestores.reads
  | find h =>
    have hrestores := restores_query h hms hn
    refine ⟨legible_member hrestores.toLegible, fun op database collection => ?_⟩
    exact congrArg (Option.map find) hrestores.reads
  | count h =>
    have hrestores := restores_filter h hms
    refine ⟨legible_member hrestores.toLegible, fun op database collection => ?_⟩
    exact congrArg (Option.map count) hrestores.reads
  | explain h =>
    have hrestores := restores_query h hms hn
    refine ⟨legible_member hrestores.toLegible, fun op database collection => ?_⟩
    exact congrArg (Option.map explain) hrestores.reads
  | declare h =>
    have hrestores := restores_schema h hms
    refine ⟨legible_member hrestores.toLegible, fun op database collection => ?_⟩
    exact congrArg (Option.map declare) hrestores.reads
  | drop => exact ⟨fun e he => absurd he List.not_mem_nil, fun op database collection => rfl⟩
  | @createIndex field kind =>
    refine ⟨List.forall_mem_cons.mpr ⟨Json.legible_str _ _, htext⟩,
      fun op database collection => ?_⟩
    cases kind <;> rfl
  | get | remove | dropIndex => exact ⟨htext, fun op database collection => rfl⟩

end

theorem nodup_keys_members (r : CollectionRequest) :
    ("op" :: "database" :: "collection" :: r.members.map Prod.fst).Nodup := by
  cases r <;> simp [members]

theorem name_ne_listCollections (r : CollectionRequest) : r.name ≠ "list_collections" := by
  cases r <;> simp [name]

end CollectionRequest

namespace Request

/-- The schema that comes with a request. -/
def schema? (r : Request) : Option Schema :=
  match r.operation with
  | .on _ op => op.schema?
  | .listCollections => none

/-- A request of a collection is read from any object that it is among the members of. -/
theorem ofJson?_of_members {ms : Json.Members} {op database collection : String}
    {r : CollectionRequest} (hdeclares : ∀ names : List String, ms.declares names)
    (hop : ms.required "op" Json.asString = some op)
    (hdatabase : ms.required "database" Json.asString = some database)
    (hcollection : ms.required "collection" Json.asString = some collection)
    (hname : op ≠ "list_collections") (hr : CollectionRequest.ofMembers? op ms = some r) :
    ofJson? (.obj ms) = some ⟨database, .on collection r⟩ := by
  rw [ofJson?]
  simp [Json.asMembers, hdeclares, hop, hdatabase, hcollection, hname, hr]

theorem restores_on (database collection : String) {r : CollectionRequest} {n : Nat}
    (h : r.Restored n) : Json.Restores ofJson? (if r.schema?.isSome then n + 2 else n + 1)
      (toJson ⟨database, .on collection r⟩) ⟨database, .on collection r⟩ := by
  refine ⟨Json.legible_obj_iff.mpr ⟨if r.schema?.isSome then n + 1 else n, ?_, ?_⟩, ?_⟩
  · split <;> rfl
  · change ∀ e ∈ ("op", Json.str r.name) :: ("database", .str database) ::
      ("collection", .str collection) :: r.members, _
    simp only [List.forall_mem_cons]
    exact ⟨Json.legible_str _ _, Json.legible_str _ _, Json.legible_str _ _, h.legible⟩
  · exact ofJson?_of_members
      (Json.declares_of_sublist r.nodup_keys_members (List.Sublist.refl _)) rfl rfl rfl
      r.name_ne_listCollections (h.reads _ _ _)

theorem restores_listCollections (database : String) (n : Nat) :
    Json.Restores ofJson? (n + 1) (toJson ⟨database, .listCollections⟩)
      ⟨database, .listCollections⟩ := by
  refine ⟨?_, rfl⟩
  exact (Json.legible_str _ _).cons _ <| (Json.legible_str _ _).cons _ <| Json.legible_obj_nil _

/-- A request that was read is read again from its JSON form. -/
theorem restores_of_ofJson? {j : Json} {r : Request} {limit : Nat} (hread : ofJson? j = some r)
    (hj : j.Legible limit) (hlimit : 4 ≤ limit) :
    Json.Restores ofJson? (if r.schema?.isSome then limit + 1 else limit) r.toJson r := by
  obtain ⟨ms, rfl, hcases⟩ := cases_of_ofJson? hread
  obtain ⟨n, rfl, hmembers⟩ := Json.legible_obj_iff.mp hj
  obtain ⟨m, rfl⟩ : ∃ m, n = m + 1 := ⟨n - 1, by omega⟩
  obtain ⟨database, operation⟩ := r
  rcases hcases with rfl | ⟨collection, op, rfl, hop⟩
  · exact restores_listCollections database (m + 1)
  · exact restores_on database collection (CollectionRequest.restored_of_readFrom hop hmembers (by omega))

end Request
end DocBase
