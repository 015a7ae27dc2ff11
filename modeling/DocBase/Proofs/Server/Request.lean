import DocBase.Proofs.Json.Line
import DocBase.Proofs.Query.Ordered
import DocBase.Proofs.Schema.Fill
import DocBase.Proofs.Schema.Restored
import DocBase.Server.Request

/-! What a request brings along. It was read from JSON, where the names of all objects are in
order, and so are they in its documents, updates and schemas. -/
namespace DocBase
open Keyed

/-! ## Schemas -/

theorem wellFormed_default_of_members {ms : Json.Members} {rules : FieldRules}
    (h : FieldRules.ofMembers? ms = some rules) {v : Value} (hv : rules.default = some v) :
    v.WellFormed := by
  simp only [FieldRules.ofMembers?, Option.bind_eq_bind, Option.bind_eq_some_iff] at h
  obtain ⟨_, -, _, -, _, -, _, -, _, -, _, -, _, -, _, -, default, hdefault, h⟩ := h
  cases h
  subst hv
  obtain ⟨j, -, -, hj⟩ := Json.exists_of_optional hdefault
  cases hj
  exact Value.wellFormed_ofJson j

mutual

/-- By recursion on the JSON that is read. -/
theorem FieldSchema.wellFormed_ofJson? {j : Json} {f : FieldSchema}
    (h : FieldSchema.ofJson? j = some f) : f.WellFormed := by
  obtain ⟨ms, rules, items, properties, hj, rfl, hrules, -, hproperties⟩ :=
    FieldSchema.exists_of_ofJson? h
  have hdefault : ∀ v, rules.default = some v → v.WellFormed :=
    fun v => wellFormed_default_of_members hrules
  cases properties with
  | none => exact hdefault
  | some s =>
    obtain ⟨i, hfind, -, hi⟩ := Json.exists_of_optional hproperties
    have hsmaller : sizeOf i < sizeOf j := hj ▸ Json.sizeOf_lt_of_mem (Json.mem_of_find? hfind)
    exact ⟨hdefault, Schema.wellFormed_ofJson? hi⟩
termination_by sizeOf j
decreasing_by exact hsmaller

theorem Schema.wellFormed_ofJson? {j : Json} {s : Schema} (h : Schema.ofJson? j = some s) :
    s.WellFormed := by
  obtain ⟨ms, name, fields, required, strict, hj, rfl, hfields⟩ := Schema.exists_of_ofJson? h
  refine wellFormedDeclared_iff.mpr ?_
  refine forall_mem_foldl_insert (P := FieldSchema.WellFormed)
    (fun e he => absurd he List.not_mem_nil) fun e he => ?_
  obtain ⟨fms, k, hfms, hk, hread⟩ := hfields e he
  have hsmaller : sizeOf k < sizeOf j :=
    hj ▸ (Json.sizeOf_lt_of_mem hk).trans (Json.sizeOf_lt_of_mem hfms)
  exact FieldSchema.wellFormed_ofJson? hread
termination_by sizeOf j
decreasing_by exact hsmaller

end

/-! ## Documents and updates -/

theorem Document.ordered_of_ofJson {j : Json} {d : Document}
    (h : (Document.ofJson j).toOption = some d) : d.Ordered :=
  (wellFormed_of_ofJson (eq_ok_of_toOption h)).object

theorem Update.wellFormed_of_fields {j : Json} {fields : Fields}
    (h : Update.fieldsOfJson? j = some fields) : (Value.object fields).WellFormed := by
  rw [Update.fieldsOfJson?] at h
  split at h
  next fs heq =>
    cases h
    rw [← heq]
    exact Value.wellFormed_ofJson j
  next => cases h

theorem Update.wellFormed_of_read {inner : Bool} {j : Json} {u : Update}
    (h : Update.read inner j = some u) : u.WellFormed := by
  obtain ⟨ms, -, ⟨fields, rfl, hfields⟩ | ⟨writes, removals, rfl, hwrites, -⟩⟩ :=
    Update.cases_of_read h
  · obtain ⟨j, -, hj⟩ := Json.exists_of_required hfields
    exact Update.wellFormed_of_fields hj
  · rcases Json.exists_of_withDefault hwrites with rfl | ⟨j, -, hj⟩
    · trivial
    · exact (Update.wellFormed_of_fields hj).2

/-! ## Requests -/

namespace CollectionRequest

def WellFormed : CollectionRequest → Prop
  | insert d => d.Ordered
  | insertMany docs => ∀ d ∈ docs, d.Ordered
  | update _ u => u.WellFormed
  | declare s => ∀ t, s = some t → t.WellFormed
  | _ => True

/-- What each request is read from, among the members of an object. -/
inductive ReadFrom (ms : Json.Members) : CollectionRequest → Prop
  | insert {d : Document}
      (h : ms.required "document" (fun j => (Document.ofJson j).toOption) = some d) :
      ReadFrom ms (insert d)
  | insertMany {docs : List Document}
      (h : ms.required "documents" (Json.asList fun j => (Document.ofJson j).toOption) =
        some docs) : ReadFrom ms (insertMany docs)
  | get {id : String} (h : ms.required "id" Json.asString = some id) : ReadFrom ms (get id)
  | update {id : String} {u : Update} (hid : ms.required "id" Json.asString = some id)
      (h : ms.required "update" (Update.read true) = some u) : ReadFrom ms (update id u)
  | remove {id : String} (h : ms.required "id" Json.asString = some id) : ReadFrom ms (remove id)
  | find {q : Query} (h : ms.withDefault "query" {} (Query.read true) = some q) :
      ReadFrom ms (find q)
  | count {f : Option Filter} (h : ms.optional "filter" (Filter.read true) = some f) :
      ReadFrom ms (count f)
  | explain {q : Query} (h : ms.withDefault "query" {} (Query.read true) = some q) :
      ReadFrom ms (explain q)
  | declare {s : Option Schema} (h : ms.optional "schema" Schema.ofJson? = some s) :
      ReadFrom ms (declare s)
  | drop : ReadFrom ms drop
  | createIndex {field : String} {kind : IndexKind}
      (hfield : ms.required "field" Json.asString = some field)
      (hkind : ms.required "index_type" (fun j => j.asString.bind IndexKind.ofName?) =
        some kind) : ReadFrom ms (createIndex field kind)
  | dropIndex {field : String} (h : ms.required "field" Json.asString = some field) :
      ReadFrom ms (dropIndex field)

theorem readFrom_of_members {op : String} {ms : Json.Members} {r : CollectionRequest}
    (h : ofMembers? op ms = some r) : r.ReadFrom ms := by
  have hone : ∀ {α : Type} {o : Option α} {f : α → CollectionRequest}, o.map f = some r →
      (∀ {a}, o = some a → (f a).ReadFrom ms) → r.ReadFrom ms := by
    intro α o f h hf
    obtain ⟨a, ha, rfl⟩ := Option.map_eq_some_iff.mp h
    exact hf ha
  rw [ofMembers?.eq_def] at h
  simp only [Option.bind_eq_bind] at h
  split at h
  · exact hone h .insert
  · exact hone h .insertMany
  · exact hone h .get
  · obtain ⟨id, hid, h⟩ := Option.bind_eq_some_iff.mp h
    obtain ⟨u, hu, h⟩ := Option.bind_eq_some_iff.mp h
    cases h
    exact .update hid hu
  · exact hone h .remove
  · exact hone h .find
  · exact hone h .count
  · exact hone h .explain
  · exact hone h .declare
  · cases h
    exact .drop
  · obtain ⟨field, hfield, h⟩ := Option.bind_eq_some_iff.mp h
    obtain ⟨kind, hkind, h⟩ := Option.bind_eq_some_iff.mp h
    cases h
    exact .createIndex hfield hkind
  · exact hone h .dropIndex
  · cases h

theorem wellFormed_of_readFrom {ms : Json.Members} {r : CollectionRequest} (h : r.ReadFrom ms) :
    r.WellFormed := by
  cases h with
  | insert h =>
    obtain ⟨j, -, hj⟩ := Json.exists_of_required h
    exact Document.ordered_of_ofJson hj
  | insertMany h =>
    obtain ⟨j, -, hj⟩ := Json.exists_of_required h
    rw [Json.asList.eq_def] at hj
    split at hj
    next items =>
      intro d hd
      obtain ⟨i, -, hi⟩ := Json.exists_of_mapM hj d hd
      exact Document.ordered_of_ofJson hi
    next => cases hj
  | update _ h =>
    obtain ⟨j, -, hj⟩ := Json.exists_of_required h
    exact Update.wellFormed_of_read hj
  | declare h =>
    rintro t rfl
    obtain ⟨j, -, -, hj⟩ := Json.exists_of_optional h
    exact Schema.wellFormed_ofJson? hj
  | get | remove | find | count | explain | drop | createIndex | dropIndex => trivial

end CollectionRequest

namespace Request

def WellFormed (r : Request) : Prop :=
  match r.operation with
  | .on _ op => op.WellFormed
  | .listCollections => True

/-- What a request is read from. -/
theorem cases_of_ofJson? {j : Json} {r : Request} (h : ofJson? j = some r) :
    ∃ ms : Json.Members, j = .obj ms ∧
      (r.operation = .listCollections ∨
        ∃ collection op, r.operation = .on collection op ∧ op.ReadFrom ms) := by
  rw [ofJson?] at h
  simp only [Option.bind_eq_bind] at h
  obtain ⟨ms, hms, h⟩ := Option.bind_eq_some_iff.mp h
  refine ⟨ms, Json.eq_obj_of_asMembers hms, ?_⟩
  split at h
  · cases h
  obtain ⟨op, -, h⟩ := Option.bind_eq_some_iff.mp h
  obtain ⟨database, -, h⟩ := Option.bind_eq_some_iff.mp h
  split at h
  · cases h
    exact .inl rfl
  split at h
  · cases h
  obtain ⟨collection, -, h⟩ := Option.bind_eq_some_iff.mp h
  obtain ⟨operation, hoperation, h⟩ := Option.bind_eq_some_iff.mp h
  cases h
  exact .inr ⟨collection, operation, rfl, CollectionRequest.readFrom_of_members hoperation⟩

theorem wellFormed_of_decode {line : String} {r : Request} (h : decode line = some r) :
    r.WellFormed := by
  obtain ⟨j, -, h⟩ := Option.bind_eq_some_iff.mp h
  obtain ⟨ms, -, hlist | ⟨collection, op, hon, hop⟩⟩ := cases_of_ofJson? h
  · rw [WellFormed, hlist]
    trivial
  · rw [WellFormed, hon]
    exact CollectionRequest.wellFormed_of_readFrom hop

theorem decode_encode {r : Request} (h : r.toJson.Printable) : decode r.encode =
    if r.toJson.depth ≤ Json.depthLimit then ofJson? r.toJson else none := by
  have htrim : Text.trim r.encode.toList = r.encode.toList := by
    obtain ⟨database, operation⟩ := r
    cases operation with
    | on collection op => exact Json.trim_render_obj _
    | listCollections => exact Json.trim_render_obj _
  rw [decode, htrim, String.ofList_toList, encode, Json.parse_render h]
  split
  · rfl
  · rfl

end Request
end DocBase
