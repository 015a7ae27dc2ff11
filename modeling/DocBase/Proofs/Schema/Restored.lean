import DocBase.Proofs.Document.Restored
import DocBase.Schema.Json

/-! Schemas that were read from JSON and are written again. What a schema leaves out is written
with its default, so that the text may nest one level deeper than the one that was read. -/
namespace DocBase
open Keyed

/-! ## Records with members left out -/
namespace Json

/-- The members of a record, those left out that there is nothing to write for. -/
def written (rows : List (String × Option Json)) : Members := rows.flatMap fun e => memberIf e.1 e.2

theorem keys_written_sublist (rows : List (String × Option Json)) :
    ((written rows).map Prod.fst).Sublist (rows.map Prod.fst) := by
  induction rows with
  | nil => exact List.Sublist.slnil
  | cons e rest ih =>
    obtain ⟨name, o⟩ := e
    cases o with
    | none => exact ih.cons _
    | some j => exact ih.cons_cons _

theorem find?_written {rows : List (String × Option Json)} (h : (rows.map Prod.fst).Nodup)
    {name : String} {o : Option Json} (hmem : (name, o) ∈ rows) :
    (written rows).find? name = o := by
  have hnone : ∀ {rest : List (String × Option Json)}, name ∉ rest.map Prod.fst →
      (written rest).find? name = none := by
    intro rest hname
    refine List.lookup_eq_none_iff.mpr fun e he => ?_
    simp only [bne_iff_ne, ne_eq]
    rintro rfl
    exact hname ((keys_written_sublist rest).subset (List.mem_map_of_mem he))
  induction rows with
  | nil => cases hmem
  | cons e rest ih =>
    obtain ⟨k, p⟩ := e
    obtain ⟨hk, hrest⟩ := List.nodup_cons.mp h
    have hcons : (written ((k, p) :: rest)).find? name =
        if name = k then p.or ((written rest).find? name) else (written rest).find? name := by
      cases p with
      | none =>
        rw [Option.none_or, ite_self]
        rfl
      | some j =>
        change List.lookup name ((k, j) :: written rest) = _
        rw [List.lookup_cons]
        by_cases hname : name = k
        · simp [hname]
        · have hbeq : (name == k) = false := by simp [hname]
          rw [if_neg hname, hbeq]
          rfl
    rw [hcons]
    rcases List.mem_cons.mp hmem with heq | htail
    · cases heq
      rw [if_pos rfl, hnone hk, Option.or_none]
    · have hne : name ≠ k := by
        rintro rfl
        exact hk (List.mem_map.mpr ⟨(name, o), htail, rfl⟩)
      rw [if_neg hne, ih hrest htail]

theorem legible_written {rows : List (String × Option Json)} {limit : Nat}
    (h : ∀ e ∈ rows, ∀ j, e.2 = some j → j.Legible limit) :
    ∀ e ∈ written rows, e.2.Legible limit := by
  intro e he
  obtain ⟨⟨name, o⟩, hrow, he⟩ := List.mem_flatMap.mp he
  cases o with
  | none => cases he
  | some j =>
    cases List.mem_singleton.mp he
    exact h _ hrow j rfl

variable {α : Type} {ms : Members} {name : String} {read : Json → Option α} {write : α → Json}

/-- A member that is left out is read as null is. -/
theorem optional_of_find? {o : Option Json} {a : Option α} {limit : Nat}
    (hfind : ms.find? name = o) (h : Restores (orNull read) limit (o.getD .null) a) :
    ms.optional name read = some a := by
  rw [Members.optional, Members.withDefault, hfind]
  cases o with
  | none => exact h.reads
  | some j => exact h.reads

theorem legible_of_restores {o : Option Json} {a : Option α} {limit : Nat}
    (h : Restores (orNull read) limit (o.getD .null) a) : ∀ j, o = some j → j.Legible limit := by
  rintro j rfl
  exact h.toLegible

theorem withDefault_of_find? {default : α} {j : Json} (hfind : ms.find? name = some j) :
    ms.withDefault name default read = read j := by
  rw [Members.withDefault, hfind]

end Json

/-! ## Rules -/

theorem Pattern.ofSource_source (p : Pattern) : Pattern.ofSource p.source = p := by
  obtain ⟨source, regex, hcompiled⟩ := p
  subst hcompiled
  rfl

theorem FieldType.restores (t : FieldType) (limit : Nat) :
    Json.Restores FieldType.ofJson? limit (.str t.name) t := by
  refine ⟨Json.legible_str _ _, ?_⟩
  cases t <;> rfl

theorem Value.toJson_ne_null {v : Value} {path : String} (hfinite : v.nonFinitePath path = none)
    (h : v ≠ .null) : v.toJson ≠ .null := by
  cases v with
  | null => exact absurd rfl h
  | float x =>
    have hx : x.isFinite := by
      by_contra hx
      rw [nonFinitePath, if_neg hx] at hfinite
      cases hfinite
    rw [toJson, if_pos hx]
    exact Json.noConfusion
  | bool b => exact Json.noConfusion
  | int n => exact Json.noConfusion
  | string s => exact Json.noConfusion
  | array items => exact Json.noConfusion
  | object fields => exact Json.noConfusion

theorem Value.toJson_ofJson_ne_null {j : Json} (h : j.Printable) (hnull : j ≠ .null) :
    (ofJson j).toJson ≠ .null := by
  refine toJson_ne_null (nonFinitePath_ofJson h "") ?_
  cases j with
  | null => exact absurd rfl hnull
  | int n =>
    rw [ofJson, ofInt]
    split
    · exact Value.noConfusion
    · exact Value.noConfusion
  | float x => exact Value.noConfusion
  | bool b => exact Value.noConfusion
  | str s => exact Value.noConfusion
  | arr items => exact Value.noConfusion
  | obj members => exact Value.noConfusion

namespace FieldRules

/-- The parts of the rules, the default apart, that have to be read before they can be written. -/
structure Readable (limit : Nat) (r : FieldRules) : Prop where
  min : ∀ x, r.min = some x →
    Json.Restores Json.asBinary64 limit (Value.float x).toJson x ∧ (Value.float x).toJson ≠ .null
  max : ∀ x, r.max = some x →
    Json.Restores Json.asBinary64 limit (Value.float x).toJson x ∧ (Value.float x).toJson ≠ .null
  minLength : ∀ n, r.minLength = some n → Json.Restores Json.asCount limit (.int n) n
  maxLength : ∀ n, r.maxLength = some n → Json.Restores Json.asCount limit (.int n) n
  enumValues : ∀ vs, r.enumValues = some vs →
    Json.Restores (Json.asList fun j => some (Value.ofJson j)) limit
      (.arr (Value.toJsonItems vs)) vs

/-- With a default that is read before it can be written. -/
structure Restorable (limit : Nat) (r : FieldRules) : Prop extends Readable limit r where
  default : ∀ v, r.default = some v →
    Json.Restores (fun j => some (Value.ofJson j)) limit v.toJson v ∧ v.toJson ≠ .null

variable {ms : Json.Members} {rules : FieldRules} {limit : Nat}

theorem restores_finite {x : Binary64} (h : x.isFinite) :
    Json.Restores Json.asBinary64 limit (Value.float x).toJson x ∧
      (Value.float x).toJson ≠ .null := by
  rw [Value.toJson, if_pos h]
  exact ⟨⟨⟨h, Nat.zero_le _⟩, rfl⟩, Json.noConfusion⟩

theorem restores_bound {x : Binary64} {j : Json} (h : Json.asBinary64 j = some x)
    (hj : j.Legible limit) :
    Json.Restores Json.asBinary64 limit (Value.float x).toJson x ∧
      (Value.float x).toJson ≠ .null := by
  have hfinite : x.isFinite := by
    rw [Json.asBinary64.eq_def] at h
    split at h
    next n =>
      cases h
      have hlow : -(2 ^ 63) ≤ n := hj.printable.1
      have hhigh : n < 2 ^ 64 := hj.printable.2
      refine Binary64.isFinite_ofInt ?_
      change n.natAbs ≤ 18446744073709551616
      omega
    next => cases h; exact hj.printable
    next => cases h
  exact restores_finite hfinite

theorem restorable_of_members (h : ofMembers? ms = some rules)
    (hms : ∀ e ∈ ms, e.2.Legible limit) : rules.Restorable limit := by
  simp only [ofMembers?, Option.bind_eq_bind, Option.bind_eq_some_iff] at h
  obtain ⟨types, -, nullable, -, min, hmin, max, hmax, minLength, hminLength, maxLength,
    hmaxLength, pattern, -, enumValues, henumValues, default, hdefault, h⟩ := h
  cases h
  refine ⟨⟨?_, ?_, ?_, ?_, ?_⟩, ?_⟩
  · rintro x rfl
    obtain ⟨j, hfind, -, hj⟩ := Json.exists_of_optional hmin
    exact restores_bound hj (Json.legible_of_find? hms hfind)
  · rintro x rfl
    obtain ⟨j, hfind, -, hj⟩ := Json.exists_of_optional hmax
    exact restores_bound hj (Json.legible_of_find? hms hfind)
  · rintro n rfl
    obtain ⟨j, -, -, hj⟩ := Json.exists_of_optional hminLength
    exact Json.restores_count hj limit
  · rintro n rfl
    obtain ⟨j, -, -, hj⟩ := Json.exists_of_optional hmaxLength
    exact Json.restores_count hj limit
  · rintro vs rfl
    obtain ⟨j, hfind, -, hj⟩ := Json.exists_of_optional henumValues
    have hlegible := Json.legible_of_find? hms hfind
    obtain ⟨m, rfl⟩ := Json.exists_limit_of_asList hj hlegible
    rw [Value.toJsonItems_eq]
    refine Json.restores_of_asList hj hlegible ?_
    rintro i _ ⟨⟩ hi
    exact Value.restores_ofJson hi
  · rintro v rfl
    obtain ⟨j, hfind, hnull, hj⟩ := Json.exists_of_optional hdefault
    have hlegible := Json.legible_of_find? hms hfind
    cases hj
    exact ⟨Value.restores_ofJson hlegible, Value.toJson_ofJson_ne_null hlegible.printable hnull⟩

/-- What is written of the rules. -/
def rows (r : FieldRules) : List (String × Option Json) :=
  [("types", some (.arr (r.types.map fun t => .str t.name))),
    ("nullable", some (.bool r.nullable)),
    ("min", r.min.map fun x => (Value.float x).toJson),
    ("max", r.max.map fun x => (Value.float x).toJson),
    ("min_length", r.minLength.map fun n : Nat => .int n),
    ("max_length", r.maxLength.map fun n : Nat => .int n),
    ("pattern", r.pattern.map fun p => .str p.source),
    ("enum_values", r.enumValues.map fun vs => .arr (Value.toJsonItems vs))]

theorem members_eq (r : FieldRules) : r.members = Json.written r.rows := by
  obtain ⟨types, nullable, min, max, minLength, maxLength, pattern, enumValues, default⟩ := r
  cases minLength <;> cases maxLength <;>
    simp [members, rows, Json.written, Json.memberIf]

theorem restores_types (types : List FieldType) (n : Nat) :
    Json.Restores (Json.asList FieldType.ofJson?) (n + 1)
      (.arr (types.map fun t => .str t.name)) types :=
  Json.restores_arr fun t _ => t.restores n

theorem legible_rows {n : Nat} (h : rules.Readable (n + 1)) :
    ∀ e ∈ rules.rows, ∀ j, e.2 = some j → j.Legible (n + 1) := by
  simp only [rows, List.forall_mem_cons, List.not_mem_nil, false_imp_iff, implies_true, and_true,
    Option.map_eq_some_iff, Option.some.injEq]
  refine ⟨?_, ?_, ?_, ?_, ?_, ?_, ?_, ?_⟩
  · rintro _ rfl
    exact (restores_types _ n).toLegible
  · rintro _ rfl
    exact Json.legible_bool _ _
  · rintro _ ⟨x, hx, rfl⟩
    exact (h.min x hx).1.toLegible
  · rintro _ ⟨x, hx, rfl⟩
    exact (h.max x hx).1.toLegible
  · rintro _ ⟨k, hk, rfl⟩
    exact (h.minLength k hk).toLegible
  · rintro _ ⟨k, hk, rfl⟩
    exact (h.maxLength k hk).toLegible
  · rintro _ ⟨p, -, rfl⟩
    exact Json.legible_str _ _
  · rintro _ ⟨vs, hvs, rfl⟩
    exact (h.enumValues vs hvs).toLegible

/-- The rules are read from any record that has their rows, with the default that is read there. -/
theorem ofMembers?_of_rows {d : Option Value} (h : rules.Readable limit)
    (hrows : ∀ e ∈ rules.rows, ms.find? e.1 = e.2)
    (hdefault : ms.optional "default" (fun j => some (Value.ofJson j)) = some d) :
    ofMembers? ms = some { rules with default := d } := by
  simp only [rows, List.forall_mem_cons, List.not_mem_nil, false_imp_iff, implies_true,
    and_true] at hrows
  obtain ⟨htypes, hnullable, hmin, hmax, hminLength, hmaxLength, hpattern, henumValues⟩ := hrows
  have hreads : ms.withDefault "types" [] (Json.asList FieldType.ofJson?) = some rules.types :=
    (Json.withDefault_of_find? htypes).trans (restores_types rules.types 0).reads
  have hnull : ms.withDefault "nullable" false Json.asBool = some rules.nullable :=
    (Json.withDefault_of_find? hnullable).trans rfl
  have hpatterns : ∀ p, rules.pattern = some p →
      Json.Restores (fun j => j.asString.map Pattern.ofSource) limit (.str p.source) p ∧
        Json.str p.source ≠ .null :=
    fun p _ => ⟨⟨Json.legible_str _ _, congrArg some p.ofSource_source⟩, Json.noConfusion⟩
  have hcount : ∀ n, Json.int n ≠ .null := fun n => Json.noConfusion
  have hlist : ∀ items, Json.arr items ≠ .null := fun items => Json.noConfusion
  rw [ofMembers?, hreads, hnull,
    Json.optional_of_find? hmin (Json.restores_orNull h.min),
    Json.optional_of_find? hmax (Json.restores_orNull h.max),
    Json.optional_of_find? hminLength
      (Json.restores_orNull fun n hn => ⟨h.minLength n hn, hcount n⟩),
    Json.optional_of_find? hmaxLength
      (Json.restores_orNull fun n hn => ⟨h.maxLength n hn, hcount n⟩),
    Json.optional_of_find? hpattern (Json.restores_orNull hpatterns),
    Json.optional_of_find? henumValues
      (Json.restores_orNull fun vs hvs => ⟨h.enumValues vs hvs, hlist _⟩),
    hdefault]
  rfl

end FieldRules

/-! ## Fields and schemas -/

theorem itemsOf?_eq (ms : Json.Members) : itemsOf? ms = ms.optional "items" FieldSchema.ofJson? := by
  refine Json.withDefault_eq_of_search itemsOf? rfl ?_ ms
  intro k j rest
  rw [itemsOf?.eq_def]
  cases j <;> rfl

theorem propertiesOf?_eq (ms : Json.Members) :
    propertiesOf? ms = ms.optional "properties" Schema.ofJson? := by
  refine Json.withDefault_eq_of_search propertiesOf? rfl ?_ ms
  intro k j rest
  rw [propertiesOf?.eq_def]
  cases j <;> rfl

theorem fieldsOf?_eq (ms : Json.Members) :
    fieldsOf? ms = ms.withDefault "fields" [] fun j => j.asMembers.bind namedFields? := by
  refine Json.withDefault_eq_of_search fieldsOf? rfl ?_ ms
  intro k j rest
  rw [fieldsOf?.eq_def]
  cases j <;> rfl

theorem fieldMembers_eq (fields : List (String × FieldSchema)) :
    fieldMembers fields = mapValues FieldSchema.toJson fields := by
  induction fields with
  | nil => rfl
  | cons e rest ih => rw [fieldMembers, ih]; rfl

theorem exists_of_namedFields? {ms : Json.Members} {fields : List (String × FieldSchema)}
    (h : namedFields? ms = some fields) :
    ∀ e ∈ fields, ∃ j, (e.1, j) ∈ ms ∧ FieldSchema.ofJson? j = some e.2 := by
  induction ms generalizing fields with
  | nil =>
    cases h
    exact fun e he => absurd he List.not_mem_nil
  | cons e rest ih =>
    obtain ⟨k, j⟩ := e
    rw [namedFields?] at h
    simp only [Option.bind_eq_bind, Option.bind_eq_some_iff] at h
    obtain ⟨f, hf, more, hmore, h⟩ := h
    cases h
    refine List.forall_mem_cons.mpr ⟨⟨j, List.mem_cons_self, hf⟩, fun e he => ?_⟩
    obtain ⟨i, hi, hread⟩ := ih hmore e he
    exact ⟨i, List.mem_cons_of_mem _ hi, hread⟩

/-- What a field is read from: an object, with a member each for its items and its properties. -/
theorem FieldSchema.exists_of_ofJson? {j : Json} {f : FieldSchema} (h : ofJson? j = some f) :
    ∃ (ms : Json.Members) (rules : FieldRules) (items : Option FieldSchema)
      (properties : Option Schema), j = .obj ms ∧ f = mk rules items properties ∧
        FieldRules.ofMembers? ms = some rules ∧ ms.optional "items" ofJson? = some items ∧
        ms.optional "properties" Schema.ofJson? = some properties := by
  cases j with
  | obj ms =>
    rw [ofJson?] at h
    split at h
    · cases h
    simp only [Option.bind_eq_bind, Option.bind_eq_some_iff] at h
    obtain ⟨rules, hrules, items, hitems, properties, hproperties, h⟩ := h
    cases h
    rw [itemsOf?_eq] at hitems
    rw [propertiesOf?_eq] at hproperties
    exact ⟨ms, rules, items, properties, rfl, rfl, hrules, hitems, hproperties⟩
  | _ => simp [ofJson?] at h

/-- What a schema is read from: an object, with another in it that has a member for each field. -/
theorem Schema.exists_of_ofJson? {j : Json} {s : Schema} (h : ofJson? j = some s) :
    ∃ (ms : Json.Members) (name : String) (fields : List (String × FieldSchema))
      (required : List String) (strict : Bool),
        j = .obj ms ∧ s = mk name (Keyed.ofList fields) required strict ∧
        ∀ e ∈ fields, ∃ fms k, ("fields", Json.obj fms) ∈ ms ∧ (e.1, k) ∈ fms ∧
          FieldSchema.ofJson? k = some e.2 := by
  cases j with
  | obj ms =>
    rw [ofJson?] at h
    split at h
    · cases h
    simp only [Option.bind_eq_bind, Option.bind_eq_some_iff] at h
    obtain ⟨name, -, fields, hfields, required, -, strict, -, h⟩ := h
    cases h
    refine ⟨ms, name, fields, required, strict, rfl, rfl, fun e he => ?_⟩
    rw [fieldsOf?_eq] at hfields
    rcases Json.exists_of_withDefault hfields with rfl | ⟨i, hfind, hi⟩
    · cases he
    · obtain ⟨fms, hasMembers, hnamed⟩ := Option.bind_eq_some_iff.mp hi
      obtain ⟨k, hk, hread⟩ := exists_of_namedFields? hnamed e he
      rw [Json.eq_obj_of_asMembers hasMembers] at hfind
      exact ⟨fms, k, Json.mem_of_find? hfind, hk, hread⟩
  | _ => simp [ofJson?] at h

theorem namedFields?_fieldMembers {fields : List (String × FieldSchema)}
    {g : FieldSchema → FieldSchema}
    (h : ∀ e ∈ fields, FieldSchema.ofJson? e.2.toJson = some (g e.2)) :
    namedFields? (fieldMembers fields) = some (mapValues g fields) := by
  induction fields with
  | nil => rfl
  | cons e rest ih =>
    obtain ⟨k, f⟩ := e
    rw [fieldMembers, namedFields?, h (k, f) List.mem_cons_self,
      ih fun e he => h e (List.mem_cons_of_mem _ he)]
    rfl

theorem Schema.toJson_ne_null (s : Schema) : s.toJson ≠ .null := by
  obtain ⟨name, fields, required, strict⟩ := s
  rw [toJson]
  exact Json.noConfusion

namespace FieldSchema

/-- What is written of a field. -/
def rows (rules : FieldRules) (items : Option FieldSchema) (properties : Option Schema) :
    List (String × Option Json) :=
  rules.rows ++ [("items", items.map toJson), ("properties", properties.map Schema.toJson),
    ("default", rules.default.map Value.toJson)]

variable {rules : FieldRules} {items : Option FieldSchema} {properties : Option Schema}

theorem toJson_eq : (mk rules items properties).toJson =
    .obj (Json.written (rows rules items properties)) := by
  rw [toJson.eq_def]
  dsimp only
  rw [FieldRules.members_eq, rows, Json.written, Json.written, List.flatMap_append]
  cases items <;> cases properties <;> simp [Json.memberIf]

theorem toJson_ne_null (f : FieldSchema) : f.toJson ≠ .null := by
  obtain ⟨rules, items, properties⟩ := f
  rw [toJson_eq]
  exact Json.noConfusion

theorem keys_rows : (rows rules items properties).map Prod.fst = FieldRules.memberNames := rfl

/-- A field is read from what is written of it as its parts are. -/
theorem restores_mk_of {n : Nat} {d : Option Value} {items' : Option FieldSchema}
    {properties' : Option Schema} (hrules : rules.Readable (n + 1))
    (hdefault : Json.Restores (Json.orNull fun j => some (Value.ofJson j)) (n + 1)
      ((rules.default.map Value.toJson).getD .null) d)
    (hitems : Json.Restores (Json.orNull ofJson?) (n + 1) ((items.map toJson).getD .null) items')
    (hproperties : Json.Restores (Json.orNull Schema.ofJson?) (n + 1)
      ((properties.map Schema.toJson).getD .null) properties') :
    Json.Restores ofJson? (n + 2) (mk rules items properties).toJson
      (mk { rules with default := d } items' properties') := by
  have hnodup : FieldRules.memberNames.Nodup := by decide
  have hfind : ∀ {name : String} {o : Option Json}, (name, o) ∈ rows rules items properties →
      Json.Members.find? (Json.written (rows rules items properties)) name = o :=
    fun hmem => Json.find?_written (keys_rows ▸ hnodup) hmem
  have hmem : ∀ e ∈ rules.rows, e ∈ rows rules items properties :=
    fun e he => List.mem_append_left _ he
  rw [toJson_eq]
  refine ⟨Json.legible_obj_iff.mpr ⟨n + 1, rfl, Json.legible_written ?_⟩, ?_⟩
  · intro e he j hj
    rcases List.mem_append.mp he with he | he
    · exact FieldRules.legible_rows hrules e he j hj
    · simp only [List.mem_cons, List.not_mem_nil, or_false] at he
      rcases he with rfl | rfl | rfl
      · exact Json.legible_of_restores hitems j hj
      · exact Json.legible_of_restores hproperties j hj
      · exact Json.legible_of_restores hdefault j hj
  · have hdeclares := Json.declares_of_sublist hnodup
      (keys_rows ▸ Json.keys_written_sublist (rows rules items properties)) FieldRules.memberNames
    have hread := FieldRules.ofMembers?_of_rows hrules (fun e he => hfind (hmem e he))
      (Json.optional_of_find? (hfind (List.mem_append_right _ (by simp))) hdefault)
    have hitems' : itemsOf? (Json.written (rows rules items properties)) = some items' := by
      rw [itemsOf?_eq]
      exact Json.optional_of_find? (hfind (List.mem_append_right _ (by simp))) hitems
    have hproperties' :
        propertiesOf? (Json.written (rows rules items properties)) = some properties' := by
      rw [propertiesOf?_eq]
      exact Json.optional_of_find? (hfind (List.mem_append_right _ (by simp))) hproperties
    rw [ofJson?, hdeclares, hread, hitems', hproperties']
    rfl

theorem restores_mk {n : Nat} (hrules : rules.Restorable (n + 1))
    (hitems : ∀ f, items = some f → Json.Restores ofJson? (n + 1) f.toJson f)
    (hproperties : ∀ s, properties = some s → Json.Restores Schema.ofJson? (n + 1) s.toJson s) :
    Json.Restores ofJson? (n + 2) (mk rules items properties).toJson (mk rules items properties) :=
  restores_mk_of hrules.toReadable (Json.restores_orNull hrules.default)
    (Json.restores_orNull fun f hf => ⟨hitems f hf, f.toJson_ne_null⟩)
    (Json.restores_orNull fun s hs => ⟨hproperties s hs, s.toJson_ne_null⟩)

end FieldSchema

/-- A schema is read from what is written of it as its fields are. -/
theorem Schema.restores_mk_of {name : String} {fields : List (String × FieldSchema)}
    {required : List String} {strict : Bool} {n : Nat} {g : FieldSchema → FieldSchema}
    (hascending : Ascending fields)
    (h : ∀ e ∈ fields, Json.Restores FieldSchema.ofJson? n e.2.toJson (g e.2)) :
    Json.Restores Schema.ofJson? (n + 2) (Schema.mk name fields required strict).toJson
      (Schema.mk name (mapValues g fields) required strict) := by
  have hfields : (Json.obj (fieldMembers fields)).Legible (n + 1) := by
    refine Json.legible_obj_iff.mpr ⟨n, rfl, ?_⟩
    rw [fieldMembers_eq]
    rintro ⟨k, j⟩ he
    obtain ⟨f, hf, rfl⟩ := mem_mapValues.mp he
    exact (h _ hf).toLegible
  have hrequired : Json.Restores (Json.asList Json.asString) (n + 1) (.arr (required.map .str))
      required := Json.restores_arr fun s _ => Json.restores_str s n
  refine ⟨?_, ?_⟩
  · rw [toJson]
    exact (Json.legible_str _ _).cons _ <| hfields.cons _ <| hrequired.toLegible.cons _ <|
      (Json.legible_bool _ _).cons _ <| Json.legible_obj_nil _
  · have hreads : ofJson? (Schema.mk name fields required strict).toJson =
        (namedFields? (fieldMembers fields)).bind fun fs =>
          (Json.asList Json.asString (.arr (required.map .str))).bind fun names =>
            some (Schema.mk name (Keyed.ofList fs) names strict) := rfl
    rw [hreads, namedFields?_fieldMembers fun e he => (h e he).reads, hrequired.reads]
    rw [Option.bind_some, Option.bind_some, ofList_of_ascending (ascending_mapValues.mpr hascending)]

theorem Schema.restores_mk {name : String} {fields : List (String × FieldSchema)}
    {required : List String} {strict : Bool} {n : Nat} (hascending : Ascending fields)
    (h : ∀ e ∈ fields, Json.Restores FieldSchema.ofJson? n e.2.toJson e.2) :
    Json.Restores Schema.ofJson? (n + 2) (Schema.mk name fields required strict).toJson
      (Schema.mk name fields required strict) := by
  have hrestores : Json.Restores Schema.ofJson? (n + 2)
      (Schema.mk name fields required strict).toJson
      (Schema.mk name (mapValues id fields) required strict) := restores_mk_of hascending h
  rwa [show mapValues id fields = fields from List.map_id fields] at hrestores

/-- By induction on how deep a schema may nest. -/
theorem restores_of_ofJson? (limit : Nat) :
    (∀ {j : Json} {f : FieldSchema}, FieldSchema.ofJson? j = some f → j.Legible limit →
      Json.Restores FieldSchema.ofJson? (limit + 1) f.toJson f) ∧
      ∀ {j : Json} {s : Schema}, Schema.ofJson? j = some s → j.Legible limit →
        Json.Restores Schema.ofJson? (limit + 1) s.toJson s := by
  induction limit using Nat.strongRecOn with
  | ind limit ih =>
    constructor
    · intro j f h hj
      obtain ⟨ms, rules, items, properties, rfl, rfl, hrules, hitems, hproperties⟩ :=
        FieldSchema.exists_of_ofJson? h
      obtain ⟨n, rfl, hms⟩ := Json.legible_obj_iff.mp hj
      have hlegible : ∀ e ∈ ms, e.2.Legible (n + 1) :=
        fun e he => (hms e he).mono (Nat.le_succ n)
      refine FieldSchema.restores_mk (FieldRules.restorable_of_members hrules hlegible) ?_ ?_
      · rintro f rfl
        obtain ⟨i, hfind, -, hi⟩ := Json.exists_of_optional hitems
        exact (ih n (Nat.lt_succ_self n)).1 hi (Json.legible_of_find? hms hfind)
      · rintro s rfl
        obtain ⟨i, hfind, -, hi⟩ := Json.exists_of_optional hproperties
        exact (ih n (Nat.lt_succ_self n)).2 hi (Json.legible_of_find? hms hfind)
    · intro j s h hj
      obtain ⟨ms, name, fields, required, strict, rfl, rfl, hfields⟩ :=
        Schema.exists_of_ofJson? h
      obtain ⟨n, rfl, hms⟩ := Json.legible_obj_iff.mp hj
      refine Schema.restores_mk (ascending_ofList _) ?_
      refine forall_mem_foldl_insert
        (P := fun f : FieldSchema => Json.Restores FieldSchema.ofJson? n f.toJson f)
        (fun e he => absurd he List.not_mem_nil) fun e he => ?_
      -- The fields stand in an object of their own, two levels below the schema.
      obtain ⟨fms, k, hfms, hk, hread⟩ := hfields e he
      obtain ⟨m, rfl, hlegible⟩ := Json.legible_obj_iff.mp (hms _ hfms)
      exact (ih m (by omega)).1 hread (hlegible _ hk)

end DocBase
