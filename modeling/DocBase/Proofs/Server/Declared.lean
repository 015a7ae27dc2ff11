import DocBase.Proofs.Schema.ReadBack
import DocBase.Proofs.Server.Restored

/-! Schemas that clients declare. A schema travels to the server as JSON in a line, and the one that
arrives is the one that was put together, but for defaults of null, which it has no longer. -/
namespace DocBase

namespace Request

/-- What a client sends to have a collection under a schema. -/
def declaration (database collection : String) (s : Schema) : Request :=
  { database, operation := .on collection (.declare (some s)) }

variable {database collection : String} {s t : Schema} {j : Json}

/-- The members of a declaration, with the schema as it was written. -/
def declarationMembers (database collection : String) (j : Json) : Json.Members :=
  [("op", .str "collection"), ("database", .str database), ("collection", .str collection),
    ("schema", j)]

theorem toJson_declaration : (declaration database collection s).toJson =
    .obj (declarationMembers database collection s.toJson) := rfl

theorem ofJson?_declaration : ofJson? (.obj (declarationMembers database collection j)) =
    ((Json.orNull Schema.ofJson? j).map .declare).bind fun operation =>
      some { database, operation := .on collection operation } := rfl

/-- A declaration is read as its schema is. -/
theorem restores_declaration {n : Nat} (h : Json.Restores Schema.ofJson? n s.toJson t) :
    Json.Restores ofJson? (n + 1) (declaration database collection s).toJson
      (declaration database collection t) := by
  rw [toJson_declaration]
  refine ⟨?_, ?_⟩
  · exact (Json.legible_str _ _).cons _ <| (Json.legible_str _ _).cons _ <|
      (Json.legible_str _ _).cons _ <| h.toLegible.cons _ <| Json.legible_obj_nil _
  · rw [ofJson?_declaration, Json.orNull_of_ne_null s.toJson_ne_null, h.reads]
    rfl

end Request

namespace Schema
variable {s : Schema}

/-- A schema that was put together of finite numbers is read back from its JSON form as it was,
but for defaults of null, which are lost at every level. It is the same schema exactly if it has
none; the documents that conform are the same in any case. This is also what a server gets that the
schema is declared to, so long as the line does not nest deeper than the reader goes. -/
theorem read_back_without_nulls (hs : s.Built) (hfinite : s.Each FieldRules.Finite) :
    ofJson? s.toJson = some (s.mapRules FieldRules.withoutNull) ∧
      (s.mapRules FieldRules.withoutNull = s ↔ s.Each fun r => r.default ≠ some .null) ∧
      ((s.mapRules FieldRules.withoutNull).same s ↔ s.Each fun r => r.default ≠ some .null) ∧
      (∀ d, (s.mapRules FieldRules.withoutNull).report d = s.report d) ∧
      ((Json.parse s.toJson.render).bind ofJson? =
        if s.toJson.depth ≤ Json.depthLimit then some (s.mapRules FieldRules.withoutNull)
          else none) ∧
      ∀ database collection, Request.decode (Request.declaration database collection s).encode =
        if s.toJson.depth < Json.depthLimit then
          some (Request.declaration database collection (s.mapRules FieldRules.withoutNull))
        else none := by
  obtain ⟨hordered, hsound⟩ := hs.sound
  obtain ⟨n, hrestores⟩ := s.exists_restores hordered hsound hfinite
  refine ⟨hrestores.reads, ?_, ?_, ?_, ?_, ?_⟩
  · rw [s.mapRules_eq_self_iff]
    simp only [FieldRules.withoutNull_eq_self_iff]
  · rw [s.same_mapRules_iff]
    exact s.each_congr (fun r => FieldRules.same_withoutNull_iff) hfinite
  · intro d
    rw [report, report, s.checkFields_mapRules FieldRules.screen_withoutNull]
  · rw [Json.parse_render hrestores.printable]
    split
    · exact hrestores.reads
    · rfl
  · intro database collection
    have hdeclared : Json.Restores Request.ofJson? (n + 1)
        (Request.declaration database collection s).toJson
        (Request.declaration database collection (s.mapRules FieldRules.withoutNull)) :=
      Request.restores_declaration hrestores
    have hdepth : (Request.declaration database collection s).toJson.depth =
        s.toJson.depth + 1 := by
      simp [Request.toJson_declaration, Request.declarationMembers, Json.depth, Json.depthMembers]
    rw [Request.decode_encode hdeclared.printable, hdepth, hdeclared.reads]
    rfl

/-- The null is two levels down. -/
theorem read_back_without_nulls_within :
    let s := (named "s").field "a" (.objectOf ((named "t").field "b"
      (((FieldSchema.ofType .float).min ⟨0x3ff0000000000000⟩).nullable.default .null)))
    ∃ t, ofJson? s.toJson = some t ∧ t ≠ s ∧ ¬ t.same s ∧
      Request.decode (Request.declaration "app" "c" s).encode =
        some (Request.declaration "app" "c" t) := by
  intro s
  have hs : s.Built :=
    .field (.named "s") "a" (.objectOf (.field (.named "t") "b"
      (.default (.nullable (.min (.ofType .float) _)) trivial)))
  have hfinite : s.Each FieldRules.Finite := by
    refine ⟨⟨⟨nofun, nofun, nofun, nofun⟩, trivial, ⟨⟨?_, nofun, nofun, ?_⟩, trivial, trivial⟩,
      trivial⟩, trivial⟩
    · rintro x ⟨⟩
      decide
    · rintro v ⟨⟩
      rfl
  have hnull : ¬ s.Each fun r => r.default ≠ some .null :=
    fun h => h.1.2.2.1.1 rfl
  obtain ⟨hread, heq, hsame, -, -, hdeclared⟩ := read_back_without_nulls hs hfinite
  refine ⟨_, hread, mt heq.mp hnull, mt hsame.mp hnull, ?_⟩
  rw [hdeclared, if_pos (by decide)]

end Schema
end DocBase
