import DocBase.Schema.Basic
import DocBase.Json.Decode

/-! Schemas as JSON. Absent members take their defaults both ways. -/
namespace DocBase

def FieldType.ofJson? (j : Json) : Option FieldType := j.asString.bind ofName?

namespace FieldRules

def members (r : FieldRules) : Json.Members :=
  [("types", .arr (r.types.map fun t => .str t.name)), ("nullable", .bool r.nullable)]
  ++ Json.memberIf "min" (r.min.map (Value.float · |>.toJson))
  ++ Json.memberIf "max" (r.max.map (Value.float · |>.toJson))
  ++ Json.memberIf "min_length" (r.minLength.map fun n => .int n)
  ++ Json.memberIf "max_length" (r.maxLength.map fun n => .int n)
  ++ Json.memberIf "pattern" (r.pattern.map fun p => .str p.source)
  ++ Json.memberIf "enum_values" (r.enumValues.map fun vs => .arr (Value.toJsonItems vs))

def memberNames : List String :=
  ["types", "nullable", "min", "max", "min_length", "max_length", "pattern", "enum_values", "items",
   "properties", "default"]

def ofMembers? (ms : Json.Members) : Option FieldRules := do
  return {
    types := ← ms.withDefault "types" [] (Json.asList FieldType.ofJson?)
    nullable := ← ms.withDefault "nullable" false Json.asBool
    min := ← ms.optional "min" Json.asBinary64
    max := ← ms.optional "max" Json.asBinary64
    minLength := ← ms.optional "min_length" Json.asCount
    maxLength := ← ms.optional "max_length" Json.asCount
    pattern := ← ms.optional "pattern" fun j => j.asString.map Pattern.ofSource
    enumValues := ← ms.optional "enum_values" (Json.asList fun j => some (Value.ofJson j))
    default := ← ms.optional "default" fun j => some (Value.ofJson j) }

end FieldRules

mutual

def FieldSchema.toJson : FieldSchema → Json
  | .mk rules items properties =>
    .obj (rules.members
      ++ (match items with
        | some s => [("items", s.toJson)]
        | none => [])
      ++ (match properties with
        | some s => [("properties", s.toJson)]
        | none => [])
      ++ Json.memberIf "default" (rules.default.map Value.toJson))

def Schema.toJson : Schema → Json
  | .mk name fields required strict =>
    .obj [("name", .str name), ("fields", .obj (fieldMembers fields)),
      ("required", .arr (required.map .str)), ("strict", .bool strict)]

def fieldMembers : List (String × FieldSchema) → List (String × Json)
  | [] => []
  | (k, f) :: rest => (k, f.toJson) :: fieldMembers rest

end

def Schema.memberNames : List String := ["name", "fields", "required", "strict"]

mutual

def FieldSchema.ofJson? : Json → Option FieldSchema
  | .obj ms => do
    if !Json.Members.declares ms FieldRules.memberNames then none
    let rules ← FieldRules.ofMembers? ms
    let items ← itemsOf? ms
    let properties ← propertiesOf? ms
    return .mk rules items properties
  | _ => none

def Schema.ofJson? : Json → Option Schema
  | .obj ms => do
    if !Json.Members.declares ms Schema.memberNames then none
    let name ← Json.Members.withDefault ms "name" "" Json.asString
    let fields ← fieldsOf? ms
    let required ← Json.Members.withDefault ms "required" [] (Json.asList Json.asString)
    let strict ← Json.Members.withDefault ms "strict" false Json.asBool
    return .mk name (Keyed.ofList fields) required strict
  | _ => none

/-- The element schema among the members of a field schema. -/
def itemsOf? : List (String × Json) → Option (Option FieldSchema)
  | [] => some none
  | (k, v) :: rest =>
    if k = "items" then
      match v with
      | .null => some none
      | v => (FieldSchema.ofJson? v).map some
    else itemsOf? rest

def propertiesOf? : List (String × Json) → Option (Option Schema)
  | [] => some none
  | (k, v) :: rest =>
    if k = "properties" then
      match v with
      | .null => some none
      | v => (Schema.ofJson? v).map some
    else propertiesOf? rest

/-- The declared fields among the members of a schema. -/
def fieldsOf? : List (String × Json) → Option (List (String × FieldSchema))
  | [] => some []
  | (k, v) :: rest =>
    if k = "fields" then
      match v with
      | .obj ms => namedFields? ms
      | _ => none
    else fieldsOf? rest

def namedFields? : List (String × Json) → Option (List (String × FieldSchema))
  | [] => some []
  | (k, v) :: rest => do
    let f ← FieldSchema.ofJson? v
    let fs ← namedFields? rest
    return (k, f) :: fs

end

end DocBase
