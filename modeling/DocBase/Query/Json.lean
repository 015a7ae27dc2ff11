import DocBase.Query.Filter
import DocBase.Json.Decode

/-! Queries as JSON. -/
namespace DocBase

namespace CompareOp

def name : CompareOp → String
  | eq => "eq"
  | ne => "ne"
  | gt => "gt"
  | gte => "gte"
  | lt => "lt"
  | lte => "lte"

def all : List CompareOp := [eq, ne, gt, gte, lt, lte]

end CompareOp

namespace Condition

def opName : Condition → String
  | compare op _ => op.name
  | oneOf _ => "in"
  | noneOf _ => "nin"
  | present _ => "exists"
  | regex _ => "regex"
  | contains _ => "contains"
  | startsWith _ => "starts_with"
  | endsWith _ => "ends_with"

def operand : Condition → String × Json
  | compare _ v | oneOf v | noneOf v | contains v => ("value", v.toJson)
  | present b => ("exists", .bool b)
  | regex p => ("pattern", .str p)
  | startsWith s | endsWith s => ("value", .str s)

def ofMembers? (ms : Json.Members) (op : String) : Option Condition :=
  let value := ms.required "value" fun j => some (Value.ofJson j)
  let text := ms.required "value" Json.asString
  match op with
  | "in" => value.map oneOf
  | "nin" => value.map noneOf
  | "exists" => (ms.required "exists" Json.asBool).map present
  | "regex" => (ms.required "pattern" Json.asString).map regex
  | "contains" => value.map contains
  | "starts_with" => text.map startsWith
  | "ends_with" => text.map endsWith
  | op => (CompareOp.all.find? (·.name == op)).bind fun op => value.map (compare op)

end Condition

namespace Filter

mutual

def toJson : Filter → Json
  | field name c => .obj [("op", .str c.opName), ("field", .str name), c.operand]
  | all fs => .obj [("op", .str "and"), ("filters", .arr (toJsonList fs))]
  | any fs => .obj [("op", .str "or"), ("filters", .arr (toJsonList fs))]
  | not f => .obj [("op", .str "not"), ("filter", f.toJson)]

def toJsonList : List Filter → List Json
  | [] => []
  | f :: rest => f.toJson :: toJsonList rest

end

def opNames : List String :=
  CompareOp.all.map (·.name) ++ ["in", "nin", "exists", "regex", "contains", "starts_with",
    "ends_with", "and", "or", "not"]

/-- The declared members of each kind of filter. -/
def memberNames (op : String) : List String :=
  match op with
  | "and" | "or" => ["op", "filters"]
  | "not" => ["op", "filter"]
  | "exists" => ["op", "field", "exists"]
  | "regex" => ["op", "field", "pattern"]
  | _ => ["op", "field", "value"]

mutual

/-- A filter that is part of something longer, as `inner` says, may give its operator by
its place among the operators. -/
def read (inner : Bool) : Json → Option Filter
  | .obj ms => do
    let op ← Json.Members.required ms "op" (Json.asKind opNames inner)
    if !Json.Members.declares ms (memberNames op) then none
    match op with
    | "and" => return all (← filtersOf? ms)
    | "or" => return any (← filtersOf? ms)
    | "not" => return not (← filterOf? ms)
    | op =>
      let name ← Json.Members.required ms "field" Json.asString
      return field name (← Condition.ofMembers? ms op)
  | _ => none

/-- The list of filters among the members of a conjunction or disjunction. -/
def filtersOf? : List (String × Json) → Option (List Filter)
  | [] => none
  | (k, v) :: rest =>
    if k = "filters" then
      match v with
      | .arr items => readList items
      | _ => none
    else filtersOf? rest

def filterOf? : List (String × Json) → Option Filter
  | [] => none
  | (k, v) :: rest => if k = "filter" then read true v else filterOf? rest

def readList : List Json → Option (List Filter)
  | [] => some []
  | j :: rest => do
    let f ← read true j
    let fs ← readList rest
    return f :: fs

end

def ofJson? (j : Json) : Option Filter := read false j

end Filter

def SortOrder.name : SortOrder → String
  | asc => "asc"
  | desc => "desc"

def SortOrder.ofJson? : Json → Option SortOrder
  | .str "asc" => some .asc
  | .str "desc" => some .desc
  | _ => none

def SortKey.toJson (k : SortKey) : Json :=
  .obj [("field", .str k.field), ("order", .str k.order.name)]

def SortKey.ofJson? (j : Json) : Option SortKey := do
  let ms ← j.asMembers
  if !ms.declares ["field", "order"] then none
  return {
    field := ← ms.required "field" Json.asString
    order := ← ms.withDefault "order" .asc SortOrder.ofJson? }

namespace Projection

def modeName : Projection → String
  | keeping _ => "include"
  | dropping _ => "exclude"

def toJson (p : Projection) : Json :=
  .obj [("mode", .str p.modeName), ("fields", .arr (p.fields.map .str))]

def ofJson? (j : Json) : Option Projection := do
  let ms ← j.asMembers
  if !ms.declares ["mode", "fields"] then none
  let fields ← ms.required "fields" (Json.asList Json.asString)
  match ← ms.required "mode" Json.asString with
  | "include" => return keeping fields
  | "exclude" => return dropping fields
  | _ => none

end Projection

namespace Query

def toJson (q : Query) : Json :=
  .obj [("filter", (q.filter.map Filter.toJson).getD .null),
    ("sort", .arr (q.sort.map SortKey.toJson)),
    ("projection", (q.projection.map Projection.toJson).getD .null),
    ("skip", .int q.skip),
    ("limit", (q.limit.map fun n => Json.int n).getD .null)]

/-- A query; `inner` says that it is part of something longer. -/
def read (inner : Bool) (j : Json) : Option Query := do
  let ms ← j.asMembers
  if !ms.declares ["filter", "sort", "projection", "skip", "limit"] then none
  return {
    filter := ← ms.optional "filter" (Filter.read inner)
    sort := ← ms.withDefault "sort" [] (Json.asList SortKey.ofJson?)
    projection := ← ms.optional "projection" Projection.ofJson?
    skip := ← ms.withDefault "skip" 0 Json.asCount
    limit := ← ms.optional "limit" Json.asCount }

def ofJson? (j : Json) : Option Query := read false j

end Query
end DocBase
