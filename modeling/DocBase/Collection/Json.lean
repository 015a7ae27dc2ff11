import DocBase.Collection.Basic
import DocBase.Json.Decode

/-! Updates and statistics as JSON. -/
namespace DocBase

namespace Update

def toJson : Update → Json
  | replace fields => .obj [("mode", .str "replace"), ("fields", (Value.object fields).toJson)]
  | patch writes removals =>
    .obj [("mode", .str "patch"), ("set", (Value.object writes).toJson),
      ("unset", .arr (removals.map .str))]

def fieldsOfJson? (j : Json) : Option Fields :=
  match Value.ofJson j with
  | .object fields => some fields
  | _ => none

/-- An update that is part of something longer, as `inner` says, may give its mode by its
place among the modes. -/
def read (inner : Bool) (j : Json) : Option Update := do
  let ms ← j.asMembers
  if !ms.declares ["mode"] then none
  match ← ms.required "mode" (Json.asKind ["replace", "patch"] inner) with
  | "replace" =>
    if !ms.declares ["fields"] then none
    return replace (← ms.required "fields" fieldsOfJson?)
  | "patch" =>
    if !ms.declares ["set", "unset"] then none
    return patch (← ms.withDefault "set" [] fieldsOfJson?)
      (← ms.withDefault "unset" [] (Json.asList Json.asString))
  | _ => none

def ofJson? (j : Json) : Option Update := read false j

end Update

def StoreStats.toJson (s : StoreStats) : Json :=
  .obj [("records", .int s.records), ("bytes", .int s.bytes), ("reads", .int s.reads),
    ("writes", .int s.writes), ("deletes", .int s.deletes), ("scans", .int s.scans)]

def CollectionStats.toJson (s : CollectionStats) : Json :=
  .obj [("name", .str s.name), ("documents", .int s.documents), ("indexes", .int s.indexes),
    ("inserts", .int s.counts.inserts), ("updates", .int s.counts.updates),
    ("removes", .int s.counts.removes), ("queries", .int s.counts.queries),
    ("store", s.store.toJson)]

end DocBase
