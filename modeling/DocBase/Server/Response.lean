import DocBase.Json.Decode
import DocBase.Server.Error
import DocBase.Text.Trim

/-! Responses, and their form as one line of JSON. -/
namespace DocBase

inductive Response
  | ok (value : Json)
  | error (kind : ErrorKind) (message : String)

namespace Response

def ofResult {ε : Type} [Failure ε] : Except ε Json → Response
  | .ok value => ok value
  | .error e => error (Failure.kind e) (Failure.message e)

def toJson : Response → Json
  | ok value => .obj [("status", .str "ok"), ("value", value)]
  | error kind message =>
    .obj [("status", .str "error"), ("kind", .str kind.name), ("message", .str message)]

def ofJson? (j : Json) : Option Response := do
  let ms ← j.asMembers
  if !ms.declares ["status"] then none
  match ← ms.required "status" Json.asString with
  | "ok" =>
    if !ms.declares ["value"] then none
    return ok (← ms.required "value" fun j => some j.canonical)
  | "error" =>
    if !ms.declares ["kind", "message"] then none
    let kind (j : Json) : Option ErrorKind := j.asString.bind ErrorKind.ofName?
    return error (← ms.required "kind" kind) (← ms.required "message" Json.asString)
  | _ => none

/-- Without a line break in it. -/
def encode (r : Response) : String := r.toJson.render

def decode (line : String) : Except ServerError Response :=
  match (Json.parse (String.ofList (Text.trim line.toList))).bind ofJson? with
  | some r => .ok r
  | none => .error .malformedRequest

end Response
end DocBase
