import DocBase.Document.Edit
import DocBase.Store.Basic

/-! Documents as JSON, and as the records that stores keep. -/
namespace DocBase

inductive CodecError
  | notObject
  | invalidId (text : String)
  | invalidJson
  deriving DecidableEq

def CodecError.message : CodecError → String
  | notObject => "document must be a JSON object"
  | invalidId text => s!"invalid document identifier: {text}"
  | invalidJson => "invalid JSON: malformed text"

namespace Document

/-- A 64-bit whole number; any other JSON leaves the clock reading out. -/
def clockOfJson : Json → Option Int64
  | .int n =>
    if Int64.minValue.toInt ≤ n ∧ n ≤ Int64.maxValue.toInt then some (Int64.ofInt n) else none
  | _ => none

def idOfJson : Json → Except CodecError (Option String)
  | .str s => .ok (some s)
  | .int n => .ok (some (toString n))
  | .null => .ok none
  | j => .error (.invalidId j.canonical.render)

/-- Reserved names other than the assigned ones are dropped. -/
def ofJson : Json → Except CodecError Document
  | .obj members => do
    let ms : Keyed String Json := Keyed.ofList members
    let id ← match ms.get? idField with
      | some j => idOfJson j
      | none => .ok none
    return {
      id
      createdAt := (ms.get? createdField).bind clockOfJson
      updatedAt := (ms.get? updatedField).bind clockOfJson
      fields := Value.ofJsonMembers (ms.filter fun (k, _) => !isReserved k) }
  | _ => .error .notObject

/-- Fields are written after the assigned ones and win over them. -/
def members (d : Document) : Keyed String Json :=
  let assigned := ((d.id.map fun s => (idField, Json.str s)).toList
    ++ (d.createdAt.map fun t => (createdField, Json.int t.toInt)).toList
    ++ (d.updatedAt.map fun t => (updatedField, Json.int t.toInt)).toList)
  Keyed.ofList (assigned ++ Value.toJsonMembers d.fields)

def toJson (d : Document) : Json := .obj d.members

def encode (d : Document) : Bytes := d.toJson.render.toUTF8

def decode (record : Bytes) : Except CodecError Document :=
  match (String.fromUTF8? record).bind Json.parse with
  | some j => ofJson j
  | none => .error .invalidJson

end Document
end DocBase
