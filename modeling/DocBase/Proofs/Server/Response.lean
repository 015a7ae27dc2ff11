import DocBase.Proofs.Json.Line
import DocBase.Server.Response

/-! Responses as lines. Whoever decodes such a line has the response again, unless it
nests deeper than the reader goes. -/
namespace DocBase

theorem ErrorKind.ofName?_name (k : ErrorKind) : ofName? k.name = some k := by
  cases k <;> decide

/-- All its numbers can be printed, and the names of its objects are in order. -/
structure Json.Sound (j : Json) : Prop where
  printable : j.Printable
  canonical : j.canonical = j

namespace Response

def Sound : Response → Prop
  | ok value => value.Sound
  | error _ _ => True

theorem ofJson?_toJson {r : Response} (h : r.Sound) : ofJson? r.toJson = some r := by
  cases r with
  | ok value =>
    have hvalue : ofJson? (toJson (ok value)) = some (ok value.canonical) := rfl
    rw [hvalue, h.canonical]
  | error kind message =>
    have hkind : ofJson? (toJson (error kind message)) =
        (ErrorKind.ofName? kind.name).bind fun k => some (error k message) := rfl
    rw [hkind, ErrorKind.ofName?_name]
    rfl

theorem Sound.printable {r : Response} (h : r.Sound) : r.toJson.Printable := by
  cases r with
  | ok value => exact ⟨trivial, Json.Sound.printable h, trivial⟩
  | error kind message => exact ⟨trivial, trivial, trivial, trivial⟩

theorem depth_ok (value : Json) : (ok value).toJson.depth = value.depth + 1 := by
  have hmax : (ok value).toJson.depth = max 0 (max value.depth 0) + 1 := rfl
  omega

theorem newline_notMem_encode (r : Response) : '\n' ∉ r.encode.toList :=
  Json.newline_notMem_render r.toJson

theorem decode_encode {r : Response} (h : r.Sound) : decode r.encode =
    if r.toJson.depth ≤ Json.depthLimit then .ok r else .error .malformedRequest := by
  have htrim : Text.trim r.encode.toList = r.encode.toList := by
    cases r with
    | ok value => exact Json.trim_render_obj _
    | error kind message => exact Json.trim_render_obj _
  rw [decode, htrim, String.ofList_toList, encode, Json.parse_render h.printable]
  by_cases hdepth : r.toJson.depth ≤ Json.depthLimit
  · rw [if_pos hdepth, if_pos hdepth, Option.bind_some, ofJson?_toJson h]
  · rw [if_neg hdepth, if_neg hdepth]
    rfl

end Response
end DocBase
