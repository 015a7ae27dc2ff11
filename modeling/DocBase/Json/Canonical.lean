import DocBase.Json.Reader
import DocBase.Keyed

/-! JSON objects as maps: members ascending by name, the last of a repeated name. -/
namespace DocBase.Json

mutual

def canonical : Json → Json
  | arr items => arr (canonicalItems items)
  | obj members => obj (Keyed.ofList (canonicalMembers members))
  | j => j

def canonicalItems : List Json → List Json
  | [] => []
  | v :: rest => canonical v :: canonicalItems rest

def canonicalMembers : List (String × Json) → List (String × Json)
  | [] => []
  | (k, v) :: rest => (k, canonical v) :: canonicalMembers rest

end

end DocBase.Json
