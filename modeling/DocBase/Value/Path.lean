import DocBase.Value.Order
import DocBase.Text.Split

/-! Dotted paths into values. A segment names a field of an object or, as a
number, an element of an array. -/
namespace DocBase

namespace Path

/-- The segments between the dots; a path without dots is one segment. -/
def segments (path : String) : List String := (Text.split '.' path.toList).map String.ofList

def join (parts : List String) : String := ".".intercalate parts

/-- Digits after an optional plus sign, within 64 bits. -/
def arrayIndex (segment : String) : Option Nat :=
  let ds := match segment.toList with
    | '+' :: r => r
    | r => r
  if ds.isEmpty ∨ !ds.all Char.isDigit then none
  else
    let n := Json.natOfDigits ds
    if n < UInt64.size then some n else none

end Path

namespace Value

def at? : Value → List String → Option Value
  | v, [] => some v
  | object fs, s :: rest =>
    match Keyed.get? s fs with
    | some v => v.at? rest
    | none => none
  | array xs, s :: rest =>
    match (Path.arrayIndex s).bind (xs[·]?) with
    | some v => v.at? rest
    | none => none
  | _, _ :: _ => none
termination_by structural _ path => path

def get? (v : Value) (path : String) : Option Value := v.at? (Path.segments path)

end Value
end DocBase
