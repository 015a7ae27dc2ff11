import DocBase.Schema.Basic

/-! When two schemas are the same. -/
namespace DocBase

namespace FieldRules

/-- Limits compare as numbers do, so that a NaN differs from itself. -/
def sameLimit : Option Binary64 → Option Binary64 → Bool
  | none, none => true
  | some x, some y => !x.isNaN && x.rank == y.rank
  | _, _ => false

def same (r s : FieldRules) : Bool :=
  r.types == s.types && r.nullable == s.nullable && sameLimit r.min s.min && sameLimit r.max s.max
    && r.minLength == s.minLength && r.maxLength == s.maxLength
    && r.pattern.map (·.source) == s.pattern.map (·.source)
    && (match r.enumValues, s.enumValues with
      | none, none => true
      | some vs, some ws => Value.compareItems vs ws == .eq
      | _, _ => false)
    && match r.default, s.default with
      | none, none => true
      | some v, some w => v.same w
      | _, _ => false

end FieldRules

mutual

/-- Equality up to the equality of the values in them. -/
def FieldSchema.same : FieldSchema → FieldSchema → Bool
  | .mk r i p, .mk r' i' p' =>
    r.same r'
      && (match i, i' with
        | none, none => true
        | some s, some t => s.same t
        | _, _ => false)
      && match p, p' with
        | none, none => true
        | some s, some t => s.same t
        | _, _ => false

def Schema.same : Schema → Schema → Bool
  | .mk n fs r s, .mk n' fs' r' s' => n == n' && sameFields fs fs' && r == r' && s == s'

def sameFields : List (String × FieldSchema) → List (String × FieldSchema) → Bool
  | [], [] => true
  | (k, f) :: rest, (l, g) :: rest' => k == l && f.same g && sameFields rest rest'
  | _, _ => false

end

end DocBase
