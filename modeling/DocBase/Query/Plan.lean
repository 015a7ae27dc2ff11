import DocBase.Query.Predicate
import DocBase.Index

/-! Plans: which documents a query looks at, and what becomes of them. Whatever the
way to the documents, the whole predicate is tested on each. -/
namespace DocBase

structure ValueRange where
  lower : Bound Value := .unbounded
  upper : Bound Value := .unbounded

inductive Access
  | fullScan
  /-- The documents whose field equals one of the keys. -/
  | lookup (field : String) (keys : List Value)
  /-- The documents whose field lies in a range; when `ordered`, in the order asked for. -/
  | range (field : String) (bounds : ValueRange) (ordered descending : Bool)

/-- The kinds of the indexes by their fields. -/
abbrev IndexKinds := Keyed String IndexKind

/-- Whether `candidate` admits less than `current`, when `looser` is how a looser end
compares to a tighter one. On equal ends exclusion is tighter. -/
def tighter (looser : Ordering) (current candidate : Bound Value) : Bool :=
  let ends (a b : Value) (excluded : Bool) : Bool :=
    match Value.compare a b with
    | .eq => excluded
    | o => o == looser
  match current, candidate with
  | .unbounded, _ => true
  | _, .unbounded => false
  | .included a, .included b | .excluded a, .included b => ends a b false
  | .included a, .excluded b | .excluded a, .excluded b => ends a b true

namespace ValueRange

def above (r : ValueRange) (b : Bound Value) : ValueRange :=
  if tighter .lt r.lower b then { r with lower := b } else r

def below (r : ValueRange) (b : Bound Value) : ValueRange :=
  if tighter .gt r.upper b then { r with upper := b } else r

/-- The part of the range whose values stand in relation `op` to the literal. -/
def narrow (r : ValueRange) (op : CompareOp) (v : Value) : ValueRange :=
  match op with
  | .gt => r.above (.excluded v)
  | .gte => r.above (.included v)
  | .lt => r.below (.excluded v)
  | .lte => r.below (.included v)
  | .eq | .ne => r

end ValueRange

namespace Predicate

def conjuncts : Predicate → List Predicate
  | all ps => ps
  | p => [p]

/-- Equal neighbours reduced to the first of them. -/
def distinct : List Value → List Value
  | [] => []
  | v :: rest =>
    match distinct rest with
    | [] => [v]
    | w :: more => if v.same w then v :: more else v :: w :: more

/-- The keys to look up for a part that an index answers by equality. -/
def lookup? (kinds : IndexKinds) : Predicate → Option Access
  | field name (.compare .eq v) =>
    if kinds.contains name ∧ v.isIndexable then some (.lookup name [v]) else none
  | field name (.oneOf vs false) =>
    if kinds.contains name ∧ vs.all (·.isIndexable) then
      some (.lookup name (distinct (vs.mergeSort fun a b => Value.compare a b != .gt)))
    else none
  | _ => none

/-- The ranges that the parts leave of the ordered indexes they concern. -/
def ranges (kinds : IndexKinds) (ps : List Predicate) : Keyed String ValueRange :=
  ps.foldl (fun rs p =>
    match p with
    | field name (.compare op v) =>
      if op.isOrdering ∧ kinds.get? name = some .btree then
        rs.insert name (((rs.get? name).getD {}).narrow op v)
      else rs
    | _ => rs) []

/-- An equality that an index answers comes first, then a range that also delivers the
order asked for, then the range of the least field. -/
def chooseAccess (p : Predicate) (sort : List SortKey) (kinds : IndexKinds) : Access :=
  match p.conjuncts.findSome? (lookup? kinds) with
  | some access => access
  | none =>
    let rs := ranges kinds p.conjuncts
    let sorted := match sort with
      | [key] => (rs.get? key.field).map fun r => Access.range key.field r true (key.order == .desc)
      | _ => none
    match sorted, rs with
    | some access, _ => access
    | none, (name, r) :: _ => .range name r false false
    | none, [] => .fullScan

end Predicate

namespace Access

def text : Access → String
  | fullScan => "full scan"
  | lookup field keys => s!"index lookup on '{field}' keys {(Value.array keys).text}"
  | range field r ordered descending =>
    let lower := match r.lower with
      | .included v => "[" ++ v.text
      | .excluded v => "(" ++ v.text
      | .unbounded => "(-inf"
    let upper := match r.upper with
      | .included v => v.text ++ "]"
      | .excluded v => v.text ++ ")"
      | .unbounded => "+inf)"
    let order := if ordered then (if descending then " ordered desc" else " ordered asc") else ""
    s!"index range on '{field}' {lower}, {upper}{order}"

def isOrdered : Access → Bool
  | range _ _ ordered _ => ordered
  | _ => false

end Access

structure Plan where
  collection : String
  predicate : Predicate
  access : Access
  sort : List SortKey
  skip : Nat
  limit : Option Nat
  projection : Option Projection

namespace Plan

def compile (collection : String) (q : Query) (kinds : IndexKinds) : Except QueryFault Plan := do
  let predicate ← match q.filter with
    | some f => Predicate.compile f
    | none => .ok (.const true)
  q.sort.forM fun key => checkField key.field
  ((q.projection.map Projection.fields).getD []).forM checkField
  let access := if predicate.isNever then .fullScan else predicate.chooseAccess q.sort kinds
  return {
    collection, predicate, access
    sort := q.sort
    skip := q.skip
    limit := q.limit
    projection := q.projection }

/-- The matches have to be gathered and sorted before the first comes out. -/
def needsSort (p : Plan) : Bool := !p.sort.isEmpty && !p.access.isOrdered

/-- No document can come out. -/
def isEmpty (p : Plan) : Bool := p.predicate.isNever || p.limit == some 0

def explain (p : Plan) : String :=
  let sort :=
    if p.sort.isEmpty then "by _id"
    else
      let keys := p.sort.map fun k => k.field ++ (if k.order = .asc then " asc" else " desc")
      let mode := if p.needsSort then "in memory" else "from index"
      ", ".intercalate keys ++ s!" ({mode})"
  let limit := match p.limit with
    | some n => toString n
    | none => "none"
  let projection := match p.projection with
    | some (.keeping fs) => "  projection: include [" ++ ", ".intercalate fs ++ "]\n"
    | some (.dropping fs) => "  projection: exclude [" ++ ", ".intercalate fs ++ "]\n"
    | none => ""
  s!"plan for collection '{p.collection}'\n  access: {p.access.text}\n"
    ++ s!"  filter: {p.predicate.text}\n  sort: {sort}\n"
    ++ s!"  skip: {p.skip}, limit: {limit}\n" ++ projection

end Plan
end DocBase
