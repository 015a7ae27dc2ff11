import DocBase.Document.Edit

/-! Queries as callers write them: a filter, sort keys, a projection and a page. -/
namespace DocBase

inductive CompareOp
  | eq | ne | gt | gte | lt | lte
  deriving DecidableEq, Repr

namespace CompareOp

def symbol : CompareOp → String
  | eq => "="
  | ne => "!="
  | gt => ">"
  | gte => ">="
  | lt => "<"
  | lte => "<="

def isOrdering : CompareOp → Bool
  | eq | ne => false
  | _ => true

end CompareOp

/-- What a filter asks of one field. -/
inductive Condition
  | compare (op : CompareOp) (v : Value)
  | oneOf (v : Value)
  | noneOf (v : Value)
  | present (wanted : Bool)
  | regex (pattern : String)
  | contains (v : Value)
  | startsWith (s : String)
  | endsWith (s : String)

inductive Filter
  | field (name : String) (c : Condition)
  | all (filters : List Filter)
  | any (filters : List Filter)
  | not (f : Filter)
  deriving Inhabited

inductive SortOrder
  | asc
  | desc
  deriving DecidableEq, Repr

structure SortKey where
  field : String
  order : SortOrder := .asc
  deriving DecidableEq

inductive Projection
  | keeping (fields : List String)
  | dropping (fields : List String)
  deriving DecidableEq

structure Query where
  filter : Option Filter := none
  sort : List SortKey := []
  projection : Option Projection := none
  skip : Nat := 0
  limit : Option Nat := none

namespace Query

/-- Filters that are added one after another all have to hold. -/
def withFilter (q : Query) (f : Filter) : Query :=
  { q with filter := some <| match q.filter with
      | none => f
      | some (.all fs) => .all (fs ++ [f])
      | some g => .all [g, f] }

def withSort (q : Query) (field : String) (order : SortOrder) : Query :=
  { q with sort := q.sort ++ [{ field, order }] }

def withSkip (q : Query) (n : Nat) : Query := { q with skip := n }
def withLimit (q : Query) (n : Nat) : Query := { q with limit := some n }
def withProjection (q : Query) (p : Projection) : Query := { q with projection := some p }

end Query

namespace Projection

def fields : Projection → List String
  | keeping fs => fs
  | dropping fs => fs

/-- A path that the document does not have is passed over. -/
def keep (d : Document) (out : Document) (path : String) : Document :=
  if path = Document.idField then out
  else if path = Document.createdField then { out with createdAt := d.createdAt }
  else if path = Document.updatedField then { out with updatedAt := d.updatedAt }
  else match d.get? path with
    | some v => (out.writePath path v).2
    | none => out

def drop (out : Document) (path : String) : Document :=
  if path = Document.idField then out
  else if path = Document.createdField then { out with createdAt := none }
  else if path = Document.updatedField then { out with updatedAt := none }
  else (out.cutPath path).2

/-- The identifier always stays. -/
def apply (p : Projection) (d : Document) : Document :=
  match p with
  | keeping fs => fs.foldl (keep d) { id := d.id }
  | dropping fs => fs.foldl drop d

end Projection

/-- Missing fields come first. -/
def compareFound : Option Value → Option Value → Ordering
  | none, none => .eq
  | none, some _ => .lt
  | some _, none => .gt
  | some a, some b => Value.compare a b

def SortKey.compare (k : SortKey) (a b : Document) : Ordering :=
  let o := compareFound (a.lookup k.field) (b.lookup k.field)
  match k.order with
  | .asc => o
  | .desc => o.swap

def compareIds : Option String → Option String → Ordering
  | none, none => .eq
  | none, some _ => .lt
  | some _, none => .gt
  | some a, some b => compare a b

/-- By the keys one after another, and by identifier where they leave a tie. -/
def compareDocuments : List SortKey → Document → Document → Ordering
  | [], a, b => compareIds a.id b.id
  | k :: rest, a, b => (k.compare a b).then (compareDocuments rest a b)

def sortDocuments (keys : List SortKey) (docs : List Document) : List Document :=
  docs.mergeSort fun a b => compareDocuments keys a b != .gt

end DocBase
