import DocBase.Document.Basic
import DocBase.Bound
import DocBase.Text.Quoted

/-! Indexes over the values of one field. Arrays and objects are not indexed, and
neither are documents without the field. -/
namespace DocBase

inductive IndexKind
  | hash
  | btree
  deriving DecidableEq, Repr

def IndexKind.name : IndexKind → String
  | hash => "hash"
  | btree => "btree"

def IndexKind.ofName? (s : String) : Option IndexKind := [hash, btree].find? (·.name == s)

def Value.isIndexable : Value → Bool
  | array _ | object _ => false
  | _ => true

/-- Identifiers in ascending order. -/
abbrev IdSet := Keyed String Unit

structure Index where
  field : String
  kind : IndexKind
  /-- The identifiers under each value. -/
  entries : Keyed Value IdSet := []
  /-- The value of each identifier. -/
  keyOf : Keyed String Value := []

namespace Index

def remove (ix : Index) (id : String) : Index :=
  match ix.keyOf.get? id with
  | none => ix
  | some key =>
    let ids := ((ix.entries.get? key).getD []).erase id
    { ix with
      entries := if ids.isEmpty then ix.entries.erase key else ix.entries.insert key ids
      keyOf := ix.keyOf.erase id }

/-- The value that a document is indexed under. -/
def key? (ix : Index) (d : Document) : Option Value := (d.lookup ix.field).filter (·.isIndexable)

/-- Takes the place of what the identifier had before. -/
def add (ix : Index) (id : String) (d : Document) : Index :=
  let ix := ix.remove id
  match ix.key? d with
  | none => ix
  | some key =>
    { ix with
      entries := ix.entries.insert key (((ix.entries.get? key).getD []).insert id ())
      keyOf := ix.keyOf.insert id key }

def clear (ix : Index) : Index := { ix with entries := [], keyOf := [] }

/-- The identifiers under any of the values, ascending and each once. -/
def findEq (ix : Index) (keys : List Value) : List String :=
  (keys.foldl (fun (ids : IdSet) key =>
    ((ix.entries.get? key).getD []).foldl (fun ids (id, _) => ids.insert id ()) ids) []).keys

/-- The identifiers of the values within the bounds, by value and then by identifier;
only ordered indexes have an answer. Bounds that cross are not searched between. -/
def findRange (ix : Index) (lower upper : Bound Value) (descending : Bool) : Option (List String) :=
  match ix.kind with
  | .hash => none
  | .btree =>
    if lower.crossed upper then some []
    else (ix.entries.range? lower upper).map fun within =>
      (if descending then within.reverse else within).flatMap fun (_, ids) => ids.keys

def keyCount (ix : Index) : Nat := ix.entries.length

def size (ix : Index) : Nat := ix.keyOf.length

/-- Only ordered indexes answer ranges. -/
def answersRanges (ix : Index) : Bool := ix.kind == .btree

def text (ix : Index) : String :=
  let kind := match ix.kind with
    | .hash => "Hash"
    | .btree => "BTree"
  "DocumentIndex \x7b field: " ++ Text.quoted ix.field ++ ", index_type: " ++ kind
    ++ ", len: " ++ toString ix.size ++ " \x7d"

end Index
end DocBase
