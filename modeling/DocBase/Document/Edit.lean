import DocBase.Document.Basic

/-! Writing and removing at dotted paths. -/
namespace DocBase

inductive PathError
  | notContainer (path : String) (place : String) (found : String)
  | invalidIndex (path : String) (place : String)
  deriving DecidableEq

def PathError.message : PathError → String
  | notContainer path place found => s!"path '{path}' crosses a {found} value at '{place}'"
  | invalidIndex path place => s!"path '{path}' has no valid array index at '{place}'"

namespace Value

/-- Puts `new` at the end of a path, in place: a missing object on the way is made, and the index
after the last element appends, before the rest of the path is looked at. `seen` holds the
segments already walked. -/
def write (path : String) (new : Value) :
    List String → List String → Value → Except PathError Unit × Value
  | [], _, _ => (.ok (), new)
  | s :: rest, seen, object fs =>
    let (outcome, child) := write path new rest (seen ++ [s]) ((Keyed.get? s fs).getD (object []))
    (outcome, object (Keyed.insert s child fs))
  | s :: rest, seen, array xs =>
    match (Path.arrayIndex s).filter (· ≤ xs.length) with
    | none => (.error (.invalidIndex path (Path.join seen)), array xs)
    | some i =>
      let slots := if i = xs.length then xs ++ [object []] else xs
      let (outcome, child) := write path new rest (seen ++ [s]) (slots[i]?.getD (object []))
      (outcome, array (slots.set i child))
  | _ :: _, seen, v => (.error (.notContainer path (Path.join seen) v.typeName), v)

/-- The element that a segment names, and its index. -/
def element? (s : String) (xs : List Value) : Option (Nat × Value) := do
  let i ← Path.arrayIndex s
  let v ← xs[i]?
  return (i, v)

/-- Takes out, in place, the part that `leaf` names of what the segments before it lead to. -/
def cut (leaf : String) : List String → Value → Option Value × Value
  | [], object fs => (Keyed.get? leaf fs, object (Keyed.erase leaf fs))
  | [], array xs =>
    match element? leaf xs with
    | some (i, v) => (some v, array (xs.eraseIdx i))
    | none => (none, array xs)
  | s :: parents, object fs =>
    match Keyed.get? s fs with
    | some child =>
      let (removed, child) := cut leaf parents child
      (removed, object (Keyed.insert s child fs))
    | none => (none, object fs)
  | s :: parents, array xs =>
    match element? s xs with
    | some (i, child) =>
      let (removed, child) := cut leaf parents child
      (removed, array (xs.set i child))
    | none => (none, array xs)
  | _, v => (none, v)

mutual

def nonFinitePath (path : String) : Value → Option String
  | float x => if x.isFinite then none else some path
  | array items => nonFiniteItems path 0 items
  | object fields => nonFiniteFields path fields
  | _ => none

def nonFiniteItems (path : String) (i : Nat) : List Value → Option String
  | [] => none
  | v :: rest => (nonFinitePath s!"{path}[{i}]" v).or (nonFiniteItems path (i + 1) rest)

def nonFiniteFields (path : String) : List (String × Value) → Option String
  | [] => none
  | (k, v) :: rest => (nonFinitePath s!"{path}.{k}" v).or (nonFiniteFields path rest)

end

end Value

namespace Document

/-- The fields that an edit of the fields as one object leaves. -/
def withFields (d : Document) : Value → Document
  | .object fs => { d with fields := fs }
  | _ => d

/-- Writes at a dotted path, in place. -/
def writePath (path : String) (v : Value) (d : Document) : Except PathError Unit × Document :=
  let (outcome, fields) := Value.write path v (Path.segments path) [] (.object d.fields)
  (outcome, d.withFields fields)

/-- The document after a write; of one that is refused nothing is kept. -/
def setPath (d : Document) (path : String) (v : Value) : Except PathError Document :=
  match d.writePath path v with
  | (.ok (), after) => .ok after
  | (.error e, _) => .error e

/-- Removes at a dotted path, in place. -/
def cutPath (path : String) (d : Document) : Option Value × Document :=
  let segments := Path.segments path
  match segments.getLast? with
  | some leaf =>
    let (removed, fields) := Value.cut leaf segments.dropLast (.object d.fields)
    (removed, d.withFields fields)
  | none => (none, d)

/-- The value at a path and the document without it. -/
def removePath (d : Document) (path : String) : Option (Value × Document) :=
  match d.cutPath path with
  | (some v, after) => some (v, after)
  | (none, _) => none

/-- Where the first number stands that is not finite, and so has no JSON form. -/
def nonFinitePath (d : Document) : Option String :=
  d.fields.findSome? fun (k, v) => v.nonFinitePath k

end Document
end DocBase
