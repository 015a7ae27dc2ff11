import DocBase.Schema.Check

/-! Changes to stored documents. -/
namespace DocBase

inductive Update
  /-- Puts new fields in the place of all old ones. -/
  | replace (fields : Fields)
  /-- Writes values at dotted paths, in the order of the paths, and then removes others. -/
  | patch (writes : Fields) (removals : List String)

namespace Update

def empty : Update := patch [] []

/-- Adds a value to write; a replacement takes it among its fields. -/
def write (u : Update) (path : String) (v : Value) : Update :=
  match u with
  | replace fields => replace (fields.insert path v)
  | patch writes removals => patch (writes.insert path v) removals

/-- Adds a path to remove; a replacement stays as it is. -/
def removal (u : Update) (path : String) : Update :=
  match u with
  | replace fields => replace fields
  | patch writes removals => patch writes (removals ++ [path])

def checkPath (path : String) : Except ValidationError Unit :=
  if (Path.segments path).any (·.isEmpty) then .error (.constraint path .invalidPath)
  else if Document.isReserved path then .error (.constraint path .assigned)
  else .ok ()

/-- The paths of a patch are in order and none of them is reserved. -/
def check : Update → Except ValidationError Unit
  | replace _ => .ok ()
  | patch writes removals => (writes.keys ++ removals).forM checkPath

def writeAll : List (String × Value) → Document → Except ValidationError Document
  | [], d => .ok d
  | (path, v) :: rest, d =>
    match d.setPath path v with
    | .ok d => writeAll rest d
    | .error e => .error (.constraint path (.conflict e))

/-- A removal of what is not there does nothing. -/
def removeAll (paths : List String) (d : Document) : Document :=
  paths.foldl (fun d path => (d.cutPath path).2) d

def apply (u : Update) (d : Document) : Except ValidationError Document :=
  match u with
  | replace fields => .ok { d with fields }.stripReserved
  | patch writes removals => (writeAll writes d).map (removeAll removals)

end Update
end DocBase
