import DocBase.Keyed
import DocBase.Store.Basic
import DocBase.Text.Split

/-! The files that stores lie in. A path leads through directories to a file, and a file
that no path leads to any more lives on for the stores that have it open. -/
namespace DocBase

/-- Files are numbered in the order in which they are made. -/
abbrev FileId := Nat

/-- Directories and files by the names on the way to them, joined by slashes. -/
structure Disk where
  directories : Keyed String Unit := []
  links : Keyed String FileId := []
  contents : Array Bytes := #[]

/-- Why a path leads nowhere. -/
inductive PathFault
  | missing
  | fileInTheWay
  | directoryInTheWay
  | longName
  | longPath
  | holdsNul
  deriving DecidableEq

namespace PathFault

def message : PathFault → String
  | missing => "no such file or directory"
  | fileInTheWay => "a file is in the way"
  | directoryInTheWay => "a directory is in the way"
  | longName => "a name is too long"
  | longPath => "the path is too long"
  | holdsNul => "the path holds a NUL"

def toStoreError (f : PathFault) : StoreError := .io f.message

end PathFault

namespace Disk

/-- A name has at most 255 bytes. -/
def maxNameLength : Nat := 255

/-- A path has fewer bytes than this. -/
def pathLimit : Nat := 4096

/-- The names on the way, an absolute path being told by an empty one in front. -/
def names (path : String) : List String :=
  let parts := Text.split '/' path.toList
  let named := (parts.filter fun p => p != [] && p != ['.']).map String.ofList
  if path.toList.head? = some '/' then "" :: named else named

def key (way : List String) : String := "/".intercalate way

/-- A disk on which one directory is there from the start. -/
def ofDirectory (path : String) : Disk :=
  let way := names path
  let starts := (List.range way.length).map fun n => key (way.take (n + 1))
  { directories := starts.foldl (·.insert · ()) [] }

/-- Every path starts from a directory that is always there. -/
def isDirectory (d : Disk) (way : List String) : Bool :=
  way == [] || way == [""] || d.directories.contains (key way)

def isFile (d : Disk) (way : List String) : Bool := d.links.contains (key way)

/-- What is wrong with a path before any step on it is taken. -/
def checkPath (path : String) : Except PathFault Unit :=
  if path.toList.contains '\x00' then .error .holdsNul
  else if pathLimit ≤ path.utf8ByteSize then .error .longPath
  else .ok ()

def checkName (name : String) : Except PathFault Unit :=
  if maxNameLength < name.utf8ByteSize then .error .longName else .ok ()

/-- The directory behind names that are followed from another one. -/
def enter (d : Disk) (way : List String) : List String → Except PathFault (List String)
  | [] => .ok way
  | ".." :: rest => enter d way.dropLast rest
  | name :: rest => do
    checkName name
    let way := way ++ [name]
    if d.isFile way then throw .fileInTheWay
    if !d.isDirectory way then throw .missing
    enter d way rest

/-- The way to what the last name of a path stands for, through directories that are there. -/
def locate (d : Disk) (path : String) : Except PathFault (List String) := do
  checkPath path
  let way := names path
  let name := way.getLast?.getD ""
  let directory ← d.enter [] way.dropLast
  checkName name
  return directory ++ [name]

/-- Makes the directories that are missing on the way, one after the other. -/
def makeEach (d : Disk) (way : List String) : List String → Except PathFault Unit × Disk
  | [] => (.ok (), d)
  | ".." :: rest => makeEach d way.dropLast rest
  | name :: rest =>
    match checkName name with
    | .error e => (.error e, d)
    | .ok () =>
      let way := way ++ [name]
      if d.isFile way then (.error .fileInTheWay, d)
      else makeEach { d with directories := d.directories.insert (key way) () } way rest

def makeDirectories (d : Disk) (path : String) : Except PathFault Unit × Disk :=
  match checkPath path with
  | .error e => (.error e, d)
  | .ok () => d.makeEach [] (names path)

/-- Makes an empty file to which a path leads from then on. -/
def create (d : Disk) (way : List String) (bytes : Bytes) : FileId × Disk :=
  let file := d.contents.size
  (file, { d with links := d.links.insert (key way) file, contents := d.contents.push bytes })

/-- The file at a path, which is made when there is none. -/
def openFile (d : Disk) (path : String) : Except PathFault FileId × Disk :=
  match d.locate path with
  | .error e => (.error e, d)
  | .ok way =>
    if d.isDirectory way then (.error .directoryInTheWay, d)
    else match d.links.get? (key way) with
      | some file => (.ok file, d)
      | none =>
        let (file, d) := d.create way .empty
        (.ok file, d)

def read (d : Disk) (file : FileId) : Bytes := d.contents[file]?.getD .empty

def write (d : Disk) (file : FileId) (bytes : Bytes) : Disk :=
  { d with contents := d.contents.setIfInBounds file bytes }

/-- Takes the path away from its file. A file that is not there needs no removal. -/
def remove (d : Disk) (path : String) : Except PathFault Unit × Disk :=
  match d.locate path with
  | .error .missing => (.ok (), d)
  | .error e => (.error e, d)
  | .ok way =>
    if d.isDirectory way then (.error .directoryInTheWay, d)
    else (.ok (), { d with links := d.links.erase (key way) })

/-- Whether a file written at one path can be put in the place of one at another. -/
def canReplace (d : Disk) (path other : String) : Except PathFault Unit := do
  if d.isDirectory (← d.locate path) then throw .directoryInTheWay
  if d.isDirectory (← d.locate other) then throw .directoryInTheWay

/-- Puts a new file in the place of the one at a path. -/
def replace (d : Disk) (path : String) (bytes : Bytes) : FileId × Disk :=
  d.create ((d.locate path).toOption.getD []) bytes

end Disk
end DocBase
