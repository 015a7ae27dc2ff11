import DocBase.Store.Config
import DocBase.Store.Driver.Error
import DocBase.Text.Split

/-! Where the log of a store lies: below the path that the store is configured with, at
the place that its location names. -/
namespace DocBase.Log

/-- A part of a path that stays where it is. -/
def isIdle (part : List Char) : Bool := part == [] || part == ['.']

/-- Relative, with at least one name in it, and never stepping up or starting at a dot. -/
def isLocation (location : List Char) : Bool :=
  let parts := Text.split '/' location
  let head := parts.head?.getD []
  !isIdle head && !parts.contains ['.', '.']

/-- The names in a location, without the parts that stay where they are. -/
def locationNames (location : List Char) : List (List Char) :=
  (Text.split '/' location).filter fun part => !isIdle part

def joinPath (root location : List Char) : List Char :=
  if root = [] ∨ root.getLast? = some '/' then root ++ location else root ++ '/' :: location

/-- Drops the slashes and the idle parts at the end; for a path in reverse. -/
def trimReversed : List Char → List Char
  | '/' :: rest => trimReversed rest
  | '.' :: '/' :: rest => trimReversed rest
  | cs => cs

/-- The path of the directory around the last name of a path. -/
def parent (path : List Char) : List Char :=
  let up := (trimReversed ((trimReversed path.reverse).dropWhile (· != '/'))).reverse
  if up = [] ∧ path.head? = some '/' then ['/'] else up

/-- The log of a location: the file named for the last name of the location, in the
directory of the names before. -/
def path? (root location : List Char) : Option (List Char) :=
  if !isLocation location then none
  else (locationNames location).getLast?.map fun name =>
    joinPath (parent (joinPath root location)) (name ++ ".log".toList)

def path (c : StoreConfig) (location : String) : Except DriverError String :=
  match c.path with
  | none => .error (.config .noPath)
  | some root =>
    match path? root.toList location.toList with
    | some p => .ok (String.ofList p)
    | none => .error (.config (.badLocation location))

/-- The file next to a log that a compaction writes first. -/
def compactPath (path : List Char) : List Char :=
  path.take (path.length - ".log".length) ++ ".compact".toList

def compactPathOf (path : String) : String := String.ofList (compactPath path.toList)

def directoryOf (path : String) : String := String.ofList (parent path.toList)

end DocBase.Log
