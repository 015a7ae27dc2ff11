import DocBase.Json.Basic

/-! TOML values, and the tables that the lines of a TOML text build up. -/
namespace DocBase

inductive Toml
  | bool (b : Bool)
  | int (n : Int)
  | float (x : Binary64)
  | string (s : String)
  /-- A date, a time or both. -/
  | moment (text : String)
  | array (items : List Toml)
  | table (entries : List (String × Toml))
  deriving Inhabited

namespace Toml

mutual

/-- Moments have no JSON form of their own and become objects. -/
def toJson : Toml → Json
  | bool b => .bool b
  | int n => .int n
  | float x => .float x
  | string s => .str s
  | moment text => .obj [("moment", .str text)]
  | array items => .arr (toJsonItems items)
  | table entries => .obj (toJsonEntries entries)

def toJsonItems : List Toml → List Json
  | [] => []
  | v :: rest => toJson v :: toJsonItems rest

def toJsonEntries : List (String × Toml) → List (String × Json)
  | [] => []
  | (k, v) :: rest => (k, toJson v) :: toJsonEntries rest

end

/-- How a table came to be, which decides what may still be added to it. -/
inductive Origin
  /-- Named in a header. -/
  | header
  /-- On the way to a table named in a header. -/
  | implied
  /-- On the way of a dotted key. -/
  | dotted
  deriving DecidableEq, Repr

/-- A place in a text that is still being read. -/
inductive Node
  | leaf (v : Toml)
  | table (origin : Origin) (entries : List (String × Node))
  /-- An array of tables, the latest apart from those before it. -/
  | tables (latest : List (String × Node)) (before : List (List (String × Node)))

abbrev Entries := List (String × Node)

namespace Entries

def set (key : String) (n : Node) : Entries → Entries
  | [] => [(key, n)]
  | (k, m) :: rest => if k = key then (k, n) :: rest else (k, m) :: set key n rest

/-- A value under a dotted key, `way` being the names before the last. Values, and tables
that a header named, are not extended, and a table is extended by dotted keys only if
dotted keys made it. -/
def insertDotted (key : String) (v : Toml) (extensible : Bool) :
    List String → Entries → Option Entries
  | [], es => if extensible && (es.lookup key).isNone then some (es.set key (.leaf v)) else none
  | k :: way, es =>
    match es.lookup k with
    | none => (insertDotted key v true way []).map fun c => es.set k (.table .dotted c)
    | some (.leaf _) => none
    | some (.table .header _) => none
    | some (.table origin c) =>
      (insertDotted key v (origin == .dotted) way c).map fun c => es.set k (.table origin c)
    | some (.tables latest before) =>
      (insertDotted key v false way latest).map fun c => es.set k (.tables c before)

/-- A change of the table that a header leads to, the latest one where there are many. -/
def within (f : Entries → Option Entries) : List String → Entries → Option Entries
  | [], es => f es
  | k :: way, es =>
    match es.lookup k with
    | none => (within f way []).map fun c => es.set k (.table .implied c)
    | some (.leaf _) => none
    | some (.table origin c) => (within f way c).map fun c => es.set k (.table origin c)
    | some (.tables latest before) => (within f way latest).map fun c => es.set k (.tables c before)

/-- The table of a header, which no header has named before and no dotted key has made. -/
def openTable (key : String) (es : Entries) : Option Entries :=
  match es.lookup key with
  | none => some (es.set key (.table .header []))
  | some (.table .implied c) => some (es.set key (.table .header c))
  | some _ => none

/-- One more table at the end of an array of tables. -/
def appendTable (key : String) (es : Entries) : Option Entries :=
  match es.lookup key with
  | none => some (es.set key (.tables [] []))
  | some (.tables latest before) => some (es.set key (.tables [] (before ++ [latest])))
  | some _ => none

end Entries

mutual

def Node.toToml : Node → Toml
  | .leaf v => v
  | .table _ es => .table (closeEntries es)
  | .tables latest before => .array (closeTables before ++ [.table (closeEntries latest)])

def closeEntries : List (String × Node) → List (String × Toml)
  | [] => []
  | (k, n) :: rest => (k, n.toToml) :: closeEntries rest

def closeTables : List (List (String × Node)) → List Toml
  | [] => []
  | es :: rest => .table (closeEntries es) :: closeTables rest

end

end Toml
end DocBase
