import DocBase.Json.Canonical

/-! Reading records out of JSON objects. Members that a record does not declare are
passed over; those that it declares come once at most. -/
namespace DocBase.Json

abbrev Members := List (String × Json)

def asMembers : Json → Option Members
  | obj ms => some ms
  | _ => none

def asBool : Json → Option Bool
  | bool b => some b
  | _ => none

def asString : Json → Option String
  | str s => some s
  | _ => none

/-- A count that fits 64 bits. -/
def asCount : Json → Option Nat
  | int n => if 0 ≤ n ∧ n < UInt64.size then some n.toNat else none
  | _ => none

def asBinary64 : Json → Option Binary64
  | int n => some (Binary64.ofInt n)
  | float x => some x
  | _ => none

def asList {α : Type} (read : Json → Option α) : Json → Option (List α)
  | arr items => items.mapM read
  | _ => none

/-- The name of one of several kinds. Where `byPlace` is set, its place in the list of their
names does as well. -/
def asKind (names : List String) (byPlace : Bool) : Json → Option String
  | str s => some s
  | int n => if byPlace ∧ 0 ≤ n then names[n.toNat]? else none
  | _ => none

/-- Null stands for absence. -/
def orNull {α : Type} (read : Json → Option α) : Json → Option (Option α)
  | null => some none
  | j => (read j).map some

namespace Members

def find? (ms : Members) (name : String) : Option Json := ms.lookup name

/-- None of the declared names is repeated. -/
def declares (ms : Members) (names : List String) : Bool :=
  names.all fun n => (ms.filter (·.1 == n)).length ≤ 1

/-- The members of a record. A list holds the first of them in the order of their names. -/
def ofRecord? (names : List String) : Json → Option Members
  | obj ms => if declares ms names then some ms else none
  | arr items => some (names.zip items)
  | _ => none

def required {α : Type} (ms : Members) (name : String) (read : Json → Option α) : Option α :=
  (ms.find? name).bind read

def withDefault {α : Type} (ms : Members) (name : String) (default : α) (read : Json → Option α) :
    Option α :=
  match ms.find? name with
  | some j => read j
  | none => some default

def optional {α : Type} (ms : Members) (name : String) (read : Json → Option α) :
    Option (Option α) :=
  ms.withDefault name none (orNull read)

end Members

/-- A member that is left out when there is nothing to write. -/
def memberIf (name : String) (j : Option Json) : List (String × Json) := (j.map (name, ·)).toList

end DocBase.Json
