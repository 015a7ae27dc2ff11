import DocBase.Json.Canonical

/-! The values that documents hold, and their JSON form. -/
namespace DocBase

inductive Value
  | null
  | bool (b : Bool)
  | int (n : Int64)
  | float (x : Binary64)
  | string (s : String)
  | array (items : List Value)
  | object (fields : List (String × Value))
  deriving Inhabited

/-- The fields of a document or of an object, ascending by name. -/
abbrev Fields := Keyed String Value

namespace Value

def typeName : Value → String
  | null => "null"
  | bool _ => "bool"
  | int _ => "int"
  | float _ => "float"
  | string _ => "string"
  | array _ => "array"
  | object _ => "object"

/-- Where the type stands in the order across types. Whole and floating-point
numbers stand together. -/
def typeRank : Value → Nat
  | null => 0
  | bool _ => 1
  | int _ | float _ => 2
  | string _ => 3
  | array _ => 4
  | object _ => 5

def toInt64? : Value → Option Int64
  | int n => some n
  | float x => some x.truncate
  | _ => none

def toBinary64? : Value → Option Binary64
  | int n => some (Binary64.ofInt n.toInt)
  | float x => some x
  | _ => none

/-- Whole numbers beyond 64 signed bits are held as floating-point numbers. -/
def ofInt (n : Int) : Value :=
  if Int64.minValue.toInt ≤ n ∧ n ≤ Int64.maxValue.toInt then int (Int64.ofInt n)
  else float (Binary64.ofInt n)

mutual

def ofJson : Json → Value
  | .null => null
  | .bool b => bool b
  | .int n => ofInt n
  | .float x => float x
  | .str s => string s
  | .arr items => array (ofJsonItems items)
  | .obj members => object (Keyed.ofList (ofJsonMembers members))

def ofJsonItems : List Json → List Value
  | [] => []
  | v :: rest => ofJson v :: ofJsonItems rest

def ofJsonMembers : List (String × Json) → List (String × Value)
  | [] => []
  | (k, v) :: rest => (k, ofJson v) :: ofJsonMembers rest

end

mutual

/-- Numbers that are not finite have no JSON form and become null. -/
def toJson : Value → Json
  | null => .null
  | bool b => .bool b
  | int n => .int n.toInt
  | float x => if x.isFinite then .float x else .null
  | string s => .str s
  | array items => .arr (toJsonItems items)
  | object fields => .obj (toJsonMembers fields)

def toJsonItems : List Value → List Json
  | [] => []
  | v :: rest => toJson v :: toJsonItems rest

def toJsonMembers : List (String × Value) → List (String × Json)
  | [] => []
  | (k, v) :: rest => (k, toJson v) :: toJsonMembers rest

end

def text (v : Value) : String := v.toJson.render

end Value
end DocBase
