import DocBase.Document.Edit
import DocBase.Regex.Pattern

/-! Schemas: which fields documents have and which values they take. -/
namespace DocBase

inductive FieldType
  | string
  | int
  | float
  | number
  | bool
  | array
  | object
  | null
  | any
  deriving DecidableEq, Repr

namespace FieldType

def name : FieldType → String
  | string => "string"
  | int => "int"
  | float => "float"
  | number => "number"
  | bool => "bool"
  | array => "array"
  | object => "object"
  | null => "null"
  | any => "any"

def all : List FieldType := [string, int, float, number, bool, array, object, null, any]

def ofName? (s : String) : Option FieldType := all.find? (·.name == s)

def admits : FieldType → Value → Bool
  | any, _ => true
  | string, .string _ => true
  | int, .int _ => true
  | float, .float _ => true
  | number, .int _ | number, .float _ => true
  | bool, .bool _ => true
  | array, .array _ => true
  | object, .object _ => true
  | null, .null => true
  | _, _ => false

end FieldType

/-- What a field asks of its value itself. No types at all admit every type. -/
structure FieldRules where
  types : List FieldType := []
  nullable : Bool := false
  min : Option Binary64 := none
  max : Option Binary64 := none
  minLength : Option Nat := none
  maxLength : Option Nat := none
  pattern : Option Pattern := none
  enumValues : Option (List Value) := none
  default : Option Value := none

mutual

/-- The rules of a field, with those for the elements of an array and for the fields
of an object. -/
inductive FieldSchema
  | mk (rules : FieldRules) (items : Option FieldSchema) (properties : Option Schema)

/-- Strict schemas refuse the fields that they do not declare. -/
inductive Schema
  | mk (name : String) (fields : List (String × FieldSchema)) (required : List String)
    (strict : Bool)

end

namespace FieldSchema

def rules : FieldSchema → FieldRules
  | mk r _ _ => r

def ofTypes (types : List FieldType) : FieldSchema := mk { types } none none

def ofType (t : FieldType) : FieldSchema := ofTypes [t]

def arrayOf (items : FieldSchema) : FieldSchema := mk { types := [.array] } (some items) none

def objectOf (properties : Schema) : FieldSchema := mk { types := [.object] } none (some properties)

def modify (f : FieldRules → FieldRules) : FieldSchema → FieldSchema
  | mk r items properties => mk (f r) items properties

def nullable (s : FieldSchema) : FieldSchema := s.modify ({ · with nullable := true })
def min (s : FieldSchema) (x : Binary64) : FieldSchema := s.modify ({ · with min := some x })
def max (s : FieldSchema) (x : Binary64) : FieldSchema := s.modify ({ · with max := some x })
def minLength (s : FieldSchema) (n : Nat) : FieldSchema := s.modify ({ · with minLength := some n })
def maxLength (s : FieldSchema) (n : Nat) : FieldSchema := s.modify ({ · with maxLength := some n })
def pattern (s : FieldSchema) (source : String) : FieldSchema :=
  s.modify ({ · with pattern := some (.ofSource source) })
def enumValues (s : FieldSchema) (vs : List Value) : FieldSchema :=
  s.modify ({ · with enumValues := some vs })
def default (s : FieldSchema) (v : Value) : FieldSchema := s.modify ({ · with default := some v })

end FieldSchema

namespace Schema

def name : Schema → String
  | mk n _ _ _ => n

def fields : Schema → List (String × FieldSchema)
  | mk _ fs _ _ => fs

def required : Schema → List String
  | mk _ _ r _ => r

def isStrict : Schema → Bool
  | mk _ _ _ s => s

def named (name : String) : Schema := mk name [] [] false

def field (s : Schema) (name : String) (f : FieldSchema) : Schema :=
  mk s.name (Keyed.insert name f s.fields) s.required s.isStrict

/-- A name is required once however often it is asked for. -/
def require (s : Schema) (name : String) : Schema :=
  let required := if s.required.contains name then s.required else s.required ++ [name]
  mk s.name s.fields required s.isStrict

def requiredField (s : Schema) (name : String) (f : FieldSchema) : Schema :=
  (s.field name f).require name

def strict (s : Schema) (on : Bool) : Schema := mk s.name s.fields s.required on

end Schema
end DocBase
