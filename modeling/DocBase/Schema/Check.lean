import DocBase.Schema.Basic
import DocBase.Error

/-! Checking documents against schemas. -/
namespace DocBase

/-- What is wrong with the value of a field, or with writing to it. -/
inductive Violation
  | notAllowed (v : Value)
  | belowMinimum (v : Value) (min : Binary64)
  | aboveMaximum (v : Value) (max : Binary64)
  | tooShort (what : String) (length min : Nat)
  | tooLong (what : String) (length max : Nat)
  | noMatch (pattern : String)
  | badPattern (pattern : String)
  | invalidPath
  | assigned
  | conflict (e : PathError)
  | emptyId
  | longId
  | nonFinite

/-- Numbers in limits are written out in full. -/
def limitLayout : Decimal.Layout := ⟨none, ""⟩

def limitText (x : Binary64) : String :=
  if x.isNaN then "NaN"
  else if x.isFinite then x.text limitLayout
  else if x.negative then "-inf" else "inf"

def Violation.message : Violation → String
  | notAllowed v => s!"value {v.text} is not one of the allowed values"
  | belowMinimum v min => s!"value {v.text} is less than minimum {limitText min}"
  | aboveMaximum v max => s!"value {v.text} is greater than maximum {limitText max}"
  | tooShort what length min => s!"{what} length {length} is less than minimum {min}"
  | tooLong what length max => s!"{what} length {length} is greater than maximum {max}"
  | noMatch pattern => s!"string does not match pattern {pattern}"
  | badPattern pattern => s!"invalid pattern {pattern}: {Pattern.refusal}"
  | invalidPath => "invalid field path"
  | assigned => "server-assigned fields cannot be modified"
  | conflict e => e.message
  | emptyId => "identifier must not be empty"
  | longId => "identifier is too long"
  | nonFinite => "non-finite numbers cannot be stored"

inductive ValidationError
  | missingField (path : String)
  | typeMismatch (path : String) (expected actual : String)
  | constraint (path : String) (violation : Violation)
  | unknownField (path : String)

namespace ValidationError

def path : ValidationError → String
  | missingField p => p
  | typeMismatch p _ _ => p
  | constraint p _ => p
  | unknownField p => p

def kind : ValidationError → ErrorKind
  | missingField _ => .missingField
  | typeMismatch .. => .typeMismatch
  | constraint .. => .constraintViolation
  | unknownField _ => .unknownField

def message : ValidationError → String
  | missingField p => s!"missing required field '{p}'"
  | typeMismatch p expected actual => s!"field '{p}': expected {expected}, got {actual}"
  | constraint p v => s!"field '{p}': {v.message}"
  | unknownField p => s!"unknown field '{p}'"

end ValidationError

namespace FieldRules

def admitsType (r : FieldRules) (v : Value) : Bool := r.types.isEmpty || r.types.any (·.admits v)

def expected (r : FieldRules) : String := "|".intercalate (r.types.map FieldType.name)

def numberFaults (r : FieldRules) (v : Value) (x : Binary64) : List Violation :=
  (match r.min with
    | some min => if x.isNaN || x.below min then [.belowMinimum v min] else []
    | none => [])
  ++ match r.max with
    | some max => if x.isNaN || max.below x then [.aboveMaximum v max] else []
    | none => []

def lengthFaults (r : FieldRules) (what : String) (n : Nat) : List Violation :=
  (match r.minLength with
    | some min => if n < min then [.tooShort what n min] else []
    | none => [])
  ++ match r.maxLength with
    | some max => if max < n then [.tooLong what n max] else []
    | none => []

def patternFaults (r : FieldRules) (s : String) : List Violation :=
  match r.pattern with
  | none => []
  | some p =>
    match p.regex with
    | none => [.badPattern p.source]
    | some re => if re.isMatch s then [] else [.noMatch p.source]

/-- The faults of the value itself, without its elements and fields. -/
def faults (r : FieldRules) (v : Value) : List Violation :=
  match v with
  | .int n => r.numberFaults v (Binary64.ofInt n.toInt)
  | .float x => r.numberFaults v x
  | .string s => r.lengthFaults "string" s.length ++ r.patternFaults s
  | .array xs => r.lengthFaults "array" xs.length
  | _ => []

def isNull : Value → Bool
  | .null => true
  | _ => false

/-- The checks that come first: a null that may be, a wrong type or a value that is
not allowed end the matter; otherwise `rest` goes on. -/
def screen (r : FieldRules) (path : String) (v : Value) (rest : List ValidationError) :
    List ValidationError :=
  if isNull v && r.nullable then []
  else if !r.admitsType v then [.typeMismatch path r.expected v.typeName]
  else if r.enumValues.any fun vs => !vs.any v.same then [.constraint path (.notAllowed v)]
  else (r.faults v).map (.constraint path) ++ rest

end FieldRules

def joinPath (parent name : String) : String :=
  if parent.isEmpty then name else s!"{parent}.{name}"

/-- Names in ascending order, each once. -/
def sortedNames (names : List String) : List String :=
  (names.foldl (fun (m : Keyed String Unit) n => m.insert n ()) []).keys

/-- Checks of a value found at a path. -/
abbrev Checker := String → Value → List ValidationError

/-- The names that a schema has something to say about are gone through in order. -/
def checkNames (checks : Keyed String Checker) (required : List String) (strict : Bool)
    (parent : String) (fs : Fields) : List ValidationError :=
  let names := sortedNames (checks.keys ++ required ++ if strict then fs.keys else [])
  names.flatMap fun name =>
    let path := joinPath parent name
    match Keyed.get? name fs, Keyed.get? name checks with
    | none, _ => if required.contains name then [.missingField path] else []
    | some v, some check => check path v
    | some _, none => if strict then [.unknownField path] else []

mutual

def FieldSchema.check : FieldSchema → Checker
  | .mk rules items properties => fun path v =>
    rules.screen path v <|
      match v with
      | .array xs =>
        match items with
        | some s => xs.zipIdx.flatMap fun (x, i) => s.check s!"{path}[{i}]" x
        | none => []
      | .object fs =>
        match properties with
        | some s => s.checkFields path fs
        | none => []
      | _ => []

def Schema.checkFields : Schema → String → Fields → List ValidationError
  | .mk _ fields required strict => checkNames (checkers fields) required strict

def checkers : List (String × FieldSchema) → Keyed String Checker
  | [] => []
  | (k, f) :: rest => (k, f.check) :: checkers rest

end

mutual

/-- Fills in the defaults of absent fields, and of those absent in objects that are there. -/
def Schema.fill : Schema → Fields → Fields
  | .mk _ fields _ _ => fillAll fields

def fillAll : List (String × FieldSchema) → Fields → Fields
  | [], fs => fs
  | (k, f) :: rest, fs => fillAll rest (fillOne k f fs)

def fillOne (k : String) : FieldSchema → Fields → Fields
  | .mk rules _ properties, fs =>
    match Keyed.get? k fs, properties with
    | none, _ =>
      match rules.default with
      | some v => Keyed.insert k v fs
      | none => fs
    | some (.object nested), some s => Keyed.insert k (.object (s.fill nested)) fs
    | some _, _ => fs

end

namespace Schema

/-- Everything wrong with a document, in the order of the field names. -/
def report (s : Schema) (d : Document) : List ValidationError := s.checkFields "" d.fields

def validate (s : Schema) (d : Document) : Except ValidationError Unit :=
  match s.report d with
  | e :: _ => .error e
  | [] => .ok ()

def applyDefaults (s : Schema) (d : Document) : Document := { d with fields := s.fill d.fields }

/-- The document with defaults filled in, if it is valid then. -/
def prepare (s : Schema) (d : Document) : Except ValidationError Document := do
  let d := s.applyDefaults d
  s.validate d
  return d

end Schema

/-- The first fault of a value on its own. -/
def FieldSchema.validate (s : FieldSchema) (v : Value) : Except ValidationError Unit :=
  match s.check "" v with
  | e :: _ => .error e
  | [] => .ok ()

end DocBase
