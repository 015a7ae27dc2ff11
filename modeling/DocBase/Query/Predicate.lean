import DocBase.Query.Error

/-! Filters made ready to run: operands checked, patterns compiled, and the tree
brought into a normal form. -/
namespace DocBase

/-- A condition whose operand is in order. -/
inductive Test
  | compare (op : CompareOp) (v : Value)
  | oneOf (vs : List Value) (negated : Bool)
  | present (wanted : Bool)
  | regex (source : String) (r : Regex)
  | contains (v : Value)
  | startsWith (s : String)
  | endsWith (s : String)

/-- Some part of the text is `needle`. -/
def hasPart (needle : List Char) : List Char → Bool
  | [] => needle.isEmpty
  | c :: cs => needle.isPrefixOf (c :: cs) || hasPart needle cs

namespace CompareOp

def holdsFor : CompareOp → Ordering → Bool
  | eq, o => o == .eq
  | ne, o => o != .eq
  | gt, o => o == .gt
  | gte, o => o != .lt
  | lt, o => o == .lt
  | lte, o => o != .gt

/-- A missing value differs from every literal and is in order with none. -/
def test (op : CompareOp) (found : Option Value) (literal : Value) : Bool :=
  match op with
  | eq => found.any (·.same literal)
  | ne => !found.any (·.same literal)
  | op => (found.bind (·.compare? literal)).any op.holdsFor

end CompareOp

def Test.holds (t : Test) (found : Option Value) : Bool :=
  match t with
  | .compare op v => op.test found v
  | .oneOf vs negated => (found.any fun v => vs.any (·.same v)) != negated
  | .present wanted => found.isSome == wanted
  | .regex _ r =>
    match found with
    | some (.string s) => r.isMatch s
    | _ => false
  | .contains v =>
    match found, v with
    | some (.string s), .string part => hasPart part.toList s.toList
    | some (.array items), v => items.any (·.same v)
    | _, _ => false
  | .startsWith s =>
    match found with
    | some (.string t) => s.toList.isPrefixOf t.toList
    | _ => false
  | .endsWith s =>
    match found with
    | some (.string t) => s.toList.isSuffixOf t.toList
    | _ => false

inductive Predicate
  | const (b : Bool)
  | field (name : String) (t : Test)
  | all (ps : List Predicate)
  | any (ps : List Predicate)
  | not (p : Predicate)
  deriving Inhabited

/-- Every segment of the path has a name. -/
def checkField (name : String) : Except QueryFault Unit :=
  if (Path.segments name).any (·.isEmpty) then .error (.fieldName name) else .ok ()

def Value.isOrdered : Value → Bool
  | null | array _ | object _ => false
  | _ => true

namespace Condition

def compileList (op field : String) (negated : Bool) : Value → Except QueryFault Test
  | .array vs => .ok (.oneOf vs negated)
  | v => .error (.noList op v.typeName field)

def compile (field : String) : Condition → Except QueryFault Test
  | compare op v =>
    if op.isOrdering ∧ !v.isOrdered then .error (.unordered op v.typeName field)
    else .ok (.compare op v)
  | oneOf v => compileList "in" field false v
  | noneOf v => compileList "nin" field true v
  | present b => .ok (.present b)
  | regex pattern =>
    match Regex.compile? pattern with
    | some r => .ok (.regex pattern r)
    | none => .error (.badRegex pattern)
  | contains v => .ok (.contains v)
  | startsWith s => .ok (.startsWith s)
  | endsWith s => .ok (.endsWith s)

end Condition

namespace Predicate

mutual

/-- The filter as it stands; the first leaf that is ill-formed decides. -/
def ofFilter : Filter → Except QueryFault Predicate
  | .field name c => do
    checkField name
    return field name (← c.compile name)
  | .all fs => return all (← ofFilters fs)
  | .any fs => return any (← ofFilters fs)
  | .not f => return not (← ofFilter f)

def ofFilters : List Filter → Except QueryFault (List Predicate)
  | [] => return []
  | f :: rest => do
    let p ← ofFilter f
    let ps ← ofFilters rest
    return p :: ps

end

/-- A conjunction of normal parts: true ones vanish, a false one decides, and
conjunctions among them are opened. -/
def mkAll (ps : List Predicate) : Predicate :=
  let isFalse : Predicate → Bool
    | const b => !b
    | _ => false
  if ps.any isFalse then const false
  else
    let flat := ps.flatMap fun
      | const _ => []
      | all inner => inner
      | p => [p]
    match flat with
    | [] => const true
    | [p] => p
    | _ => all flat

def mkAny (ps : List Predicate) : Predicate :=
  let isTrue : Predicate → Bool
    | const b => b
    | _ => false
  if ps.any isTrue then const true
  else
    let flat := ps.flatMap fun
      | const _ => []
      | any inner => inner
      | p => [p]
    match flat with
    | [] => const false
    | [p] => p
    | _ => any flat

def mkNot : Predicate → Predicate
  | not p => p
  | const b => const !b
  | p => not p

mutual

def normalize : Predicate → Predicate
  | all ps => mkAll (normalizeList ps)
  | any ps => mkAny (normalizeList ps)
  | not p => mkNot p.normalize
  | p => p

def normalizeList : List Predicate → List Predicate
  | [] => []
  | p :: rest => p.normalize :: normalizeList rest

end

def compile (f : Filter) : Except QueryFault Predicate := (ofFilter f).map normalize

mutual

def holds (d : Document) : Predicate → Bool
  | const b => b
  | field name t => t.holds (d.lookup name)
  | all ps => holdsAll d ps
  | any ps => holdsAny d ps
  | not p => !p.holds d

def holdsAll (d : Document) : List Predicate → Bool
  | [] => true
  | p :: rest => p.holds d && holdsAll d rest

def holdsAny (d : Document) : List Predicate → Bool
  | [] => false
  | p :: rest => p.holds d || holdsAny d rest

end

def testText (name : String) : Test → String
  | .compare op v => s!"{name} {op.symbol} {v.text}"
  | .oneOf vs negated =>
    let op := if negated then "not in" else "in"
    s!"{name} {op} {(Value.array vs).text}"
  | .present wanted => if wanted then s!"{name} exists" else s!"{name} missing"
  | .regex source _ => s!"{name} =~ /{source}/"
  | .contains v => s!"{name} contains {v.text}"
  | .startsWith s => s!"{name} starts with {Text.quoted s}"
  | .endsWith s => s!"{name} ends with {Text.quoted s}"

mutual

def text : Predicate → String
  | const b => if b then "true" else "false"
  | field name t => testText name t
  | all ps => "(" ++ " AND ".intercalate (texts ps) ++ ")"
  | any ps => "(" ++ " OR ".intercalate (texts ps) ++ ")"
  | not p => "NOT (" ++ p.text ++ ")"

def texts : List Predicate → List String
  | [] => []
  | p :: rest => p.text :: texts rest

end

/-- Whether it holds of no document whatever. -/
def isNever : Predicate → Bool
  | const b => !b
  | _ => false

end Predicate
end DocBase
