import DocBase.Regex.Escape

/-! Reading bracketed sets of characters, with sets within them and operators between them. -/
namespace DocBase.Regex

/-- The depth of parts side by side, which are a level of their own if there are many. -/
def depthOf : List Nat → Nat
  | [] => 0
  | [d] => d
  | ds => ds.foldl Nat.max 0 + 1

/-- A member of a bracketed set: one character, or a set of its own. -/
def readSetItem (f : Flags) : List Char → Option (Escape × List Char)
  | '\\' :: rest => readEscape f rest
  | c :: rest => some (.char c false, rest)
  | [] => none

/-- Whether a hyphen stands for itself: a closing bracket or another hyphen follows, be it
the first character of a comment. -/
def hyphenIsLiteral (spaced : Bool) (afterHyphen : List Char) : Bool :=
  let ahead :=
    if spaced then
      match afterHyphen.dropWhile isBlankChar with
      | '#' :: comment => comment.dropWhile isBlankChar
      | cs => cs
    else afterHyphen
  match ahead with
  | ']' :: _ | '-' :: _ => true
  | _ => false

/-- The code point of a character that may stand in a set: in ASCII mode, one of ASCII. -/
def memberPoint? (f : Flags) (c : Char) : Option Nat :=
  if f.ascii ∧ 127 < c.toNat then none else some c.toNat

def singleMember (f : Flags) : Escape → Option CodePoints
  | .char c _ => (memberPoint? f c).map fun n => [(n, n)]
  | .set s => some s
  | .look _ => none

/-- A single member, or a range of two characters around a hyphen. -/
def readSetRange (f : Flags) (cs : List Char) : Option (CodePoints × List Char) := do
  let (first, rest) ← readSetItem f cs
  match skipSpace f.spaced rest with
  | [] => none
  | '-' :: after =>
    if hyphenIsLiteral f.spaced after then return (← singleMember f first, '-' :: after)
    else
      match first, ← readSetItem f (skipSpace f.spaced after) with
      | .char lo _, (.char hi _, rest) =>
        let lo ← memberPoint? f lo
        let hi ← memberPoint? f hi
        if lo ≤ hi then return ([(lo, hi)], rest) else none
      | _, _ => none
  | rest => return (← singleMember f first, rest)

/-- A set named such as `[:alpha:]` with its negation; other texts are left to be read as a set. -/
def readPosix : List Char → Option ((Bool × CodePoints) × List Char)
  | '[' :: ':' :: rest =>
    let (negated, rest) := match rest with
      | '^' :: r => (true, r)
      | r => (false, r)
    let name := rest.takeWhile fun c => c ≠ ':'
    match rest.dropWhile fun c => c ≠ ':' with
    | ':' :: ']' :: rest =>
      (posixClass? (String.ofList name)).map fun s => ((negated, s), rest)
    | _ => none
  | _ => none

inductive SetOperator
  | intersection
  | difference
  | symmetricDifference

def SetOperator.apply (o : SetOperator) (s t : CodePoints) : CodePoints :=
  match o with
  | intersection => s.inter t
  | difference => s.diff t
  | symmetricDifference => (s.diff t).union (t.diff s)

def readOperator : List Char → Option (SetOperator × List Char)
  | '&' :: '&' :: r => some (.intersection, r)
  | '-' :: '-' :: r => some (.difference, r)
  | '~' :: '~' :: r => some (.symmetricDifference, r)
  | _ => none

/-- Members of a set side by side, with their depths. -/
structure Members where
  set : CodePoints := []
  depths : List Nat := []

namespace Members

def add (ms : Members) (s : CodePoints) (depth : Nat) : Members := ⟨s ++ ms.set, depth :: ms.depths⟩

def hyphens (n : Nat) : Members := if n = 0 then {} else ⟨[(0x2d, 0x2d)], List.replicate n 0⟩

end Members

/-- The start of a set after its bracket: negation, then hyphens that stand for
themselves, then perhaps a closing bracket that does. -/
def readSetStart (spaced : Bool) (cs : List Char) : Bool × Members × List Char :=
  let (negated, cs) := match skipSpace spaced cs with
    | '^' :: r => (true, skipSpace spaced r)
    | r => (false, r)
  match takeSpaced spaced (· = '-') cs.length cs with
  | ([], ']' :: rest) => (negated, ⟨[(0x5d, 0x5d)], [0]⟩, rest)
  | (hyphens, rest) => (negated, .hyphens hyphens.length, rest)

/-- The body of a set up to its closing bracket, with its depth. `ms` stands behind the
last operator, and `left` before that. -/
def readSetBody (f : Flags) : Nat → Option (CodePoints × Nat × SetOperator) → Members → List Char →
    Option (CodePoints × Nat × List Char)
  | 0, _, _, _ => none
  | fuel + 1, left, ms, cs =>
    let whole (_ : Unit) : CodePoints × Nat :=
      let right := folded f ms.set.normalize
      match left with
      | some (s, d, o) => (o.apply s right, Nat.max d (depthOf ms.depths) + 1)
      | none => (right, depthOf ms.depths)
    match skipSpace f.spaced cs with
    | [] => none
    | ']' :: rest => some ((whole ()).1, (whole ()).2, rest)
    | '[' :: rest =>
      match readPosix ('[' :: rest) with
      | some ((negated, s), rest) =>
        (negated? f negated (folded f s)).bind fun s => readSetBody f fuel left (ms.add s 0) rest
      | none =>
        let (negated, start, rest) := readSetStart f.spaced rest
        (readSetBody f fuel none start rest).bind fun (s, d, rest) =>
          (negated? f negated s).bind fun s => readSetBody f fuel left (ms.add s (d + 1)) rest
    | rest =>
      match readOperator rest with
      | some (o, rest) => readSetBody f fuel (some ((whole ()).1, (whole ()).2, o)) {} rest
      | none =>
        (readSetRange f rest).bind fun (s, rest) => readSetBody f fuel left (ms.add s 0) rest

/-- A bracketed set after its bracket, with its depth. -/
def readSet (f : Flags) (cs : List Char) : Option (CodePoints × Nat × List Char) := do
  let (negated, start, rest) := readSetStart f.spaced cs
  let (s, depth, rest) ← readSetBody f (2 * cs.length + 2) none start rest
  return (← negated? f negated s, depth + 1, rest)

end DocBase.Regex
