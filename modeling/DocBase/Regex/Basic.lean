import DocBase.Regex.Utf8Ranges

/-! Regular expressions over characters, with constructors that keep them in one form:
sequences and choices lie flat, neighbouring characters are one literal, a choice among
single characters is a set, and what all alternatives begin with stands once before them. -/
namespace DocBase

/-- Conditions on the place between two characters. -/
inductive Look
  | textStart
  | textEnd
  | lineStart
  | lineEnd
  | crlfLineStart
  | crlfLineEnd
  | wordBoundary (ascii : Bool)
  | notWordBoundary (ascii : Bool)
  | wordStart (ascii : Bool)
  | wordEnd (ascii : Bool)
  | wordStartHalf (ascii : Bool)
  | wordEndHalf (ascii : Bool)
  deriving DecidableEq, Repr

inductive Regex
  | empty
  /-- These characters, one after the other. -/
  | literal (cs : List Char)
  /-- One character of the set. -/
  | chars (set : CodePoints)
  | look (l : Look)
  /-- A group whose part of the text is kept; groups count from 1. -/
  | capture (index : Nat) (r : Regex)
  | concat (rs : List Regex)
  /-- The earlier alternative is preferred. -/
  | alt (rs : List Regex)
  /-- From `min` to `max` times; `none` sets no upper limit. More are preferred if `greedy`. -/
  | repeated (min : Nat) (max : Option Nat) (greedy : Bool) (r : Regex)
  deriving BEq, Inhabited, Repr

namespace Regex

def never : Regex := chars []

/-- The least number of bytes in a match, if there is any match. -/
def leastLength : Regex → Option Nat
  | empty | look _ => some 0
  | literal cs => some (Utf8.length cs)
  | chars s => s.head?.map fun (lo, _) => Utf8.width lo
  | capture _ r => r.leastLength
  | concat rs => sum rs
  | alt rs => least rs
  | repeated min _ _ r => r.leastLength.map (· * min)
where
  sum : List Regex → Option Nat
    | [] => some 0
    | r :: rest => r.leastLength.bind fun n => (sum rest).map (n + ·)
  least : List Regex → Option Nat
    | [] => none
    | [r] => r.leastLength
    | r :: rest => r.leastLength.bind fun n => (least rest).map (Nat.min n)

/-- The greatest number of bytes in a match, if it is bounded and there is any match. -/
def greatestLength : Regex → Option Nat
  | empty | look _ => some 0
  | literal cs => some (Utf8.length cs)
  | chars s => s.getLast?.map fun (_, hi) => Utf8.width hi
  | capture _ r => r.greatestLength
  | concat rs => sum rs
  | alt rs => greatest rs
  | repeated _ max _ r => max.bind fun n => r.greatestLength.map (· * n)
where
  sum : List Regex → Option Nat
    | [] => some 0
    | r :: rest => r.greatestLength.bind fun n => (sum rest).map (n + ·)
  greatest : List Regex → Option Nat
    | [] => none
    | [r] => r.greatestLength
    | r :: rest => r.greatestLength.bind fun n => (greatest rest).map (Nat.max n)

/-- The only length a match can have is 0. -/
def isBlank (r : Regex) : Bool := r.greatestLength == some 0

/-- A set of a single character is a literal. -/
def mkChars (s : CodePoints) : Regex :=
  match s.normalize with
  | [(lo, hi)] => if lo = hi then literal [Char.ofNat lo] else chars [(lo, hi)]
  | s => chars s

/-- Repeating what matches only emptily makes no difference after the first time. -/
def mkRepeated (min : Nat) (max : Option Nat) (greedy : Bool) (r : Regex) : Regex :=
  let (min, max) := if r.isBlank then (Nat.min min 1, some ((max.getD 1).min 1)) else (min, max)
  if min = 0 ∧ max = some 0 then empty
  else if min = 1 ∧ max = some 1 then r
  else repeated min max greedy r

/-- Literals next to one another become one. -/
def joinLiterals (rs : List Regex) : List Regex :=
  rs.foldr (fun r rest => match r, rest with
    | literal cs, literal ds :: rest => literal (cs ++ ds) :: rest
    | r, rest => r :: rest) []

def mkConcat (rs : List Regex) : Regex :=
  let flat := rs.flatMap fun
    | concat inner => inner
    | empty => []
    | r => [r]
  match joinLiterals flat with
  | [] => empty
  | [r] => r
  | rs => concat rs

/-- The set of alternatives that are single characters. -/
def singles? (rs : List Regex) : Option CodePoints :=
  rs.mapM fun
    | literal [c] => some (c.toNat, c.toNat)
    | _ => none

/-- The union of alternatives that are sets. -/
def sets? (rs : List Regex) : Option CodePoints :=
  (rs.mapM fun
    | chars s => some s
    | _ => none).map List.flatten

/-- What two sequences begin with in common. -/
def commonStart : List Regex → List Regex → List Regex
  | r :: rs, s :: ss => if r == s then r :: commonStart rs ss else []
  | _, _ => []

def parts : Regex → List Regex
  | concat rs => rs
  | _ => []

/-- What all alternatives begin with. Alternatives without parts share nothing. -/
def sharedStart : List Regex → List Regex
  | [] => []
  | r :: rest => rest.foldl (fun shared s => commonStart shared s.parts) r.parts

/-- A choice, with `fuel` for what its alternatives share. -/
def choose : Nat → List Regex → Regex
  | fuel, rs =>
    let flat := rs.flatMap fun
      | alt inner => inner
      | r => [r]
    match flat with
    | [] => never
    | [r] => r
    | _ =>
      match (singles? flat).or (sets? flat), fuel, sharedStart flat with
      | some s, _, _ => mkChars s
      | none, fuel + 1, s :: shared =>
        let rests := flat.map fun r => mkConcat (r.parts.drop (shared.length + 1))
        mkConcat (s :: shared ++ [choose fuel rests])
      | none, _, _ => alt flat

/-- The number of parts of all levels. -/
def count : Regex → Nat
  | empty | literal _ | chars _ | look _ => 1
  | capture _ r | repeated _ _ _ r => r.count + 1
  | concat rs | alt rs => countAll rs + 1
where
  countAll : List Regex → Nat
    | [] => 0
    | r :: rest => r.count + countAll rest

/-- Taking out what alternatives share leaves them with fewer parts. -/
def mkAlt (rs : List Regex) : Regex := choose (count.countAll rs) rs

end Regex
end DocBase
