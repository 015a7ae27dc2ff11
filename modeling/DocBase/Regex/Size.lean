import DocBase.Regex.Beginning
import Std.Data.HashMap

/-! How much memory an expression takes once it is compiled into automata, one that
reads forwards and one that reads backwards. Expressions that take too much are refused.

A state takes 32 bytes, each of its transitions 8 more if there are several, and each of
its alternatives 4. States are numbered in the order in which they are made. -/
namespace DocBase.Regex

/-- Limit on each of the automata, in bytes. -/
def sizeLimit : Nat := 1024 * 1024

/-- The states made so far and the bytes that they hold besides their fixed part. -/
structure Usage where
  states : Nat := 0
  extra : Nat := 0

namespace Usage

def bytes (u : Usage) : Nat := 32 * u.states + u.extra

def exceeds (u : Usage) : Bool := sizeLimit < u.bytes

def addStates (u : Usage) (n : Nat) : Usage := { u with states := u.states + n }

/-- A state with a transition for each of `n` ranges. -/
def addRanges (u : Usage) (n : Nat) : Usage := ⟨u.states + 1, u.extra + 8 * n⟩

def addAlternatives (u : Usage) (n : Nat) : Usage := { u with extra := u.extra + 4 * n }

end Usage

/-- What an expression leaves behind: the usage, and whether its last state is a choice,
which takes one more alternative when the next expression is joined to it. -/
structure Built where
  usage : Usage
  endsInChoice : Bool := false

namespace Built

def joined (b : Built) : Usage := if b.endsInChoice then b.usage.addAlternatives 1 else b.usage

end Built

/-! ### Sets -/

/-- A place in a bounded table by the FNV-1a hash of a few numbers. -/
def slotOf (size : Nat) (key : List Nat) : Nat :=
  let hash := key.foldl (fun (h : UInt64) n => (h ^^^ n.toUInt64) * 1099511628211)
    14695981039346656037
  hash.toNat % size

/-- States that can be used again, each in the slot that its key has in a table of `size`
slots. A newer state takes the place of an older one. -/
structure Pool where
  size : Nat
  slots : Std.HashMap Nat (List Nat × Nat) := {}
  usage : Usage

namespace Pool

/-- The number of the state with a key, which is made by `make` if it is not at hand. -/
def state (p : Pool) (key : List Nat) (make : Usage → Usage) : Nat × Pool :=
  let slot := slotOf p.size key
  match p.slots[slot]? with
  | some (known, n) =>
    if known == key then (n, p) else fresh slot
  | none => fresh slot
where
  fresh (slot : Nat) : Nat × Pool :=
    (p.usage.states,
      { p with slots := p.slots.insert slot (key, p.usage.states), usage := make p.usage })

/-- The state from which sequences of at most `depth` ranges lead to `target`. States with
the same transitions are shared. -/
def branches (target : Nat) : Nat → Pool → List (List Utf8.ByteRange) → Nat × Pool
  | 0, p, _ => (target, p)
  | depth + 1, p, seqs =>
    let (key, n, p) := (Utf8.groupHeads seqs).foldl (fun (key, n, p) ((lo, hi), tails) =>
      let (next, p) :=
        if tails.all (·.isEmpty) then (target, p) else branches target depth p tails
      (next :: hi :: lo :: key, n + 1, p)) (([] : List Nat), 0, p)
    p.state key.reverse (·.addRanges n)

/-- The states that read a sequence from its last range back to the first, which leads to
`target`. States with the same range and the same successor are shared. -/
def chain (target : Nat) (p : Pool) (seq : List Utf8.ByteRange) : Nat × Pool :=
  seq.foldl (fun (next, p) (lo, hi) => p.state [next, lo, hi] (·.addStates 1)) (target, p)

end Pool

/-- A set within ASCII is one state; others follow the bytes of their characters. -/
def buildSet (backwards : Bool) (s : CodePoints) (u : Usage) : Usage :=
  if s.all (·.2 < 128) then (u.addStates 1).addRanges s.length
  else
    let seqs := Utf8.ofCodePoints s
    if backwards then
      let pool : Pool := { size := 1000, usage := u.addStates 2 }
      let pool := seqs.foldl (fun p seq => (p.chain (u.states + 1) seq).2) pool
      pool.usage.addAlternatives seqs.length
    else
      (Pool.branches u.states 4 { size := 10000, usage := u.addStates 1 } seqs).2.usage

/-! ### Choices among literals -/

/-- Literals split where one ends: later ones do not share states with those before. The
number of ends, and the parts between them that are not empty. -/
def splitAtEnds (literals : List (List Nat)) : Nat × List (List (List Nat)) :=
  let (ends, parts, part) := literals.foldl (fun (ends, parts, part) l =>
    match l, parts, part with
    | [], [], [] => (1, [], [])
    | [], parts, [] => (ends + 1, parts, [])
    | [], parts, part => (ends + 1, part.reverse :: parts, [])
    | l, parts, part => (ends, parts, l :: part)) (0, ([] : List (List (List Nat))), [])
  (ends, if part.isEmpty then parts else part.reverse :: parts)

/-- What follows each first byte, in the order of the literals. -/
def tailsByHead (literals : List (List Nat)) : List (Nat × List (List Nat)) :=
  literals.foldr (fun l groups => match l with
    | [] => groups
    | b :: tail =>
      match groups.find? (·.1 == b) with
      | some (_, tails) => (b, tail :: tails) :: groups.filter (·.1 != b)
      | none => (b, [tail]) :: groups) []

/-- The states of a tree of literals, taking nodes off a list of literals still to follow. -/
def buildTree : Nat → List (List (List Nat)) → Usage → Usage
  | 0, _, u => u
  | _, [], u => u
  | fuel + 1, node :: nodes, u =>
    if u.exceeds then u
    else
      let (ends, parts) := splitAtEnds node
      let groups := parts.map tailsByHead
      let u := (u.addStates 1).addAlternatives (parts.length + ends)
      let u := groups.foldl (fun u g =>
        if g.length = 1 then u.addStates 1 else u.addRanges g.length) u
      let inner := groups.flatMap fun g =>
        (g.map Prod.snd).filter fun tails => tails.any fun t => !t.isEmpty
      buildTree fuel (inner ++ nodes) u

def buildLiterals (backwards : Bool) (literals : List (List Char)) (u : Usage) : Usage :=
  let literals := literals.map fun cs =>
    if backwards then (Utf8.bytesOf cs).reverse else Utf8.bytesOf cs
  buildTree ((literals.map List.length).foldl (· + ·) 0 + 1) [literals] (u.addStates 1)

/-! ### Expressions -/

def literals? (rs : List Regex) : Option (List (List Char)) :=
  rs.mapM fun
    | literal cs => some cs
    | _ => none

/-- Several copies in a row; nothing at all takes one state. -/
def buildTimes (f : Usage → Built) : Nat → Usage → Built
  | 0, u => ⟨u.addStates 1, false⟩
  | 1, u => f u
  | n + 2, u => if u.exceeds then ⟨u, false⟩ else buildTimes f (n + 1) (f u).joined

/-- Copies of which each may be the last. -/
def buildOptional (f : Usage → Built) : Nat → Built → Built
  | 0, b => b
  | n + 1, b =>
    if b.usage.exceeds then b
    else
      let inner := f (b.joined.addStates 1)
      buildOptional f n { inner with usage := inner.usage.addAlternatives 2 }

/-- A repetition, which compiles its part as often as its bounds ask. -/
def buildRepeated (min : Nat) (max : Option Nat) (canBeEmpty : Bool) (f : Usage → Built)
    (u : Usage) : Built :=
  match min, max with
  | 0, some 1 => ⟨((f (u.addStates 1)).joined.addAlternatives 2).addStates 1, false⟩
  | 0, none =>
    if canBeEmpty then ⟨((f u).joined.addStates 3).addAlternatives 4, false⟩
    else ⟨(f (u.addStates 1)).joined.addAlternatives 1, true⟩
  | 1, none => ⟨((f u).joined.addStates 1).addAlternatives 1, true⟩
  | min, none =>
    let last := f (buildTimes f (min - 1) u).joined
    ⟨(last.joined.addStates 1).addAlternatives 1, true⟩
  | min, some max =>
    let b := buildTimes f min u
    if min = max then b
    else
      let inner := buildOptional f (max - min) { b with usage := b.usage.addStates 1 }
      ⟨inner.joined, false⟩

mutual

/-- Adds the states of an expression. Once the limit is exceeded nothing more is added. -/
def build (backwards : Bool) (r : Regex) (u : Usage) : Built :=
  if u.exceeds then ⟨u, false⟩
  else match r with
    | empty | look _ => ⟨u.addStates 1, false⟩
    | literal cs => ⟨u.addStates (Utf8.length cs), false⟩
    | chars s => ⟨buildSet backwards s u, false⟩
    | capture _ r =>
      if backwards then build backwards r u
      else ⟨(build backwards r (u.addStates 1)).joined.addStates 1, false⟩
    | concat rs => if backwards then buildBackwards rs u else buildForwards rs u
    | alt rs =>
      match literals? rs with
      | some ls => ⟨buildLiterals backwards ls u, false⟩
      | none => ⟨buildChoice backwards 0 rs u, false⟩
    | repeated min max _ r =>
      buildRepeated min max (!(r.leastLength.any (0 < ·))) (build backwards r) u

def buildForwards : List Regex → Usage → Built
  | [], u => ⟨u.addStates 1, false⟩
  | [r], u => build false r u
  | r :: rest, u => buildForwards rest (build false r u).joined

def buildBackwards : List Regex → Usage → Built
  | [], u => ⟨u.addStates 1, false⟩
  | [r], u => build true r u
  | r :: rest, u => build true r (buildBackwards rest u).joined

/-- Alternatives; the choice itself and its end come after the first two, `n` of which
have been built. -/
def buildChoice (backwards : Bool) (n : Nat) : List Regex → Usage → Usage
  | [], u => u
  | r :: rest, u =>
    let u := (build backwards r u).joined.addAlternatives 1
    buildChoice backwards (n + 1) rest (if n = 1 then u.addStates 2 else u)

end

/-- Every match stands at the start of the text, or with `backwards` at its end. -/
def isAnchored (backwards : Bool) : Regex → Bool
  | look l => l = if backwards then .textEnd else .textStart
  | capture _ r => r.isAnchored backwards
  | concat rs => if backwards then anchoredBefore rs else anchoredAfter rs
  | alt rs => anchoredAll rs
  | repeated min _ _ r => 0 < min && r.isAnchored backwards
  | _ => false
where
  anchoredAfter : List Regex → Bool
    | [] => false
    | r :: rest => r.isAnchored backwards || (r.isBlank && anchoredAfter rest)
  anchoredBefore : List Regex → Bool
    | [] => false
    | r :: rest => anchoredBefore rest || (rest.all isBlank && r.isAnchored backwards)
  anchoredAll : List Regex → Bool
    | [] => true
    | r :: rest => r.isAnchored backwards && anchoredAll rest

/-- The whole automaton: a way in at every place of the text unless the expression is
anchored, the expression as a group, and its final state. -/
def program (backwards : Bool) (r : Regex) : Usage :=
  let start : Usage :=
    if r.isAnchored backwards then { states := 1 } else { states := 3, extra := 16 }
  let body := if backwards then build true r start else build false (capture 0 r) start
  body.joined.addStates 1

/-- No part is a group that is kept or a condition on a place. -/
def isPlain : Regex → Bool
  | empty | literal _ | chars _ => true
  | look _ | capture _ _ => false
  | repeated _ _ _ r => r.isPlain
  | concat rs | alt rs => plainAll rs
where
  plainAll : List Regex → Bool
    | [] => true
    | r :: rest => r.isPlain && plainAll rest

/-- A choice among very many literals. -/
def isDictionary : Regex → Bool
  | alt rs => 3000 ≤ rs.length && (literals? rs).isSome
  | _ => false

/-- Neither automaton is too large, or none is needed since all matches are known. -/
def fits (r : Regex) : Bool :=
  (!(r.program false).exceeds && !(r.program true).exceeds)
    || (r.isPlain && (r.isDictionary || r.hasKnownMatches))

end DocBase.Regex
