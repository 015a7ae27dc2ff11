import DocBase.Regex.Basic

/-! What every match of an expression begins with. A few beginnings that are whole matches
can be looked for as they stand, without an automaton. -/
namespace DocBase.Regex

/-- Bytes that a match may begin with; if `whole`, they are all of it. -/
structure Beginning where
  bytes : List Nat
  whole : Bool
  deriving DecidableEq

/-- In the order of preference; `none` stands for too many to list. -/
abbrev Beginnings := Option (List Beginning)

namespace Beginning

def cut (n : Nat) (b : Beginning) : Beginning :=
  if b.bytes.length ≤ n then b else ⟨b.bytes.take n, false⟩

def partly (b : Beginning) : Beginning := { b with whole := false }

/-- Equal neighbours become one, which is whole if both are. -/
def dedup (bs : List Beginning) : List Beginning :=
  bs.foldr (fun b rest => match rest with
    | c :: rest =>
      if b.bytes = c.bytes then ⟨b.bytes, b.whole && c.whole⟩ :: rest else b :: c :: rest
    | [] => [b]) []

end Beginning

namespace Beginnings

open Beginning

/-- Limits on the characters of a set, the rounds of a repetition, the length of each
beginning and their number. -/
def setLimit : Nat := 10

def roundLimit : Nat := 10

def lengthLimit : Nat := 100

def countLimit : Nat := 250

def nothing : Beginnings := some [⟨[], true⟩]

def partly (bs : Beginnings) : Beginnings := bs.map (·.map Beginning.partly)

def cut (n : Nat) (bs : Beginnings) : Beginnings := bs.map (·.map (Beginning.cut n))

/-- No beginning is a whole match, so that what follows makes no difference. -/
def isOpen (bs : Beginnings) : Bool := bs.all fun bs => bs.all fun b => !b.whole

/-- Every beginning is a whole match. -/
def isWhole (bs : Beginnings) : Bool := bs.any fun bs => bs.all fun b => b.whole

def tooMany (f : Nat → Nat → Nat) (as bs : Beginnings) : Bool :=
  match as, bs with
  | some as, some bs => countLimit < f as.length bs.length
  | _, _ => false

/-- Whole beginnings go on with each of `bs`. -/
def append (as bs : Beginnings) : Beginnings :=
  let bs := if tooMany (· * ·) as bs then none else bs
  cut lengthLimit <| match as, bs with
    | none, _ => none
    | some as, none =>
      if as.any (·.bytes.isEmpty) then none else some (as.map Beginning.partly)
    | some as, some bs =>
      some <| dedup <| as.flatMap fun a =>
        if a.whole then bs.map fun b => ⟨a.bytes ++ b.bytes, b.whole⟩ else [a]

def join : Beginnings → Beginnings → Beginnings
  | some as, some bs => some (dedup (as ++ bs))
  | _, _ => none

/-- If there are too many, four bytes of each have to do. -/
def union (as bs : Beginnings) : Beginnings :=
  if tooMany (· + ·) as bs then
    let as := (cut 4 as).map dedup
    let bs := (cut 4 bs).map dedup
    if tooMany (· + ·) as bs then none else join as bs
  else join as bs

/-- Goes on with `bs` for `n` rounds, as long as that makes a difference. -/
def rounds (bs : Beginnings) : Nat → Beginnings → Beginnings
  | 0, as => as
  | n + 1, as => if as.isOpen then as else rounds bs n (as.append bs)

def ofSet (s : CodePoints) : Beginnings :=
  if s.size ≤ setLimit then
    some <| s.flatMap fun (lo, hi) =>
      (List.range (hi + 1 - lo)).map fun i => ⟨Utf8.bytes (lo + i), true⟩
  else none

end Beginnings

open Beginnings

/-- The beginnings of all matches. -/
def beginnings : Regex → Beginnings
  | empty | look _ => nothing
  | literal cs => cut lengthLimit (some [⟨Utf8.bytesOf cs, true⟩])
  | chars s => ofSet s
  | capture _ r => r.beginnings
  | concat rs => follow nothing rs
  | alt rs => choices (some []) rs
  | repeated 0 max greedy r =>
    let once := if max = some 1 then r.beginnings else partly r.beginnings
    if greedy then once.union nothing else nothing.union once
  | repeated min max _ r =>
    let bs := rounds r.beginnings (Nat.min min roundLimit) nothing
    if max = some min ∧ min ≤ roundLimit then bs else partly bs
where
  follow (bs : Beginnings) : List Regex → Beginnings
    | [] => bs
    | r :: rest => if bs.isOpen then bs else follow (bs.append r.beginnings) rest
  choices (bs : Beginnings) : List Regex → Beginnings
    | [] => bs
    | r :: rest => if bs.isNone then bs else choices (bs.union r.beginnings) rest

namespace Beginnings

/-- Without those that begin with one before them, which is preferred. -/
def minimal (bs : List Beginning) : List Beginning :=
  let kept := bs.foldl (fun kept b =>
    if kept.any (·.bytes.isPrefixOf b.bytes) then kept else b :: kept) []
  kept.reverse

def sharedBytes : List Beginning → List Nat
  | [] => []
  | b :: rest => rest.foldl (fun shared b =>
      ((shared.zip b.bytes).takeWhile fun (x, y) => x == y).map Prod.fst) b.bytes

/-- Bytes that most texts hold many of. -/
def commonBytes : List Nat := Utf8.bytesOf "\n\r (),-./0129:_abcdefghilmnoprstuvxy|".toList

def isRare (byte : Nat) : Bool := byte < 0x80 && !commonBytes.contains byte

/-- Beginnings that are found nearly everywhere. -/
def isFrequent (b : Beginning) : Bool :=
  match b.bytes with
  | [] => true
  | [byte] => 0xc0 ≤ byte || (Utf8.bytesOf " et".toList).contains byte
  | _ => false

/-- Shortened to so many bytes if there are more of them than `limit`. -/
def shorten (bs : List Beginning) : List (Nat × Nat) → List Beginning
  | [] => bs
  | (n, limit) :: rest =>
    if bs.length ≤ limit then bs else shorten (minimal (bs.map (Beginning.cut n))) rest

/-- Beginnings that are worth looking for: those that share a start are cut down to it, and
many are shortened, unless whole ones would turn into bad ones. -/
def refine (bs : List Beginning) : Beginnings :=
  if bs.any (·.bytes.isEmpty) then none
  else
    let least := minimal bs
    let shared := sharedBytes least
    if 1 < bs.length ∧ shared.length ≤ 3 ∧ (shared.head?.any isRare) then
      some (Beginning.dedup (least.map (Beginning.cut 1)))
    else
      let isFast := least.all (·.whole) ∧ least.length ≤ 16
      let kept :=
        if 4 < shared.length ∨ (1 < shared.length ∧ ¬ isFast) then
          Beginning.dedup (least.map (Beginning.cut shared.length))
        else least
      let short := shorten kept [(5, 10), (4, 10), (3, 64), (2, 64), (1, 10)]
      let isBad := short.any isFrequent
      if kept.all (·.whole) then
        if isBad ∨ short.isEmpty ∨ short.any (·.bytes.length ≤ 2) ∨ 64 < short.length then some kept
        else some short
      else if isBad then none else some short

end Beginnings

/-- Every match is one of a few known texts, none of them empty, which are looked for as
they stand. -/
def hasKnownMatches (r : Regex) : Bool :=
  match r.beginnings.bind refine with
  | some (b :: bs) => (b :: bs).all fun b => b.whole && !b.bytes.isEmpty
  | _ => false

end DocBase.Regex
