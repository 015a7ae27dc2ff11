import DocBase.Regex.Reader
import DocBase.Regex.Size

/-! Matching. A set of places in a text is a number whose bit `i` stands for the place
before character `i`; an expression takes the places where it may begin to those where
it may end. -/
namespace DocBase.Regex

abbrev Places := Nat

namespace Places

def but (s t : Places) : Places := s ^^^ (s &&& t)

/-- The places one character further on. -/
def shift (s : Places) : Places := s <<< 1

end Places

/-- A text by its characters: those that occur, each with the places before it. -/
structure Letters where
  size : Nat := 0
  places : List (Char × Places) := []

namespace Letters

/-- Notes a character at one more place. -/
def note (c : Char) (i : Nat) : List (Char × Places) → List (Char × Places)
  | [] => [(c, 1 <<< i)]
  | (d, s) :: rest => if d = c then (d, s ||| 1 <<< i) :: rest else (d, s) :: note c i rest

def push (l : Letters) (c : Char) : Letters := ⟨l.size + 1, note c l.size l.places⟩

def ofText (text : List Char) : Letters := text.foldl push {}

def all (l : Letters) : Places := 1 <<< (l.size + 1) - 1

/-- The places with a character after them that passes a test. -/
def before (l : Letters) (p : Char → Bool) : Places :=
  l.places.foldl (fun s (c, t) => if p c then s ||| t else s) 0

def behind (l : Letters) (p : Char → Bool) : Places := (l.before p).shift

end Letters

def isWord (ascii : Bool) (c : Char) : Bool :=
  if c.toNat < 128 then asciiWords.contains c.toNat else !ascii && unicodeWords.contains c.toNat

/-- The places where a condition holds. -/
def placesOf (t : Letters) : Look → Places
  | .textStart => 1
  | .textEnd => 1 <<< t.size
  | .lineStart => 1 ||| t.behind (· == '\n')
  | .lineEnd => 1 <<< t.size ||| t.before (· == '\n')
  | .crlfLineStart =>
    1 ||| t.behind (· == '\n') ||| (t.behind (· == '\r')).but (t.before (· == '\n'))
  | .crlfLineEnd =>
    1 <<< t.size ||| t.before (· == '\r') ||| (t.before (· == '\n')).but (t.behind (· == '\r'))
  | .wordBoundary a => t.behind (isWord a) ^^^ t.before (isWord a)
  | .notWordBoundary a => t.all.but (t.behind (isWord a) ^^^ t.before (isWord a))
  | .wordStart a => (t.before (isWord a)).but (t.behind (isWord a))
  | .wordEnd a => (t.behind (isWord a)).but (t.before (isWord a))
  | .wordStartHalf a => t.all.but (t.behind (isWord a))
  | .wordEndHalf a => t.all.but (t.before (isWord a))

/-- The places after one character that passes a test. -/
def step (t : Letters) (p : Char → Bool) (s : Places) : Places :=
  if s = 0 then 0 else Places.shift (s &&& t.before p)

/-- Applies `f` for `n` times, as long as places are left. -/
def times (f : Places → Places) : Nat → Places → Places
  | 0, s => s
  | n + 1, s => if s = 0 then 0 else times f n (f s)

/-- All places reached by applying `f` at most `n` times. -/
def upTo (f : Places → Places) : Nat → Places → Places
  | 0, s => s
  | n + 1, s =>
    let reached := f s ||| s
    if reached = s then s else upTo f n reached

mutual

/-- The places where a match may end that begins at one of `s`. -/
def ends (t : Letters) : Regex → Places → Places
  | empty, s => s
  | literal cs, s => cs.foldl (fun s c => step t (· == c) s) s
  | chars set, s => step t (fun c => set.contains c.toNat) s
  | look l, s => s &&& placesOf t l
  | capture _ r, s => ends t r s
  | concat rs, s => endsAll t rs s
  | alt rs, s => endsAny t rs s
  | repeated min max _ r, s =>
    let more := match max with
      | some max => max - min
      | none => t.size + 1
    upTo (ends t r) more (times (ends t r) min s)

def endsAll (t : Letters) : List Regex → Places → Places
  | [], s => s
  | r :: rest, s => endsAll t rest (ends t r s)

def endsAny (t : Letters) : List Regex → Places → Places
  | [], _ => 0
  | r :: rest, s => ends t r s ||| endsAny t rest s

end

/-- Some part of the text matches. -/
def isMatch (r : Regex) (text : String) : Bool :=
  let t := Letters.ofText text.toList
  ends t r t.all != 0

/-- The expression of a source that is well formed and not too large. -/
def compile? (source : String) : Option Regex :=
  (parse source).bind fun r => if r.fits then some r else none

end DocBase.Regex
