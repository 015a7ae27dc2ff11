import DocBase.Unicode.Property.Listed

/-! The flags under which a part of a pattern is read, and the blanks that one of them
leaves out. -/
namespace DocBase.Regex

structure Flags where
  caseless : Bool := false
  multiLine : Bool := false
  dotAll : Bool := false
  crlf : Bool := false
  swapGreed : Bool := false
  ascii : Bool := false
  spaced : Bool := false
  deriving DecidableEq

def flagLetter? (c : Char) (on : Bool) (f : Flags) : Option Flags :=
  match c with
  | 'i' => some { f with caseless := on }
  | 'm' => some { f with multiLine := on }
  | 's' => some { f with dotAll := on }
  | 'R' => some { f with crlf := on }
  | 'U' => some { f with swapGreed := on }
  | 'u' => some { f with ascii := !on }
  | 'x' => some { f with spaced := on }
  | _ => none

/-- Flag letters up to the closing `:` or `)`. No letter comes twice, and one
hyphen at most turns the letters after it off. -/
def readFlags (on : Bool) (seen : List Char) (f : Flags) : List Char → Option (Flags × List Char)
  | [] => none
  | c :: cs =>
    if c = ':' ∨ c = ')' then
      if seen.head? = some '-' then none else some (f, c :: cs)
    else if seen.contains c then none
    else if c = '-' then readFlags false ('-' :: seen) f cs
    else (flagLetter? c on f).bind fun f => readFlags on (c :: seen) f cs

def isBlankChar (c : Char) : Bool := Unicode.Property.whiteSpace.contains c.toNat

/-- Drops blanks and comments, which stand for nothing when `spaced` is set. -/
def skipSpace (spaced : Bool) : List Char → List Char
  | cs => if spaced then go false cs else cs
where
  go (comment : Bool) : List Char → List Char
    | [] => []
    | c :: cs =>
      if comment then go (c != '\n') cs
      else if c = '#' then go true cs
      else if isBlankChar c then go false cs
      else c :: cs

/-- Characters that pass a test, at most so many of them, and what follows. Blanks and
comments after each are dropped. -/
def takeSpaced (spaced : Bool) (p : Char → Bool) : Nat → List Char → List Char × List Char
  | n + 1, c :: cs =>
    if p c then
      let (taken, rest) := takeSpaced spaced p n (skipSpace spaced cs)
      (c :: taken, rest)
    else ([], c :: cs)
  | _, cs => ([], cs)

end DocBase.Regex
