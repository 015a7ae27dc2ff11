import DocBase.Json.Reader
import DocBase.Toml.Basic

/-! Numbers, dates and times in TOML text. -/
namespace DocBase.Toml

/-- Digits that single underscores may part. -/
def readDigits (isDigit : Char → Bool) : List Char → Option (List Char × List Char)
  | [] => none
  | c :: cs => if isDigit c then some (more c cs) else none
where
  more (c : Char) : List Char → List Char × List Char
    | '_' :: d :: cs =>
      if isDigit d then let (ds, r) := more d cs; (c :: ds, r) else ([c], '_' :: d :: cs)
    | d :: cs => if isDigit d then let (ds, r) := more d cs; (c :: ds, r) else ([c], d :: cs)
    | [] => ([c], [])

def readSign : List Char → Option Bool × List Char
  | '+' :: r => (some false, r)
  | '-' :: r => (some true, r)
  | r => (none, r)

/-- Decimal digits without needless zeros in front. -/
def readWhole : List Char → Option (List Char × List Char)
  | '0' :: r => some (['0'], r)
  | cs => readDigits Char.isDigit cs

def fits (n : Int) : Option Toml :=
  if Int64.minValue.toInt ≤ n ∧ n ≤ Int64.maxValue.toInt then some (.int n) else none

def readRadix (radix : Nat) (cs : List Char) : Option (Toml × List Char) := do
  let isDigit (c : Char) := (Text.hexValue c).any (· < radix)
  let (ds, r) ← readDigits isDigit cs
  let n := ds.foldl (fun n c => n * radix + (Text.hexValue c).getD 0) 0
  return (← fits n, r)

def readFraction : List Char → Option (List Char × List Char)
  | '.' :: r => readDigits Char.isDigit r
  | cs => some ([], cs)

def readExponent : List Char → Option (Option Int × List Char)
  | c :: r =>
    if c = 'e' ∨ c = 'E' then
      let (negative, r) := readSign r
      (readDigits Char.isDigit r).map fun (ds, r) =>
        let n : Int := Json.natOfDigits ds
        (some (if negative = some true then -n else n), r)
    else some (none, c :: r)
  | [] => some (none, [])

/-- Whole if there is neither a fraction nor an exponent. Too large a number does not
become infinity, but its negative does. -/
def readDecimal (cs : List Char) : Option (Toml × List Char) := do
  let (sign, cs) := readSign cs
  let negative := sign == some true
  let (whole, cs) ← readWhole cs
  let (fraction, cs) ← readFraction cs
  let (exponent, cs) ← readExponent cs
  let n := Json.natOfDigits whole
  if fraction.isEmpty ∧ exponent.isNone then return (← fits (if negative then -n else n), cs)
  let x := Binary64.ofDecimal negative (Json.natOfDigits (whole ++ fraction))
    (exponent.getD 0 - fraction.length)
  if !x.isFinite ∧ !negative then none
  return (.float x, cs)

def readSpecial (cs : List Char) : Option (Toml × List Char) :=
  let (sign, cs) := readSign cs
  let negative := sign == some true
  match cs with
  | 'i' :: 'n' :: 'f' :: r => some (.float (if negative then .neg .infinity else .infinity), r)
  | 'n' :: 'a' :: 'n' :: r => some (.float (if negative then .neg .nan else .nan), r)
  | _ => none

/-- Exactly so many digits. -/
def readField (count : Nat) (cs : List Char) : Option (Nat × List Char) :=
  let ds := cs.take count
  if ds.length = count ∧ ds.all Char.isDigit then some (Json.natOfDigits ds, cs.drop count)
  else none

def readMark (c : Char) : List Char → Option (List Char)
  | d :: r => if c = d then some r else none
  | [] => none

def isLeap (year : Nat) : Bool := year % 4 = 0 && (year % 100 ≠ 0 || year % 400 = 0)

def daysIn (year month : Nat) : Nat :=
  if month = 2 then (if isLeap year then 29 else 28)
  else if [4, 6, 9, 11].contains month then 30 else 31

def readDate (cs : List Char) : Option (List Char) := do
  let (year, cs) ← readField 4 cs
  let (month, cs) ← readField 2 (← readMark '-' cs)
  let (day, cs) ← readField 2 (← readMark '-' cs)
  if month < 1 ∨ 12 < month ∨ day < 1 ∨ daysIn year month < day then none
  return cs

def readClock (cs : List Char) : Option (List Char) := do
  let (hour, cs) ← readField 2 cs
  let (minute, cs) ← readField 2 (← readMark ':' cs)
  if 23 < hour ∨ 59 < minute then none
  return cs

/-- A second may be a leap second. -/
def readTime (cs : List Char) : Option (List Char) := do
  let (second, cs) ← readField 2 (← readMark ':' (← readClock cs))
  if 60 < second then none
  match cs with
  | '.' :: c :: r => if c.isDigit then return r.dropWhile Char.isDigit else none
  | cs => return cs

def readOffset (cs : List Char) : List Char :=
  match cs with
  | 'Z' :: r => r
  | 'z' :: r => r
  | '+' :: r => (readClock r).getD cs
  | '-' :: r => (readClock r).getD cs
  | cs => cs

/-- A date, perhaps with a time and an offset, or a time alone. -/
def readMoment (cs : List Char) : Option (Toml × List Char) := do
  let r ← match readDate cs with
    | none => readTime cs
    | some r =>
      match r with
      | c :: t =>
        if c = 'T' ∨ c = 't' ∨ c = ' ' then some (((readTime t).map readOffset).getD r) else some r
      | [] => some r
  return (.moment (String.ofList (cs.take (cs.length - r.length))), r)

def readNumber (cs : List Char) : Option (Toml × List Char) :=
  match readMoment cs with
  | some found => some found
  | none =>
    match cs with
    | '0' :: 'x' :: r => readRadix 16 r
    | '0' :: 'o' :: r => readRadix 8 r
    | '0' :: 'b' :: r => readRadix 2 r
    | cs => (readSpecial cs).or (readDecimal cs)

end DocBase.Toml
