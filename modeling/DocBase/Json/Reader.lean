import DocBase.Json.Basic

/-! Reading JSON text. Each reader takes the characters ahead and gives what it
read with the characters left. -/
namespace DocBase.Json

/-- Arrays and objects may lie inside one another this deep. -/
def depthLimit : Nat := 127

def isBlank (c : Char) : Bool := c = ' ' || c = '\n' || c = '\t' || c = '\r'

def skipBlank (cs : List Char) : List Char := cs.dropWhile isBlank

def simpleEscape : Char → Option Char
  | '"' => some '"'
  | '\\' => some '\\'
  | '/' => some '/'
  | 'b' => some '\x08'
  | 'f' => some '\x0c'
  | 'n' => some '\n'
  | 'r' => some '\r'
  | 't' => some '\t'
  | _ => none

/-- The character that an escape stands for, and how many characters follow the
backslash. A unit of a surrogate pair counts only together with its partner. -/
def unescape : List Char → Option (Char × Nat)
  | 'u' :: a :: b :: c :: d :: rest =>
    match Text.natOfHex? [a, b, c, d] with
    | none => none
    | some u =>
      if 0xD800 ≤ u ∧ u < 0xDC00 then
        match rest with
        | '\\' :: 'u' :: a :: b :: c :: d :: _ =>
          match Text.natOfHex? [a, b, c, d] with
          | some v =>
            if 0xDC00 ≤ v ∧ v < 0xE000 then
              some (Char.ofNat (0x10000 + (u - 0xD800) * 0x400 + (v - 0xDC00)), 11)
            else none
          | none => none
        | _ => none
      else if 0xDC00 ≤ u ∧ u < 0xE000 then none
      else some (Char.ofNat u, 5)
  | c :: _ => (simpleEscape c).map (·, 1)
  | [] => none

/-- The rest of a string after its opening quote, behind the characters in `acc`. -/
def readString (acc : List Char) : List Char → Option (List Char × List Char)
  | '"' :: rest => some (acc.reverse, rest)
  | '\\' :: rest =>
    match unescape rest with
    | some (c, n) => readString (c :: acc) (rest.drop n)
    | none => none
  | c :: rest => if c.toNat < 32 then none else readString (c :: acc) rest
  | [] => none
termination_by cs => cs.length
decreasing_by all_goals simp only [List.length_cons, List.length_drop]; omega

def natOfDigits (ds : List Char) : Nat := ds.foldl (fun n c => n * 10 + (c.toNat - '0'.toNat)) 0

/-- At least one digit. -/
def readDigits (cs : List Char) : Option (List Char × List Char) :=
  match cs.takeWhile Char.isDigit with
  | [] => none
  | ds => some (ds, cs.dropWhile Char.isDigit)

/-- No digits at all, or a point and at least one digit. -/
def readFraction : List Char → Option (List Char × List Char)
  | '.' :: rest => readDigits rest
  | cs => some ([], cs)

def readExponent : List Char → Option (Option Int × List Char)
  | c :: rest =>
    if c = 'e' ∨ c = 'E' then
      let (negative, rest) := match rest with
        | '-' :: r => (true, r)
        | '+' :: r => (false, r)
        | r => (false, r)
      (readDigits rest).map fun (ds, r) =>
        (some (if negative then -(natOfDigits ds : Int) else natOfDigits ds), r)
    else some (none, c :: rest)
  | [] => some (none, [])

/-- Whole numbers in the range of 64-bit words stay whole; all others, and minus
zero, become the nearest floating-point number, which has to be finite. -/
def number (negative : Bool) (whole fraction : List Char) (exponent : Option Int) : Option Json :=
  let n := natOfDigits whole
  if fraction.isEmpty ∧ exponent.isNone ∧ !negative ∧ n < UInt64.size then some (int n)
  else if fraction.isEmpty ∧ exponent.isNone ∧ negative ∧ 0 < n
      ∧ n ≤ Int64.minValue.toInt.natAbs then some (int (-n))
  else
    let x := Binary64.ofDecimal negative (natOfDigits (whole ++ fraction))
      (exponent.getD 0 - fraction.length)
    if x.isFinite then some (float x) else none

def readNumber (cs : List Char) : Option (Json × List Char) := do
  let (negative, cs) := match cs with
    | '-' :: r => (true, r)
    | r => (false, r)
  let (whole, cs) ← readDigits cs
  if 1 < whole.length ∧ whole.head? = some '0' then none
  let (fraction, cs) ← readFraction cs
  let (exponent, cs) ← readExponent cs
  let j ← number negative whole fraction exponent
  return (j, cs)

mutual

/-- A value. `depth` counts the containers that may still open; `fuel` bounds the steps
and never runs out when it exceeds twice the length of the text. -/
def readValue : Nat → Nat → List Char → Option (Json × List Char)
  | 0, _, _ => none
  | fuel + 1, depth, cs =>
    match skipBlank cs, depth with
    | 'n' :: 'u' :: 'l' :: 'l' :: r, _ => some (null, r)
    | 't' :: 'r' :: 'u' :: 'e' :: r, _ => some (bool true, r)
    | 'f' :: 'a' :: 'l' :: 's' :: 'e' :: r, _ => some (bool false, r)
    | '"' :: r, _ => (readString [] r).map fun (s, r) => (str (String.ofList s), r)
    | '[' :: r, depth + 1 =>
      match skipBlank r with
      | ']' :: r => some (arr [], r)
      | r => (readItems fuel depth r).map fun (vs, r) => (arr vs, r)
    | '\x7b' :: r, depth + 1 =>
      match skipBlank r with
      | '\x7d' :: r => some (obj [], r)
      | r => (readMembers fuel depth r).map fun (ms, r) => (obj ms, r)
    | cs, _ => readNumber cs

def readItems : Nat → Nat → List Char → Option (List Json × List Char)
  | 0, _, _ => none
  | fuel + 1, depth, cs =>
    match readValue fuel depth cs with
    | none => none
    | some (v, r) =>
      match skipBlank r with
      | ',' :: r => (readItems fuel depth r).map fun (vs, r) => (v :: vs, r)
      | ']' :: r => some ([v], r)
      | _ => none

def readMembers : Nat → Nat → List Char → Option (List (String × Json) × List Char)
  | 0, _, _ => none
  | fuel + 1, depth, cs =>
    match skipBlank cs with
    | '"' :: r =>
      match readString [] r with
      | none => none
      | some (k, r) =>
        match skipBlank r with
        | ':' :: r =>
          match readValue fuel depth r with
          | none => none
          | some (v, r) =>
            match skipBlank r with
            | ',' :: r =>
              (readMembers fuel depth r).map fun (ms, r) => ((String.ofList k, v) :: ms, r)
            | '\x7d' :: r => some ([(String.ofList k, v)], r)
            | _ => none
        | _ => none
    | _ => none

end

/-- The one value that the text holds. -/
def parse (text : String) : Option Json :=
  let cs := text.toList
  match readValue (2 * cs.length + 2) depthLimit cs with
  | some (v, r) => if (skipBlank r).isEmpty then some v else none
  | none => none

end DocBase.Json
