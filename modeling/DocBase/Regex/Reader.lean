import DocBase.Regex.Set
import DocBase.Json.Reader
import DocBase.Unicode.Current

/-! Reading the text of a regular expression. Every reader fails as a whole on a
text that is not well formed. -/
namespace DocBase.Regex

/-- How deep groups, repetitions, sets, sequences and choices may lie in one another. -/
def depthLimit : Nat := 250

/-- What is ahead, the flags in force, the group names taken and the groups opened. -/
structure Cursor where
  rest : List Char
  flags : Flags := {}
  names : List String := []
  groups : Nat := 0

namespace Cursor

def skip (c : Cursor) : Cursor := { c with rest := skipSpace c.flags.spaced c.rest }

def moveTo (c : Cursor) (rest : List Char) : Cursor := { c with rest }

end Cursor

def isNameChar (first : Bool) (c : Char) : Bool :=
  c = '_' || Unicode.Current.alphabetic.contains c.toNat
    || (!first && (c = '.' || c = '[' || c = ']' || Unicode.Current.number.contains c.toNat))

/-- The name of a group up to its `>`. -/
def readGroupName (cs : List Char) : Option (String × List Char) :=
  let name := cs.takeWhile (· ≠ '>')
  match cs.dropWhile (· ≠ '>'), name with
  | _ :: rest, c :: more =>
    if isNameChar true c ∧ more.all (isNameChar false) then some (String.ofList name, rest)
    else none
  | _, _ => none

/-- A number of a counted repetition, with blanks around it. -/
def readCount (spaced : Bool) (cs : List Char) : Option (Nat × List Char) :=
  let (ds, rest) := takeSpaced spaced Char.isDigit cs.length (cs.dropWhile isBlankChar)
  let n := Json.natOfDigits ds
  if ds.isEmpty ∨ UInt32.size ≤ n then none
  else some (n, skipSpace spaced (rest.dropWhile isBlankChar))

/-- The bounds of a counted repetition after its opening brace. -/
def readCounts (spaced : Bool) (cs : List Char) : Option ((Nat × Option Nat) × List Char) := do
  let (lo, rest) ← readCount spaced (skipSpace spaced cs)
  match rest with
  | '\x7d' :: rest => return ((lo, some lo), rest)
  | ',' :: rest =>
    match skipSpace spaced rest with
    | '\x7d' :: rest => return ((lo, none), rest)
    | rest =>
      let (hi, rest) ← readCount spaced rest
      match rest with
      | '\x7d' :: rest => if lo ≤ hi then return ((lo, some hi), rest) else none
      | _ => none
  | _ => none

/-- A character by itself. In ASCII mode only letters of ASCII have two cases. -/
def ofChar (f : Flags) (c : Char) : Regex :=
  if f.caseless ∧ ¬ (f.ascii ∧ 127 < c.toNat) then mkChars (folded f [(c.toNat, c.toNat)])
  else literal [c]

/-- An escape by itself. Text is Unicode, so that a byte beyond ASCII is no character. -/
def ofEscape (f : Flags) : Escape → Option Regex
  | .char c byte => if f.ascii ∧ byte ∧ 127 < c.toNat then none else some (ofChar f c)
  | .set s => some (mkChars s)
  | .look l => some (look l)

def startLook (f : Flags) : Look :=
  if !f.multiLine then .textStart else if f.crlf then .crlfLineStart else .lineStart

def endLook (f : Flags) : Look :=
  if !f.multiLine then .textEnd else if f.crlf then .crlfLineEnd else .lineEnd

def dot (f : Flags) : Option Regex :=
  if f.ascii then none
  else if f.dotAll then some (chars .scalars)
  else some (chars (.compl (if f.crlf then [(10, 10), (13, 13)] else [(10, 10)])))

/-- How a group opens: as flags for what follows, or around a body of its own, which has
a number if the group keeps its part of the text. -/
inductive Opening
  | flags (f : Flags)
  | body (index : Option Nat) (f : Flags)

/-- What follows an opening parenthesis. -/
def readOpening (c : Cursor) : Option (Opening × Cursor) :=
  let kept (c : Cursor) : Option (Opening × Cursor) :=
    some (.body (some (c.groups + 1)) c.flags, { c with groups := c.groups + 1 })
  let named (r : List Char) : Option (Opening × Cursor) := do
    let (name, r) ← readGroupName r
    if c.names.contains name then none
    kept { c with rest := r, names := name :: c.names }
  match skipSpace c.flags.spaced c.rest with
  | '?' :: 'P' :: '<' :: r => named r
  | '?' :: '<' :: r =>
    match r with
    | '=' :: _ | '!' :: _ => none
    | r => named r
  | '?' :: ')' :: _ => none
  | '?' :: r =>
    match readFlags true [] c.flags r with
    | some (f, ')' :: r) => some (.flags f, { c with rest := r, flags := f })
    | some (f, ':' :: r) => some (.body none f, c.moveTo r)
    | _ => none
  | _ => kept c

/-- An expression with the depth of its text. -/
structure Part where
  regex : Regex
  depth : Nat := 0

/-- The last item that a repetition can take, and the items before it; flags and
nothing at all cannot be repeated. -/
def popItem : List (Option Part) → Option (Part × List (Option Part))
  | some p :: rest => some (p, rest)
  | _ => none

/-- The question mark of a repetition that prefers less, and what follows. -/
def readLazy : List Char → Bool × List Char
  | '?' :: r => (true, r)
  | cs => (false, cs)

/-- A branch of items, the last in front. -/
def branch (items : List (Option Part)) : Part where
  regex := mkConcat (items.reverse.filterMap (·.map Part.regex))
  depth := depthOf (items.map fun p => (p.map Part.depth).getD 0)

/-- A choice of branches, the last in front. -/
def choice (branches : List Part) : Part where
  regex := mkAlt (branches.reverse.map Part.regex)
  depth := depthOf (branches.map Part.depth)

/-- Alternatives up to the end of the text or a closing parenthesis, which is left
standing. `done` holds the branches already read and `items` the present one, both
with the latest in front. -/
def readBody : Nat → List Part → List (Option Part) → Cursor → Option (Part × Cursor)
  | 0, _, _, _ => none
  | fuel + 1, done, items, c =>
    let c := c.skip
    let add (r : Regex) (rest : List Char) : Option (Part × Cursor) :=
      readBody fuel done (some ⟨r, 0⟩ :: items) (c.moveTo rest)
    let repeat_ (bounds : Nat × Option Nat) (rest : List Char) : Option (Part × Cursor) :=
      (popItem items).bind fun (p, items) =>
        let (lazy, rest) := readLazy rest
        let r := mkRepeated bounds.1 bounds.2 (lazy == c.flags.swapGreed) p.regex
        readBody fuel done (some ⟨r, p.depth + 1⟩ :: items) (c.moveTo rest)
    match c.rest with
    | [] => some (choice (branch items :: done), c)
    | ')' :: _ => some (choice (branch items :: done), c)
    | '|' :: rest => readBody fuel (branch items :: done) [] (c.moveTo rest)
    | '?' :: rest => repeat_ (0, some 1) rest
    | '*' :: rest => repeat_ (0, none) rest
    | '+' :: rest => repeat_ (1, none) rest
    | '\x7b' :: rest =>
      (readCounts c.flags.spaced rest).bind fun (b, rest) =>
        repeat_ b (skipSpace c.flags.spaced rest)
    | '[' :: rest =>
      (readSet c.flags rest).bind fun (s, depth, rest) =>
        readBody fuel done (some ⟨mkChars s, depth⟩ :: items) (c.moveTo rest)
    | '\\' :: rest =>
      (readEscape c.flags rest).bind fun (e, rest) => (ofEscape c.flags e).bind (add · rest)
    | '.' :: rest => (dot c.flags).bind (add · rest)
    | '^' :: rest => add (look (startLook c.flags)) rest
    | '$' :: rest => add (look (endLook c.flags)) rest
    | '(' :: rest =>
      match readOpening (c.moveTo rest) with
      | none => none
      | some (.flags _, c) => readBody fuel done (none :: items) c
      | some (.body index f, inner) =>
        match readBody fuel [] [] { inner with flags := f } with
        | some (p, after) =>
          match after.rest with
          | ')' :: rest =>
            let r := match index with
              | some i => capture i p.regex
              | none => p.regex
            readBody fuel done (some ⟨r, p.depth + 1⟩ :: items)
              { after with rest, flags := c.flags }
          | _ => none
        | none => none
    | ch :: rest => add (ofChar c.flags ch) rest

/-- The expression that a text spells, if it is well formed and not too deep. -/
def parse (source : String) : Option Regex :=
  let cs := source.toList
  match readBody (cs.length + 1) [] [] { rest := cs } with
  | some (p, c) => if c.rest.isEmpty ∧ p.depth ≤ depthLimit then some p.regex else none
  | none => none

end DocBase.Regex
