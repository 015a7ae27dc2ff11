import DocBase.Toml.Text
import DocBase.Toml.Number

/-! Reading TOML text. -/
namespace DocBase.Toml

mutual

/-- A value. `depth` counts the arrays and tables that may still open, and `fuel` bounds
the steps. -/
def readValue : Nat → Nat → List Char → Option (Toml × List Char)
  | 0, _, _ => none
  | fuel + 1, depth, cs =>
    match cs, depth with
    | 't' :: 'r' :: 'u' :: 'e' :: r, _ => some (.bool true, r)
    | 'f' :: 'a' :: 'l' :: 's' :: 'e' :: r, _ => some (.bool false, r)
    | '"' :: r, _ => (readString ('"' :: r)).map fun (s, r) => (.string s, r)
    | '\'' :: r, _ => (readString ('\'' :: r)).map fun (s, r) => (.string s, r)
    | '[' :: r, depth + 1 => (readItems fuel depth r).map fun (vs, r) => (.array vs, r)
    | '\x7b' :: r, depth + 1 =>
      match skipBlank r with
      | '\x7d' :: r => some (.table [], r)
      | r => (readPairs fuel depth [] r).map fun (es, r) => (.table (closeEntries es), r)
    | cs, _ => readNumber cs

/-- The items that are left of an array; a comma may stand after the last. -/
def readItems : Nat → Nat → List Char → Option (List Toml × List Char)
  | 0, _, _ => none
  | fuel + 1, depth, cs =>
    match skipLines cs.length cs with
    | ']' :: r => some ([], r)
    | cs =>
      match readValue fuel depth cs with
      | none => none
      | some (v, r) =>
        match skipLines r.length r with
        | ',' :: r => (readItems fuel depth r).map fun (vs, r) => (v :: vs, r)
        | ']' :: r => some ([v], r)
        | _ => none

/-- The pairs that are left of a table on one line, added to those before. -/
def readPairs : Nat → Nat → Entries → List Char → Option (Entries × List Char)
  | 0, _, _, _ => none
  | fuel + 1, depth, es, cs =>
    match readKey cs with
    | some ((way, key), '=' :: r) =>
      match readValue fuel depth (skipBlank r) with
      | none => none
      | some (v, r) =>
        match es.insertDotted key v true way with
        | none => none
        | some es =>
          match skipBlank r with
          | ',' :: r => readPairs fuel depth es r
          | '\x7d' :: r => some (es, r)
          | _ => none
    | _ => none

end

/-- What was read so far, and the header that the lines ahead belong to. -/
structure Progress where
  root : Entries := []
  current : List String := []

/-- A header in single or double brackets, behind the first bracket. -/
def readHeader (p : Progress) (cs : List Char) : Option (Progress × List Char) :=
  match cs with
  | '[' :: r =>
    match readKey r with
    | some ((way, key), ']' :: ']' :: r) => do
      return ({ root := ← p.root.within (·.appendTable key) way, current := way ++ [key] }, r)
    | _ => none
  | r =>
    match readKey r with
    | some ((way, key), ']' :: r) => do
      return ({ root := ← p.root.within (·.openTable key) way, current := way ++ [key] }, r)
    | _ => none

def readPair (p : Progress) (cs : List Char) : Option (Progress × List Char) :=
  match readKey cs with
  | some ((way, key), '=' :: r) => do
    let (v, r) ← readValue (2 * r.length + 2) (nestingLimit - 1) (skipBlank r)
    let root ← p.root.within (·.insertDotted key v true way) p.current
    return ({ p with root }, r)
  | _ => none

/-- Line after line; no text has more lines than characters. -/
def readDocument : Nat → Progress → List Char → Option Progress
  | 0, p, cs => if cs.isEmpty then some p else none
  | fuel + 1, p, cs =>
    match skipBlank cs with
    | [] => some p
    | '#' :: r => (endLine ('#' :: r)).bind (readDocument fuel p)
    | '[' :: r => do
      let (p, r) ← readHeader p r
      readDocument fuel p (← endLine r)
    | cs =>
      match readNewline cs with
      | some r => readDocument fuel p r
      | none => do
        let (p, r) ← readPair p cs
        readDocument fuel p (← endLine r)

/-- A byte order mark may stand in front. -/
def parse (text : String) : Option Toml :=
  let cs := match text.toList with
    | '\uFEFF' :: r => r
    | cs => cs
  (readDocument cs.length {} cs).map fun p => .table (closeEntries p.root)

end DocBase.Toml
