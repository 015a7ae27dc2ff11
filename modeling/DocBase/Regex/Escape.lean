import DocBase.Regex.Basic
import DocBase.Regex.Flags
import DocBase.Regex.Named
import DocBase.Unicode.CaseFolding

/-! What stands after a backslash. -/
namespace DocBase.Regex

/-- What an escape stands for. Two hexadecimal digits may write a byte. -/
inductive Escape
  | char (c : Char) (byte : Bool)
  | set (s : CodePoints)
  | look (l : Look)

/-- The set with every character that differs from a member in case alone, if case does not
matter. In ASCII mode only letters of ASCII have two cases. -/
def folded (f : Flags) (s : CodePoints) : CodePoints :=
  if f.caseless then
    let t := Unicode.caseClosure s
    if f.ascii then s.union (t.inter [(0, 0x7f)]) else t
  else s

/-- The complement. In ASCII mode it would hold bytes that are no characters. -/
def complement? (f : Flags) (s : CodePoints) : Option CodePoints :=
  if f.ascii then none else some s.compl

def negated? (f : Flags) (negated : Bool) (s : CodePoints) : Option CodePoints :=
  if negated then complement? f s else some s

def charOfNat? (n : Nat) : Option Char :=
  if CodePoints.scalars.contains n then some (Char.ofNat n) else none

def isHexDigit (c : Char) : Bool := Unicode.Property.asciiHexDigit.contains c.toNat

/-- So many hexadecimal digits as `width` says, or any number of them between braces. -/
def readHex (spaced : Bool) (width : Nat) (cs : List Char) : Option (Escape × List Char) := do
  match skipSpace spaced cs with
  | '\x7b' :: cs =>
    match takeSpaced spaced isHexDigit cs.length (skipSpace spaced cs) with
    | (ds, '\x7d' :: rest) =>
      if ds.isEmpty then none else return (.char (← charOfNat? (← Text.natOfHex? ds)) false, rest)
    | _ => none
  | cs =>
    let (ds, rest) := takeSpaced spaced isHexDigit width cs
    if ds.length ≠ width then none
    else return (.char (← charOfNat? (← Text.natOfHex? ds)) (width == 2), rest)

def escapeChar? : Char → Option Char
  | 'a' => some '\x07'
  | 'f' => some '\x0c'
  | 't' => some '\t'
  | 'n' => some '\n'
  | 'r' => some '\r'
  | 'v' => some '\x0b'
  | c => if c.toNat < 128 ∧ !c.isAlphanum ∧ c ≠ '<' ∧ c ≠ '>' then some c else none

def boundaryWord? (ascii : Bool) : String → Option Look
  | "start" => some (.wordStart ascii)
  | "end" => some (.wordEnd ascii)
  | "start-half" => some (.wordStartHalf ascii)
  | "end-half" => some (.wordEndHalf ascii)
  | _ => none

/-- After `\b`, a word in braces names a special boundary; other braces are a count. -/
def readBoundary (f : Flags) (cs : List Char) : Option (Escape × List Char) :=
  let isLetter (c : Char) : Bool := c.isAlpha || c = '-'
  match cs with
  | '\x7b' :: inner =>
    match skipSpace f.spaced inner with
    | [] => none
    | c :: rest =>
      if isLetter c then
        match takeSpaced f.spaced isLetter inner.length (c :: rest) with
        | (word, '\x7d' :: rest) =>
          (boundaryWord? f.ascii (String.ofList word)).map fun l => (.look l, rest)
        | _ => none
      else some (.look (.wordBoundary f.ascii), cs)
  | _ => some (.look (.wordBoundary f.ascii), cs)

/-- The name of a Unicode class after `\p`: one letter, or what stands in braces. -/
def readClassName (spaced : Bool) (cs : List Char) : Option (List Char × List Char) :=
  match skipSpace spaced cs with
  | '\x7b' :: cs =>
    match takeSpaced spaced (· ≠ '\x7d') cs.length (skipSpace spaced cs) with
    | (name, _ :: rest) => some (name, rest)
    | (_, []) => none
  | c :: rest => if c = '\\' then none else some ([c], rest)
  | [] => none

/-- A Unicode class by its name, which ASCII mode does not know. -/
def readUnicodeClass (f : Flags) (negated : Bool) (cs : List Char) :
    Option (Escape × List Char) := do
  if f.ascii then none
  let (name, rest) ← readClassName f.spaced cs
  return (.set (← negated? f negated (folded f (← unicodeClass? name))), rest)

/-- An escape after its backslash. -/
def readEscape (f : Flags) : List Char → Option (Escape × List Char)
  | [] => none
  | c :: rest =>
    let set (negated : Bool) (s : CodePoints) : Option (Escape × List Char) :=
      (negated? f negated s).map fun s => (.set s, rest)
    let look (l : Look) : Option (Escape × List Char) := some (.look l, rest)
    match c with
    | 'x' => readHex f.spaced 2 rest
    | 'u' => readHex f.spaced 4 rest
    | 'U' => readHex f.spaced 8 rest
    | 'p' => readUnicodeClass f false rest
    | 'P' => readUnicodeClass f true rest
    | 'd' => set false (digits f.ascii)
    | 'D' => set true (digits f.ascii)
    | 's' => set false (spaces f.ascii)
    | 'S' => set true (spaces f.ascii)
    | 'w' => set false (words f.ascii)
    | 'W' => set true (words f.ascii)
    | 'A' => look .textStart
    | 'z' => look .textEnd
    | 'B' => look (.notWordBoundary f.ascii)
    | '<' => look (.wordStart f.ascii)
    | '>' => look (.wordEnd f.ascii)
    | 'b' => readBoundary f rest
    | c => (escapeChar? c).map fun c => (.char c false, rest)

end DocBase.Regex
