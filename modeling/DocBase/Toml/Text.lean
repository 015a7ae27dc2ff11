import DocBase.Json.Reader

/-! The small parts of TOML text: blanks, comments, strings and keys. Each reader takes
the characters ahead and gives what it read with the characters left. -/
namespace DocBase.Toml

def isBlank (c : Char) : Bool := c = ' ' || c = '\t'

def skipBlank (cs : List Char) : List Char := cs.dropWhile isBlank

/-- A character that may stand in a comment, and in a string if it has no meaning there. -/
def isPlain (c : Char) : Bool :=
  c = '\t' || (32 ≤ c.toNat && c.toNat < 127) || 128 ≤ c.toNat

/-- A line feed, with a carriage return before it or not. -/
def readNewline : List Char → Option (List Char)
  | '\n' :: r => some r
  | '\r' :: '\n' :: r => some r
  | _ => none

def skipComment : List Char → List Char
  | '#' :: r => r.dropWhile isPlain
  | cs => cs

/-- The end of a line or of the text, after blanks and a comment. -/
def endLine (cs : List Char) : Option (List Char) :=
  match skipComment (skipBlank cs) with
  | [] => some []
  | cs => readNewline cs

/-- Blanks, comments and line ends; `fuel` bounds the steps. -/
def skipLines : Nat → List Char → List Char
  | 0, cs => cs
  | fuel + 1, cs =>
    let cs := skipComment (skipBlank cs)
    match readNewline cs with
    | some r => skipLines fuel r
    | none => cs

def charOfHex (ds : List Char) : Option Char :=
  (Text.natOfHex? ds).bind fun n =>
    if h : n.isValidChar then some (Char.ofNatAux n h) else none

/-- The character that an escape stands for, with the characters after it. -/
def unescape : List Char → Option (Char × List Char)
  | 'b' :: r => some ('\x08', r)
  | 't' :: r => some ('\t', r)
  | 'n' :: r => some ('\n', r)
  | 'f' :: r => some ('\x0c', r)
  | 'r' :: r => some ('\r', r)
  | '"' :: r => some ('"', r)
  | '\\' :: r => some ('\\', r)
  | 'u' :: r => if r.length < 4 then none else (charOfHex (r.take 4)).map (·, r.drop 4)
  | 'U' :: r => if r.length < 8 then none else (charOfHex (r.take 8)).map (·, r.drop 8)
  | _ => none

/-- The rest of a string on one line. -/
def readBasic : Nat → List Char → List Char → Option (String × List Char)
  | 0, _, _ => none
  | fuel + 1, acc, cs =>
    match cs with
    | '"' :: r => some (String.ofList acc.reverse, r)
    | '\\' :: r =>
      match unescape r with
      | some (c, r) => readBasic fuel (c :: acc) r
      | none => none
    | c :: r => if isPlain c then readBasic fuel (c :: acc) r else none
    | [] => none

/-- The rest of a string in which nothing is escaped. -/
def readLiteral (cs : List Char) : Option (String × List Char) :=
  let isInside (c : Char) := isPlain c && c != '\''
  match cs.dropWhile isInside with
  | '\'' :: r => some (String.ofList (cs.takeWhile isInside), r)
  | _ => none

/-- Blanks and line ends; `fuel` bounds the steps. -/
def skipBlankLines : Nat → List Char → List Char
  | 0, cs => cs
  | fuel + 1, cs =>
    match readNewline (skipBlank cs) with
    | some r => skipBlankLines fuel r
    | none => skipBlank cs

/-- The text after a backslash that ends its line, from the next character on that is
no blank. -/
def skipFolded (cs : List Char) : Option (List Char) :=
  (readNewline (skipBlank cs)).map fun r => skipBlankLines r.length r

/-- The rest of a string over many lines that ends at three quotes. Up to two quotes may
stand right before those, and anywhere else. -/
def readLong (quote : Char) : Nat → List Char → List Char → Option (String × List Char)
  | 0, _, _ => none
  | fuel + 1, acc, cs =>
    match readNewline cs with
    | some r => readLong quote fuel ('\n' :: acc) r
    | none =>
      match cs with
      | [] => none
      | c :: r =>
        if c = quote then
          let run := cs.takeWhile (· = quote)
          if run.length < 3 then readLong quote fuel (run ++ acc) (cs.drop run.length)
          else if run.length < 6 then
            some (String.ofList ((run.drop 3) ++ acc).reverse, cs.drop run.length)
          else none
        else if c = '\\' ∧ quote = '"' then
          match skipFolded r with
          | some r => readLong quote fuel acc r
          | none =>
            match unescape r with
            | some (c, r) => readLong quote fuel (c :: acc) r
            | none => none
        else if isPlain c then readLong quote fuel (c :: acc) r
        else none

/-- A line end right after the opening quotes does not belong to the string. -/
def openLong (quote : Char) (cs : List Char) : Option (String × List Char) :=
  let r := (readNewline cs).getD cs
  readLong quote (r.length + 1) [] r

def readString : List Char → Option (String × List Char)
  | '"' :: '"' :: '"' :: r => openLong '"' r
  | '\'' :: '\'' :: '\'' :: r => openLong '\'' r
  | '"' :: r => readBasic (r.length + 1) [] r
  | '\'' :: r => readLiteral r
  | _ => none

def isBare (c : Char) : Bool := c.isAlphanum || c = '_' || c = '-'

def readName : List Char → Option (String × List Char)
  | '"' :: r => readBasic (r.length + 1) [] r
  | '\'' :: r => readLiteral r
  | cs =>
    match cs.takeWhile isBare with
    | [] => none
    | name => some (String.ofList name, cs.dropWhile isBare)

/-- Names joined by dots, with blanks around them; the first apart from the rest. -/
def readNames : Nat → List Char → Option ((String × List String) × List Char)
  | 0, _ => none
  | fuel + 1, cs => do
    let (name, cs) ← readName (skipBlank cs)
    match skipBlank cs with
    | '.' :: r =>
      let ((next, more), r) ← readNames fuel r
      return ((name, next :: more), r)
    | cs => return ((name, []), cs)

/-- A key has fewer names than this, and values lie inside one another less deep. -/
def nestingLimit : Nat := 80

/-- The names on the way to the last one, and the last one. -/
def readKey (cs : List Char) : Option ((List String × String) × List Char) := do
  let ((name, more), r) ← readNames (nestingLimit - 1) cs
  let names := name :: more
  return ((names.dropLast, names.getLast?.getD name), r)

end DocBase.Toml
