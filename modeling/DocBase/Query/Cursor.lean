import DocBase.Query.Plan
import DocBase.Store.Basic

/-! Running a plan. Records are read, decoded and tested one at a time as results are
pulled; only where a plan has to sort are all matches gathered first. -/
namespace DocBase

/-- How the places of a source give their records, when reached. A place may have lost
its record by then. -/
class Source (α σ : Type) where
  fetch : α → σ → Option (Except StoreError (String × Bytes)) × σ

/-- Identifiers are looked up in the store. -/
instance {σ : Type} [RecordStore σ] : Source String σ where
  fetch id s :=
    match RecordStore.get id s with
    | (.ok (some record), s) => (some (.ok (id, record)), s)
    | (.ok none, s) => (none, s)
    | (.error e, s) => (some (.error e), s)

/-- Records given beforehand. -/
instance : Source (Except StoreError (String × Bytes)) Unit where
  fetch item s := (some item, s)

/-- What a place yields: a document, a failure, or nothing. -/
def readDocument : Option (Except StoreError (String × Bytes)) → Except QueryError (Option Document)
  | none => .ok none
  | some (.error e) => .error (.store e)
  | some (.ok (id, record)) =>
    match Document.decode record with
    | .ok d => .ok (some d)
    | .error e => .error (.corrupt id e)

/-- Where the documents of a cursor come from: places still to be read, places to be
read and sorted at the first pull, or documents in order. -/
inductive Supply (α : Type)
  | places (pending : List α)
  | unsorted (keys : List SortKey) (pending : List α)
  | documents (docs : List Document)

def Supply.size {α : Type} : Supply α → Nat
  | .places pending => pending.length
  | .unsorted _ pending => pending.length
  | .documents docs => docs.length

structure QueryCursor (α : Type) where
  predicate : Predicate
  supply : Supply α
  skip : Nat
  remaining : Option Nat
  projection : Option Projection
  done : Bool
  yielded : Nat := 0

namespace QueryCursor
variable {α σ : Type} [Source α σ]

def empty : QueryCursor α :=
  { predicate := .const false, supply := .documents [], skip := 0, remaining := none,
    projection := none, done := true }

/-- A plan that lets no document out does not touch its source. -/
def run (p : Plan) (pending : List α) : QueryCursor α :=
  if p.isEmpty then empty
  else
    { predicate := p.predicate
      supply := if p.needsSort then .unsorted p.sort pending else .places pending
      skip := p.skip
      remaining := p.limit
      projection := p.projection
      done := false }

/-- The matches of all places, or the first failure. -/
def gather (p : Predicate) : List α → σ → Except QueryError (List Document) × σ
  | [], s => (.ok [], s)
  | a :: rest, s =>
    let (item, s) := Source.fetch a s
    match readDocument item with
    | .error e => (.error e, s)
    | .ok none => gather p rest s
    | .ok (some d) =>
      let (found, s) := gather p rest s
      (if p.holds d then found.map (d :: ·) else found, s)

/-- The next match after those to be skipped, the places after it and how many matches
are still to be skipped. -/
def seek (p : Predicate) : List α → Nat → σ →
    Option (Except QueryError Document) × List α × Nat × σ
  | [], skip, s => (none, [], skip, s)
  | a :: rest, skip, s =>
    let (item, s) := Source.fetch a s
    match readDocument item with
    | .error e => (some (.error e), rest, skip, s)
    | .ok none => seek p rest skip s
    | .ok (some d) =>
      if !p.holds d then seek p rest skip s
      else if skip = 0 then (some (.ok d), rest, 0, s)
      else seek p rest (skip - 1) s

/-- The cursor after a result, and the result as it goes out. -/
def deliver (c : QueryCursor α) :
    Option (Except QueryError Document) → Option (Except QueryError Document) × QueryCursor α
  | some (.ok d) =>
    (some (.ok ((c.projection.map (·.apply d)).getD d)),
      { c with remaining := c.remaining.map (· - 1), yielded := c.yielded + 1 })
  | some (.error e) => (some (.error e), { c with done := true })
  | none => (none, { c with done := true })

def nextOf (docs : List Document) (c : QueryCursor α) :
    Option (Except QueryError Document) × QueryCursor α :=
  match docs.drop c.skip with
  | [] => { c with supply := .documents [] }.deliver none
  | d :: rest => { c with supply := .documents rest, skip := 0 }.deliver (some (.ok d))

/-- The next result. A failure comes out once and ends the cursor. -/
def next (c : QueryCursor α) (s : σ) : Option (Except QueryError Document) × QueryCursor α × σ :=
  if c.done then (none, c, s)
  else if c.remaining = some 0 then (none, { c with done := true }, s)
  else match c.supply with
    | .places pending =>
      let (item, rest, skip, s) := seek c.predicate pending c.skip s
      let (item, c) := { c with supply := .places rest, skip }.deliver item
      (item, c, s)
    | .unsorted keys pending =>
      match gather c.predicate pending s with
      | (.error e, s) =>
        let (item, c) := { c with supply := .documents [] }.deliver (some (.error e))
        (item, c, s)
      | (.ok docs, s) =>
        let (item, c) := nextOf (sortDocuments keys docs) c
        (item, c, s)
    | .documents docs =>
      let (item, c) := nextOf docs c
      (item, c, s)

/-- The results of so many pulls, up to the end or the first failure. -/
def collectWithin : Nat → QueryCursor α → σ → Except QueryError (List Document) × σ
  | 0, _, s => (.ok [], s)
  | fuel + 1, c, s =>
    match c.next s with
    | (none, _, s) => (.ok [], s)
    | (some (.error e), _, s) => (.error e, s)
    | (some (.ok d), c, s) =>
      let (rest, s) := collectWithin fuel c s
      (rest.map (d :: ·), s)

/-- All results that are left, or the first failure. Each pull uses up a place or a
document, so that one pull more than there are reaches the end. -/
def collect (c : QueryCursor α) (s : σ) : Except QueryError (List Document) × σ :=
  collectWithin (c.supply.size + 1) c s

/-- The number of results of so many pulls, or the first failure. -/
def tallyWithin : Nat → QueryCursor α → σ → Except QueryError Nat × σ
  | 0, _, s => (.ok 0, s)
  | fuel + 1, c, s =>
    match c.next s with
    | (none, _, s) => (.ok 0, s)
    | (some (.error e), _, s) => (.error e, s)
    | (some (.ok _), c, s) =>
      let (n, s) := tallyWithin fuel c s
      (n.map (· + 1), s)

/-- How many results are left. They are pulled as in `collect`, and not kept. -/
def tally (c : QueryCursor α) (s : σ) : Except QueryError Nat × σ :=
  tallyWithin (c.supply.size + 1) c s

def text (c : QueryCursor α) : String :=
  "QueryCursor \x7b done: " ++ toString c.done ++ ", yielded: " ++ toString c.yielded ++ " \x7d"

end QueryCursor
end DocBase
