import DocBase.Collection.Basic
import DocBase.Query.Cursor
import DocBase.Schema.Equality

/-! Queries over a collection, its indexes and its schema. -/
namespace DocBase.Collection
variable {σ : Type} [RecordStore σ]

def indexKinds (c : Collection σ) : IndexKinds := c.indexes.map fun (field, ix) => (field, ix.kind)

/-- Against the indexes that the collection has now. -/
def plan (c : Collection σ) (q : Query) : Except CollectionError Plan :=
  (Plan.compile c.name q c.indexKinds).mapError fun fault => .query (.invalid fault)

/-- The identifiers that an index offers for a plan; without one all records are looked
at. They ascend where the plan asks for no other order. -/
def candidates (c : Collection σ) (p : Plan) : Option (List String) :=
  match p.access with
  | .fullScan => none
  | .lookup field keys => (c.indexes.get? field).map (·.findEq keys)
  | .range field bounds ordered descending => do
    let ix ← c.indexes.get? field
    let ids ← ix.findRange bounds.lower bounds.upper descending
    return if ordered then ids else ids.mergeSort fun a b => compare a b != .gt

/-- All identifiers of the store, for a walk over every record. -/
def scanAll : CollectionAction σ (List String) := onStore (RecordStore.scan .all)

/-- A query that is ill-formed fails before the store is touched. -/
def execute (q : Query) : CollectionAction σ (QueryCursor String) := do
  let c ← get
  let p ← c.plan q
  modify (·.count fun n => { n with queries := n.queries + 1 })
  if p.isEmpty then return .empty
  match c.candidates p with
  | some ids => return .run p ids
  | none => return .run p (← scanAll)

/-- The next result of a cursor over this collection. -/
def pull (cursor : QueryCursor String) (c : Collection σ) :
    Option (Except QueryError Document) × QueryCursor String × Collection σ :=
  let (item, cursor, s) := cursor.next c.store
  (item, cursor, { c with store := s })

def collect (cursor : QueryCursor String) : CollectionAction σ (List Document) := fun c =>
  let (r, s) := cursor.collect c.store
  (r.mapError .query, { c with store := s })

def tally (cursor : QueryCursor String) : CollectionAction σ Nat := fun c =>
  let (r, s) := cursor.tally c.store
  (r.mapError .query, { c with store := s })

def find (q : Query) : CollectionAction σ (List Document) := do
  collect (← execute q)

def first (q : Query) : CollectionAction σ (Option Document) := do
  let cursor ← execute { q with limit := some (min 1 (q.limit.getD 1)) }
  let (item, _, c) := pull cursor (← get)
  set c
  match item with
  | some (.ok d) => return some d
  | some (.error e) => throw (.query e)
  | none => return none

def matchCount (q : Query) : CollectionAction σ Nat := do
  tally (← execute q)

def findOne (f : Filter) : CollectionAction σ (Option Document) :=
  first { filter := some f }

/-- Without a filter the store is only asked for its size. -/
def countMatching : Option Filter → CollectionAction σ Nat
  | some f => matchCount { filter := some f }
  | none => do (← get).size

def explain (c : Collection σ) (q : Query) : Except CollectionError String :=
  (c.plan q).map (·.explain)

/-- Every document of a walk over identifiers, each with its identifier. -/
def readAll : List String → CollectionAction σ (List (String × Document))
  | [] => return []
  | id :: rest => do
    match ← readRecord id with
    | none => readAll rest
    | some record =>
      let d ← decode id record
      return (id, d) :: (← readAll rest)

/-- An index of the same kind over the same field is kept as it is; one of another kind
is replaced. -/
def createIndex (field : String) (kind : IndexKind) : CollectionAction σ Unit := do
  if (Path.segments field).any (·.isEmpty) then throw (.query (.invalid (.indexField field)))
  if ((← get).indexes.get? field).map (·.kind) = some kind then return
  let docs ← readAll (← scanAll)
  let ix := docs.foldl (fun ix (id, d) => ix.add id d) { field, kind : Index }
  modify fun c => { c with indexes := c.indexes.insert field ix }

def dropIndex (field : String) (c : Collection σ) : Bool × Collection σ :=
  (c.indexes.contains field, { c with indexes := c.indexes.erase field })

def sameSchema : Option Schema → Option Schema → Bool
  | none, none => true
  | some a, some b => a.same b
  | _, _ => false

/-- Only an empty collection takes another schema than the one it has. -/
def attachSchema (s : Option Schema) : CollectionAction σ Unit := do
  let c ← get
  if sameSchema c.schema s then return
  if !(← c.isEmpty) then throw (.schemaConflict c.name)
  set { c with schema := s }

/-- The stored documents that do not fit the schema, each with what is wrong first. -/
def validateAll : CollectionAction σ (List (String × ValidationError)) := do
  match (← get).schema with
  | none => return []
  | some s =>
    let docs ← readAll (← scanAll)
    return docs.filterMap fun (id, d) =>
      match s.validate d with
      | .error e => some (id, e)
      | .ok () => none

end DocBase.Collection
