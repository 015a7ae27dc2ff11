import DocBase.Collection.Json
import DocBase.Query.Json
import DocBase.Schema.Json
import DocBase.Document.Codec
import DocBase.Index
import DocBase.Text.Trim

/-! Requests, and their form as one line of JSON. -/
namespace DocBase

/-- What is asked of one collection. -/
inductive CollectionRequest
  | insert (d : Document)
  | insertMany (docs : List Document)
  | get (id : String)
  | update (id : String) (u : Update)
  | remove (id : String)
  | find (q : Query)
  | count (f : Option Filter)
  | explain (q : Query)
  /-- Asks for the collection itself, under a schema or as it is. -/
  | declare (schema : Option Schema)
  | drop
  | createIndex (field : String) (kind : IndexKind)
  | dropIndex (field : String)

inductive DatabaseRequest
  | on (collection : String) (r : CollectionRequest)
  | listCollections

structure Request where
  database : String
  operation : DatabaseRequest

namespace CollectionRequest

def name : CollectionRequest → String
  | insert _ => "insert"
  | insertMany _ => "insert_many"
  | get _ => "get"
  | update .. => "update"
  | remove _ => "remove"
  | find _ => "find"
  | count _ => "count"
  | explain _ => "explain"
  | declare _ => "collection"
  | drop => "drop_collection"
  | createIndex .. => "create_index"
  | dropIndex _ => "drop_index"

def isWrite : CollectionRequest → Bool
  | get _ | find _ | count _ | explain _ => false
  | _ => true

/-- The members beside the operation and the names it is for. -/
def members : CollectionRequest → Json.Members
  | insert d => [("document", d.toJson)]
  | insertMany docs => [("documents", .arr (docs.map Document.toJson))]
  | get id | remove id => [("id", .str id)]
  | update id u => [("id", .str id), ("update", u.toJson)]
  | find q | explain q => [("query", q.toJson)]
  | count f => [("filter", (f.map Filter.toJson).getD .null)]
  | declare s => [("schema", (s.map Schema.toJson).getD .null)]
  | drop => []
  | createIndex field kind => [("field", .str field), ("index_type", .str kind.name)]
  | dropIndex field => [("field", .str field)]

/-- The names that the members beside the operation may have. -/
def memberNames (op : String) : List String :=
  match op with
  | "insert" => ["document"]
  | "insert_many" => ["documents"]
  | "get" | "remove" => ["id"]
  | "update" => ["id", "update"]
  | "find" | "explain" => ["query"]
  | "count" => ["filter"]
  | "collection" => ["schema"]
  | "create_index" => ["field", "index_type"]
  | "drop_index" => ["field"]
  | _ => []

def ofMembers? (op : String) (ms : Json.Members) : Option CollectionRequest :=
  let document (j : Json) : Option Document := (Document.ofJson j).toOption
  let id := ms.required "id" Json.asString
  let query := ms.withDefault "query" {} (Query.read true)
  match op with
  | "insert" => (ms.required "document" document).map insert
  | "insert_many" => (ms.required "documents" (Json.asList document)).map insertMany
  | "get" => id.map get
  | "update" => do return update (← id) (← ms.required "update" (Update.read true))
  | "remove" => id.map remove
  | "find" => query.map find
  | "count" => (ms.optional "filter" (Filter.read true)).map count
  | "explain" => query.map explain
  | "collection" => (ms.optional "schema" Schema.ofJson?).map declare
  | "drop_collection" => some drop
  | "create_index" => do
    let kind (j : Json) : Option IndexKind := j.asString.bind IndexKind.ofName?
    return createIndex (← ms.required "field" Json.asString) (← ms.required "index_type" kind)
  | "drop_index" => (ms.required "field" Json.asString).map dropIndex
  | _ => none

end CollectionRequest

namespace Request

def opName (r : Request) : String :=
  match r.operation with
  | .on _ op => op.name
  | .listCollections => "list_collections"

/-- Whether it may change what is stored. -/
def isWrite (r : Request) : Bool :=
  match r.operation with
  | .on _ op => op.isWrite
  | .listCollections => false

def toJson (r : Request) : Json :=
  let head : Json.Members := [("op", .str r.opName), ("database", .str r.database)]
  match r.operation with
  | .on collection op => .obj (head ++ ("collection", .str collection) :: op.members)
  | .listCollections => .obj head

def ofJson? (j : Json) : Option Request := do
  let ms ← j.asMembers
  if !ms.declares ["op", "database"] then none
  let op ← ms.required "op" Json.asString
  let database ← ms.required "database" Json.asString
  if op = "list_collections" then return { database, operation := .listCollections }
  if !ms.declares ("collection" :: CollectionRequest.memberNames op) then none
  let collection ← ms.required "collection" Json.asString
  return { database, operation := .on collection (← CollectionRequest.ofMembers? op ms) }

/-- Without a line break in it. -/
def encode (r : Request) : String := r.toJson.render

/-- White space around the request is passed over. -/
def decode (line : String) : Option Request :=
  (Json.parse (String.ofList (Text.trim line.toList))).bind ofJson?

end Request
end DocBase
