import DocBase.Config.Basic
import DocBase.Json.Decode
import DocBase.Toml.Reader

/-! Configurations as JSON and as TOML text. Settings that are left out keep their defaults. -/
namespace DocBase

namespace StoreConfig

def toJson (c : StoreConfig) : Json :=
  .obj [("path", (c.path.map Json.str).getD .null),
    ("cache_size", .int c.cacheSize),
    ("durability", .str c.durability.name),
    ("max_records", (c.maxRecords.map fun n => Json.int n).getD .null),
    ("max_bytes", (c.maxBytes.map fun n => Json.int n).getD .null)]

def ofJson? (j : Json) : Option StoreConfig := do
  let ms ← Json.Members.ofRecord? ["path", "cache_size", "durability", "max_records", "max_bytes"] j
  return {
    path := ← ms.optional "path" Json.asString
    cacheSize := ← ms.withDefault "cache_size" 1024 Json.asCount
    durability := ← ms.withDefault "durability" .async fun j => j.asString.bind Durability.ofName?
    maxRecords := ← ms.optional "max_records" Json.asCount
    maxBytes := ← ms.optional "max_bytes" Json.asCount }

end StoreConfig

namespace DatabaseConfig

def toJson (c : DatabaseConfig) : Json :=
  .obj [("name", .str c.name), ("driver", .str c.driver), ("store", c.store.toJson),
    ("max_collections", .int c.maxCollections), ("max_document_size", .int c.maxDocumentSize)]

def ofJson? (j : Json) : Option DatabaseConfig := do
  let names := ["name", "driver", "store", "max_collections", "max_document_size"]
  let ms ← Json.Members.ofRecord? names j
  let c : DatabaseConfig := {}
  return {
    name := ← ms.withDefault "name" c.name Json.asString
    driver := ← ms.withDefault "driver" c.driver Json.asString
    store := ← ms.withDefault "store" c.store StoreConfig.ofJson?
    maxCollections := ← ms.withDefault "max_collections" c.maxCollections Json.asCount
    maxDocumentSize := ← ms.withDefault "max_document_size" c.maxDocumentSize Json.asCount }

end DatabaseConfig

namespace ServerConfig

def toJson (c : ServerConfig) : Json :=
  .obj [("max_connections", .int c.maxConnections),
    ("databases", .arr (c.databases.map DatabaseConfig.toJson))]

def ofJson? (j : Json) : Option ServerConfig := do
  let ms ← Json.Members.ofRecord? ["max_connections", "databases"] j
  return {
    maxConnections := ← ms.withDefault "max_connections" 1000 Json.asCount
    databases := ← ms.withDefault "databases" [] (Json.asList DatabaseConfig.ofJson?) }

end ServerConfig

/-- A configuration that was read, once it is found to be in order. -/
def checkedConfig {α : Type} (validate : α → Except ConfigFault Unit) :
    Option α → Except ConfigError α
  | none => .error .malformed
  | some c => (validate c).mapError ConfigError.invalid |>.map fun () => c

def DatabaseConfig.ofToml (text : String) : Except ConfigError DatabaseConfig :=
  checkedConfig validate ((Toml.parse text).bind fun t => ofJson? t.toJson)

def ServerConfig.ofToml (text : String) : Except ConfigError ServerConfig :=
  checkedConfig validate ((Toml.parse text).bind fun t => ofJson? t.toJson)

/-- From the text of a file, if there is such a file. -/
def DatabaseConfig.ofFile (content : Option String) : Except ConfigError DatabaseConfig :=
  match content with
  | some text => ofToml text
  | none => .error .unreadable

def ServerConfig.ofFile (content : Option String) : Except ConfigError ServerConfig :=
  match content with
  | some text => ofToml text
  | none => .error .unreadable

end DocBase
