import DocBase.Config.Error
import DocBase.Store.Config

/-! What databases and servers are opened with. -/
namespace DocBase

structure DatabaseConfig where
  name : String := "default"
  /-- The driver that the stores of all collections come from. -/
  driver : String := "memory"
  store : StoreConfig := {}
  maxCollections : Nat := 1000
  maxDocumentSize : Nat := 16 * 1024 * 1024
  deriving DecidableEq

namespace DatabaseConfig

def inMemory (name : String) : DatabaseConfig := { name }

def onDisk (name path : String) : DatabaseConfig := { name, driver := "log", store := .at path }

def validate (c : DatabaseConfig) : Except ConfigFault Unit :=
  if c.name.isEmpty then .error .emptyName
  else if c.driver.isEmpty then .error .emptyDriver
  else if c.maxCollections = 0 then .error (.zero "max_collections")
  else if c.maxDocumentSize = 0 then .error (.zero "max_document_size")
  else .ok ()

end DatabaseConfig

structure ServerConfig where
  maxConnections : Nat := 1000
  /-- Opened in this order when the server starts. -/
  databases : List DatabaseConfig := []
  deriving DecidableEq

namespace ServerConfig

/-- Each database is in order, and none has the name of one before. -/
def validateAll (seen : List String) : List DatabaseConfig → Except ConfigFault Unit
  | [] => .ok ()
  | c :: rest => do
    c.validate
    if seen.contains c.name then .error (.declaredTwice c.name)
    validateAll (c.name :: seen) rest

def validate (c : ServerConfig) : Except ConfigFault Unit :=
  if c.maxConnections = 0 then .error (.zero "max_connections") else validateAll [] c.databases

end ServerConfig
end DocBase
