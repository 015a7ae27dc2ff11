import DocBase.Collection.Error
import DocBase.Config.Error
import DocBase.Store.Driver.Error

/-! Failures of databases. -/
namespace DocBase

inductive DatabaseError
  | invalidName (name : String)
  | tooMany (limit : Nat)
  | noCollection (name : String)
  | closed (name : String)
  | driver (e : DriverError)
  | collection (e : CollectionError)
  | config (e : ConfigError)

namespace DatabaseError

def kind : DatabaseError → ErrorKind
  | invalidName _ => .invalidCollectionName
  | tooMany _ => .tooManyCollections
  | noCollection _ => .collectionNotFound
  | closed _ => .databaseClosed
  | driver e => e.kind
  | collection e => e.kind
  | config e => e.kind

def message : DatabaseError → String
  | invalidName name => s!"invalid collection name {Text.quoted name}"
  | tooMany limit => s!"too many collections: limit is {limit}"
  | noCollection name => s!"collection not found: {name}"
  | closed name => s!"database '{name}' is closed"
  | driver e => e.message
  | collection e => e.message
  | config e => e.message

instance : Failure DatabaseError := ⟨kind, message⟩

end DatabaseError
end DocBase
