import DocBase.Schema.Check
import DocBase.Query.Error

/-! Failures of collections. -/
namespace DocBase

inductive CollectionError
  | validation (e : ValidationError)
  | duplicateKey (id : String)
  | notFound (id : String)
  | schemaConflict (collection : String)
  | tooLarge (size limit : Nat)
  | query (e : QueryError)
  | store (e : StoreError)
  | corrupt (id : String) (e : CodecError)

namespace CollectionError

def kind : CollectionError → ErrorKind
  | validation e => e.kind
  | duplicateKey _ => .duplicateKey
  | notFound _ => .notFound
  | schemaConflict _ => .schemaConflict
  | tooLarge .. => .documentTooLarge
  | query e => e.kind
  | store e => e.kind
  | corrupt .. => .corruption

def message : CollectionError → String
  | validation e => s!"validation failed: {e.message}"
  | duplicateKey id => s!"duplicate key: document '{id}' already exists"
  | notFound id => s!"document not found: {id}"
  | schemaConflict collection =>
    s!"schema conflict: collection '{collection}' already holds documents"
  | tooLarge size limit => s!"document too large: {size} bytes exceeds the {limit} byte limit"
  | query e => e.message
  | store e => e.message
  | corrupt id e => s!"corrupt document '{id}': {e.message}"

instance : Failure CollectionError := ⟨kind, message⟩

end CollectionError
end DocBase
