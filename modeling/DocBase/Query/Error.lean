import DocBase.Query.Filter
import DocBase.Document.Codec
import DocBase.Store.Error
import DocBase.Text.Quoted
import DocBase.Regex.Pattern

/-! Failures of queries: those that are ill-formed, and those met on the way. -/
namespace DocBase

/-- What makes a query ill-formed. -/
inductive QueryFault
  | fieldName (field : String)
  | unordered (op : CompareOp) (typeName field : String)
  | noList (op typeName field : String)
  | badRegex (pattern : String)
  | indexField (field : String)
  deriving DecidableEq

def QueryFault.message : QueryFault → String
  | fieldName field => s!"invalid field name {Text.quoted field}"
  | unordered op typeName field =>
    s!"operator {op.symbol} cannot compare against {typeName} on field '{field}'"
  | noList op typeName field =>
    s!"operator {op} on field '{field}' requires an array operand, got {typeName}"
  | badRegex pattern => s!"invalid regex {Text.quoted pattern}: {Pattern.refusal}"
  | indexField field => s!"invalid index field {Text.quoted field}"

inductive QueryError
  | invalid (fault : QueryFault)
  | store (e : StoreError)
  | corrupt (id : String) (e : CodecError)
  deriving DecidableEq

namespace QueryError

def kind : QueryError → ErrorKind
  | invalid _ => .invalidQuery
  | store e => e.kind
  | corrupt .. => .corruption

def message : QueryError → String
  | invalid fault => s!"invalid query: {fault.message}"
  | store e => e.message
  | corrupt id e => s!"corrupt document '{id}': {e.message}"

instance : Failure QueryError := ⟨kind, message⟩

end QueryError
end DocBase
