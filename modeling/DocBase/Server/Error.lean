import DocBase.Database.Error

/-! Failures of servers and their connections. -/
namespace DocBase

inductive ServerError
  | noDatabase (name : String)
  | alreadyOpen (name : String)
  | tooManyConnections (limit : Nat)
  | connectionClosed (id : Nat)
  | shutDown
  | malformedRequest
  | database (e : DatabaseError)
  | config (e : ConfigError)

namespace ServerError

def kind : ServerError → ErrorKind
  | noDatabase _ => .databaseNotFound
  | alreadyOpen _ => .invalidConfig
  | tooManyConnections _ => .tooManyConnections
  | connectionClosed _ | shutDown => .connectionClosed
  | malformedRequest => .malformedRequest
  | database e => e.kind
  | config e => e.kind

def message : ServerError → String
  | noDatabase name => s!"database not found: {name}"
  | alreadyOpen name => s!"database '{name}' is already open"
  | tooManyConnections limit => s!"too many connections: limit is {limit}"
  | connectionClosed id => s!"connection {id} is closed"
  | shutDown => "server is shut down"
  | malformedRequest => "malformed request: not a request"
  | database e => e.message
  | config e => e.message

instance : Failure ServerError := ⟨kind, message⟩

end ServerError
end DocBase
