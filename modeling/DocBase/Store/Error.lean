import DocBase.Error

/-! Failures of stores. -/
namespace DocBase

/-- Why a store has no room for a record. -/
inductive Shortage
  | records (limit : Nat)
  | bytes (limit : Nat)
  | identifier (length : Nat)
  | record (length : Nat)
  | other (text : String)
  deriving DecidableEq

def Shortage.message : Shortage → String
  | records limit => s!"record limit of {limit} reached"
  | bytes limit => s!"byte limit of {limit} reached"
  | identifier length => s!"identifier of {length} bytes exceeds the 65535 byte limit"
  | record length => s!"record of {length} bytes is too large"
  | other text => text

inductive StoreError
  | io (detail : String)
  | capacity (cause : Shortage)
  | closed
  | corruption (detail : String)
  deriving DecidableEq

namespace StoreError

def kind : StoreError → ErrorKind
  | io _ => .ioFailure
  | capacity _ => .capacityExceeded
  | closed => .storeClosed
  | corruption _ => .corruption

def message : StoreError → String
  | io detail => s!"I/O failure: {detail}"
  | capacity cause => s!"capacity exceeded: {cause.message}"
  | closed => "store is closed"
  | corruption detail => s!"corruption detected: {detail}"

instance : Failure StoreError := ⟨kind, message⟩

end StoreError
end DocBase
