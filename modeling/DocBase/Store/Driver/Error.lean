import DocBase.Store.Error
import DocBase.Text.Quoted

/-! Failures to find or to open a store. -/
namespace DocBase

/-- Why a driver cannot open a store. -/
inductive DriverFault
  | noPath
  | badLocation (location : String)
  deriving DecidableEq

def DriverFault.message : DriverFault → String
  | noPath => "the log driver requires a store path"
  | badLocation location => s!"invalid store location: {Text.quoted location}"

inductive DriverError
  | unknown (driver : String)
  | config (fault : DriverFault)
  | store (e : StoreError)
  deriving DecidableEq

namespace DriverError

def kind : DriverError → ErrorKind
  | unknown _ => .unknownDriver
  | config _ => .invalidConfig
  | store e => e.kind

def message : DriverError → String
  | unknown driver => s!"unknown driver: {driver}"
  | config fault => s!"invalid driver configuration: {fault.message}"
  | store e => e.message

instance : Failure DriverError := ⟨kind, message⟩

end DriverError
end DocBase
