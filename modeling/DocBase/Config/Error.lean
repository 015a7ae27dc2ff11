import DocBase.Error

/-! Failures of configurations. -/
namespace DocBase

/-- What a configuration must not say. -/
inductive ConfigFault
  | emptyName
  | emptyDriver
  | zero (setting : String)
  | declaredTwice (database : String)
  deriving DecidableEq

def ConfigFault.message : ConfigFault → String
  | emptyName => "database name is empty"
  | emptyDriver => "driver name is empty"
  | zero setting => s!"{setting} must be greater than zero"
  | declaredTwice database => s!"database '{database}' is declared twice"

inductive ConfigError
  | unreadable
  | malformed
  | invalid (fault : ConfigFault)
  deriving DecidableEq

namespace ConfigError

def kind (_ : ConfigError) : ErrorKind := .invalidConfig

def message : ConfigError → String
  | unreadable => "failed to read configuration: no such file"
  | malformed => "failed to parse configuration: malformed text"
  | invalid fault => s!"invalid configuration: {fault.message}"

instance : Failure ConfigError := ⟨kind, message⟩

end ConfigError
end DocBase
