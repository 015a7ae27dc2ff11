import DocBase.Regex.Match

/-! A source together with what became of it: patterns are the same when their sources are. -/
namespace DocBase

structure Pattern where
  source : String
  regex : Option Regex := Regex.compile? source
  compiled : regex = Regex.compile? source := by rfl

namespace Pattern

def ofSource (source : String) : Pattern := { source }

/-- What is said of a refused source. -/
def refusal : String := "regex parse error: the expression is malformed or too large"

end Pattern
end DocBase
