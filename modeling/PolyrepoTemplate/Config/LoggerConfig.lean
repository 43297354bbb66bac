import Mathlib.Data.Nat.Notation

namespace PolyrepoTemplate

inductive LogLevel where
  | debug
  | info
  | warning
  | error
  | critical
  deriving DecidableEq, Repr

namespace LogLevel

def value : LogLevel → String
  | .debug => "debug"
  | .info => "info"
  | .warning => "warning"
  | .error => "error"
  | .critical => "critical"

/-- The number `logging` gives to the level. -/
def severity : LogLevel → ℕ
  | .debug => 10
  | .info => 20
  | .warning => 30
  | .error => 40
  | .critical => 50

def admits (min level : LogLevel) : Bool := min.severity ≤ level.severity

end LogLevel

end PolyrepoTemplate
