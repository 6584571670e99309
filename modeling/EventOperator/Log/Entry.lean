/-!
Log entries: which part of the library wrote them, how grave they are, and what they say.
-/

namespace EventOperator.Log

inductive Level where
  | debug
  | info
  | warning
  | error
  | critical
  deriving DecidableEq

def Level.rank : Level → Nat
  | debug => 10
  | info => 20
  | warning => 30
  | error => 40
  | critical => 50

def Level.name : Level → String
  | debug => "DEBUG"
  | info => "INFO"
  | warning => "WARNING"
  | error => "ERROR"
  | critical => "CRITICAL"

structure Entry where
  source : String
  level : Level
  message : String
  deriving DecidableEq

def shown (threshold : Level) (entries : List Entry) : List Entry :=
  entries.filter fun entry => threshold.rank ≤ entry.level.rank

end EventOperator.Log
