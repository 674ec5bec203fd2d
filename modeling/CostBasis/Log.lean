/-!
# Log events

Computations that report on themselves give back their events beside their value, in the order in
which they happened.
-/

namespace CostBasis

/-- How important an event is, from the least to the most. -/
inductive Level where
  | trace
  | debug
  | info
  | warn
  | error
deriving DecidableEq, Repr

namespace Level

def all : List Level := [trace, debug, info, warn, error]

/-- The name of a level in settings. -/
def name : Level → String
  | trace => "trace"
  | debug => "debug"
  | info => "info"
  | warn => "warn"
  | error => "error"

/-- The name of a level on a log line. -/
def label : Level → String
  | trace => "TRACE"
  | debug => "DEBUG"
  | info => "INFO"
  | warn => "WARN"
  | error => "ERROR"

def rank : Level → Nat
  | trace => 0
  | debug => 1
  | info => 2
  | warn => 3
  | error => 4

end Level

/-- One log event. -/
structure Event where
  level : Level
  message : String
deriving DecidableEq, Repr

/-- A value with the events of its computation. -/
structure Logged (α : Type) where
  value : α
  events : List Event := []

end CostBasis
