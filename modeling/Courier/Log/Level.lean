import Courier.Value

/-!
Log levels and log entries.
-/

namespace Courier.Log

inductive Level where
  | trace
  | debug
  | info
  | warn
  | error
  deriving DecidableEq, Repr, Inhabited

namespace Level

def all : List Level := [.trace, .debug, .info, .warn, .error]

def name : Level → String
  | .trace => "trace"
  | .debug => "debug"
  | .info => "info"
  | .warn => "warn"
  | .error => "error"

/-- The level's name as lines show it. -/
def label : Level → String
  | .trace => "TRACE"
  | .debug => "DEBUG"
  | .info => "INFO"
  | .warn => "WARN"
  | .error => "ERROR"

def rank : Level → Nat
  | .trace => 0
  | .debug => 1
  | .info => 2
  | .warn => 3
  | .error => 4

def ofName? (s : String) : Option Level := all.find? (·.name = s)

/-- The level that a value names. -/
def ofValue? : Value → Option Level
  | .string s => ofName? s
  | _ => none

end Level

/-- One thing said to a logger. -/
structure Entry where
  level : Level
  message : String
  args : List Value
  deriving Inhabited

/-- What a logger does with its calls: the `n`-th call, counted from 0, may throw a value. -/
def Reaction := Nat → Entry → Option Value

/-- A logger whose calls return. -/
def calm : Reaction := fun _ _ => none

end Courier.Log
