/-!
# Log lines

What the library writes to a log: a level, a message and named fields.
-/

namespace Delivery

/-- How important a line is. -/
inductive Level where
  | trace
  | debug
  | info
  | warn
  | error
  deriving DecidableEq

/-- The name of a level. -/
def Level.text : Level → String
  | trace => "TRACE"
  | debug => "DEBUG"
  | info => "INFO"
  | warn => "WARN"
  | error => "ERROR"

/-- Every level under its name. -/
def Level.variants : List (String × Level) :=
  [trace, debug, info, warn, error].map fun l => (l.text, l)

/-- True for the levels that are finer than informational. -/
def Level.isFine : Level → Bool
  | trace | debug => true
  | _ => false

/-- The value of a field. -/
inductive LogValue where
  | text (s : String)
  | count (n : Nat)
  | flag (b : Bool)
  deriving DecidableEq

/-- A line of the log. -/
structure LogLine where
  level : Level
  message : String
  fields : List (String × LogValue)
  deriving DecidableEq

/-- How log lines are written out. -/
inductive LogFormat where
  | text
  | json
  deriving DecidableEq

/-- The name of a format. -/
def LogFormat.name : LogFormat → String
  | text => "text"
  | json => "json"

/-- Every format under its name. -/
def LogFormat.variants : List (String × LogFormat) := [text, json].map fun f => (f.name, f)

end Delivery
