import Delivery.Double.Decimal
import Delivery.Duration
import Delivery.Json.Decode

/-!
# Configuration

How many writes of a cascade may be under way at once, how long one call may take, and whether
events are reported. A configuration is checked when it is read and when a service is built:
`validate` accepts at least one write, and a timeout above zero and up to a day.
-/

namespace Delivery

/-- The tunables of a promotion service. -/
structure Config where
  maxConcurrentWrites : Nat := 8
  callTimeoutSeconds : Option Double := none
  emitEvents : Bool := true
  deriving DecidableEq

/-- What a service cannot do without. -/
inductive Collaborator where
  | stageReader
  | stageLister
  | freightReader
  | resourceCreator
  deriving DecidableEq

/-- The name of a collaborator. -/
def Collaborator.text : Collaborator → String
  | stageReader => "stage reader"
  | stageLister => "stage lister"
  | freightReader => "qualified freight reader"
  | resourceCreator => "resource creator"

/-- A value of a configuration that is out of range. -/
inductive ConfigFlaw where
  | noWrites
  | timeoutNotPositive (seconds : Double)
  | timeoutTooLong (seconds : Double)
  deriving DecidableEq

/-- The longest accepted timeout of a call, in seconds: one day. -/
def Config.longestTimeout : Nat := 86400

/-- The wording of a flaw. -/
def ConfigFlaw.message : ConfigFlaw → String
  | noWrites => "max_concurrent_writes must be at least 1"
  | timeoutNotPositive seconds =>
    "call_timeout_seconds must be positive, got " ++ Double.plain.text seconds
  | timeoutTooLong seconds =>
    "call_timeout_seconds must be at most " ++ toString Config.longestTimeout ++ ", got " ++
      Double.plain.text seconds

/-- Why there is no configuration, or no service with it. -/
inductive ConfigError where
  /-- The file could not be read. -/
  | read (path cause : String)
  /-- The text is no configuration. -/
  | parse (fault : Json.Fault)
  | invalid (flaw : ConfigFlaw)
  | missing (collaborator : Collaborator)
  deriving DecidableEq

namespace Config

/-! ## Settings -/

/-- The double nearest to a duration in seconds: whole seconds and the rest are rounded apart and
then added. -/
def seconds (d : Duration) : Double :=
  Double.addMagnitudes (.ofNat (d / Duration.second))
    (Double.divMagnitudes (.ofNat (d % Duration.second)) (.ofNat Duration.second))

/-- Sets how many writes may be under way at once. -/
def withMaxConcurrentWrites (c : Config) (n : Nat) : Config := { c with maxConcurrentWrites := n }

/-- Sets how long one call may take. -/
def withCallTimeout (c : Config) (d : Duration) : Config :=
  { c with callTimeoutSeconds := some (seconds d) }

/-- Sets whether events are reported. -/
def withEvents (c : Config) (enabled : Bool) : Config := { c with emitEvents := enabled }

/-- The first count of seconds that no duration holds. -/
def endlessSeconds : Nat := Nat.pow 2 64

/-- The duration nearest to a number of seconds, a tie to the even nanosecond; none for what is
negative, not finite or too long. -/
def duration? : Double → Option Duration
  | .finite negative units =>
    if negative && units ≠ 0 then none
    else
      let nanos := Double.roundHalfEven (units * Duration.second) Double.unitsPerOne
      if nanos < endlessSeconds * Duration.second then some nanos else none
  | _ => none

/-- How long one call may take. -/
def callTimeout (c : Config) : Option Duration := c.callTimeoutSeconds.bind duration?

/-! ## Checking -/

/-- The flaw of a timeout, if it has one. -/
def timeoutFlaw? (s : Double) : Option ConfigFlaw :=
  match s with
  | .finite negative units =>
    if negative || units = 0 then some (.timeoutNotPositive s)
    else if longestTimeout * Double.unitsPerOne < units then some (.timeoutTooLong s)
    else none
  | _ => some (.timeoutNotPositive s)

/-- The first flaw of a configuration, if it has one. -/
def flaw? (c : Config) : Option ConfigFlaw :=
  if c.maxConcurrentWrites = 0 then some .noWrites else c.callTimeoutSeconds.bind timeoutFlaw?

/-- Accepts a configuration without flaws. -/
def validate (c : Config) : Except ConfigError Unit :=
  match c.flaw? with
  | some flaw => .error (.invalid flaw)
  | none => .ok ()

/-! ## Written forms -/

/-- The parts of a configuration. -/
structure Draft where
  writes : Option Nat := none
  timeout : Option (Option Double) := none
  events : Option Bool := none

/-- The shape of a configuration: every field may be left out. -/
def shape : Json.Shape Draft Config where
  name := "OrchestratorConfig"
  fields :=
    [{ name := "max_concurrent_writes"
       read n d := (Json.decodeNat n).map fun v => { d with writes := some v }
       present d := d.writes.isSome
       required := false },
     { name := "call_timeout_seconds"
       read n d := (Json.decodeOption Json.decodeDouble n).map fun v => { d with timeout := some v }
       present d := d.timeout.isSome
       required := false },
     { name := "emit_events"
       read n d := (Json.decodeBool n).map fun v => { d with events := some v }
       present d := d.events.isSome
       required := false }]
  start := {}
  build d := some ⟨d.writes.getD 8, d.timeout.getD none, d.events.getD true⟩

/-- Decodes a configuration without checking it. -/
def decode : Json.Decoder Config := shape.decode

/-- The JSON object of a configuration. -/
def toJson (c : Config) : Json :=
  .object [("max_concurrent_writes", .int c.maxConcurrentWrites),
    ("call_timeout_seconds", match c.callTimeoutSeconds with
      | none => .null
      | some s => .float s),
    ("emit_events", .bool c.emitEvents)]

/-- The description of a configuration. -/
def describe (c : Config) : String :=
  "OrchestratorConfig \x7b max_concurrent_writes: " ++ toString c.maxConcurrentWrites ++
    ", call_timeout_seconds: " ++
    (match c.callTimeoutSeconds with
      | none => "None"
      | some s => "Some(" ++ Double.debug.text s ++ ")") ++
    ", emit_events: " ++ (if c.emitEvents then "true" else "false") ++ " \x7d"

/-- Reads and checks the text of a configuration. -/
def ofText (s : String) : Except ConfigError Config :=
  match Json.decodeText decode s with
  | .error f => .error (.parse f)
  | .ok c => c.validate.map fun () => c

end Config

/-- The wording of an error. -/
def ConfigError.message : ConfigError → String
  | read path cause => "failed to read config " ++ path ++ ": " ++ cause
  | parse (.mismatch m) => "failed to parse config: " ++ m.message
  | parse _ => "failed to parse config"
  | invalid flaw => "invalid config: " ++ flaw.message
  | missing c => "missing collaborator: " ++ c.text

end Delivery
