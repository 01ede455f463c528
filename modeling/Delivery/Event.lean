import Delivery.Json.Basic
import Delivery.Log

/-!
# Events and their sinks

A service reports what it did as events. A sink takes them: it discards them, writes them to the
log, or keeps them in order. A sink never fails.
-/

namespace Delivery

/-- An event with an optional payload. -/
structure Event where
  type : String
  data : Option Json

namespace Event

/-- A promotion was created. -/
def promotionCreated : String := "promotion.created"

/-- Creating a promotion failed. -/
def promotionFailed : String := "promotion.failed"

/-- Every write of a cascade has been attempted. -/
def cascadeCompleted : String := "cascade.completed"

/-- A member of the payload, when it is a text, else the empty text. -/
def field (e : Event) (name : String) : String :=
  ((e.data.bind (·.member? name)).bind Json.text?).getD ""

/-- The line that a sink writes for an event: a warning for failures, whatever its level is. -/
def logLine (e : Event) (level : Level) : LogLine where
  level := if e.type.endsWith ".failed" then .warn else if level.isFine then .debug else .info
  message := "Event: " ++ e.type
  fields :=
    [("event_type", .text e.type), ("project", .text (e.field "project")),
     ("stage", .text (e.field "stage")),
     ("payload", .text ((e.data.map Json.compact).getD ""))]

end Event

/-- A taker of events. -/
inductive Sink where
  | discarding
  | logging (level : Level)
  | collecting (events : List Event)

namespace Sink

/-- Takes an event, and writes lines to the log. -/
def emit (s : Sink) (e : Event) : Sink × List LogLine :=
  match s with
  | discarding => (discarding, [])
  | logging level => (logging level, [e.logLine level])
  | collecting events => (collecting (events ++ [e]), [])

/-- The events that were kept. -/
def events : Sink → List Event
  | collecting events => events
  | _ => []

/-- The kept events whose type starts in the given way. -/
def eventsOfType (s : Sink) (start : String) : List Event :=
  s.events.filter fun e => e.type.startsWith start

/-- Forgets the kept events. -/
def clear : Sink → Sink
  | collecting _ => collecting []
  | s => s

end Sink

end Delivery
