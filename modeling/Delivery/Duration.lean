/-!
# Durations and instants

Both are counted in nanoseconds: a duration is a length of time, an instant the time since the
start of the clock. Timers work in whole milliseconds, `ticks`. Nobody sleeps longer than
`Duration.longestSleep`, whatever was asked for.
-/

namespace Delivery

/-- A length of time, in nanoseconds. -/
abbrev Duration := Nat

/-- A point in time, in nanoseconds since the clock started. -/
abbrev Instant := Nat

namespace Duration

/-- Nanoseconds in a microsecond. -/
def microsecond : Duration := 1000

/-- Nanoseconds in a millisecond. -/
def millisecond : Duration := 1000000

/-- Nanoseconds in a second. -/
def second : Duration := 1000000000

/-- The longest sleep: thirty years of 365 days. -/
def longestSleep : Duration := 30 * 365 * 86400 * second

/-- The first `places` decimals of `part / whole`, without trailing zeros, after a point; nothing
when all are zero. -/
def decimals : Nat → Nat → Nat → List Char
  | 0, _, _ => []
  | places + 1, part, whole =>
    let rest := decimals places (part * 10 % whole) whole
    if part = 0 then [] else Nat.digitChar (part * 10 / whole) :: rest

/-- A count of a unit with its fraction and the unit's name. -/
def inUnit (d unit : Duration) (places : Nat) (name : String) : String :=
  let fraction := decimals places (d % unit) unit
  toString (d / unit) ++ String.ofList (if fraction.isEmpty then [] else '.' :: fraction) ++ name

/-- The text of a duration: in the largest unit it holds at least once, with the exact fraction. -/
def text (d : Duration) : String :=
  if second ≤ d then inUnit d second 9 "s"
  else if millisecond ≤ d then inUnit d millisecond 6 "ms"
  else if microsecond ≤ d then inUnit d microsecond 3 "µs"
  else toString d ++ "ns"

end Duration

namespace Instant

/-- Whole milliseconds that have passed at an instant. -/
def ticks (t : Instant) : Nat := t / Duration.millisecond

/-- The tick at which a timer set for an instant fires: the first one not before it. -/
def dueTick (t : Instant) : Nat := if t % Duration.millisecond = 0 then t.ticks else t.ticks + 1

/-- The instant at which a sleep that begins now is over. -/
def afterSleep (now : Instant) (d : Duration) : Instant := now + min d Duration.longestSleep

end Instant

end Delivery
