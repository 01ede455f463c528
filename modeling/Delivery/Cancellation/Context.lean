import Delivery.Cancellation.Token
import Delivery.Error

/-!
# Request contexts

A context carries the caller's token and deadline into every call made on the caller's behalf. A
deadline remembers when it was set, so that an expiry reports the time that was given and not the
age of the request. Deadlines only tighten: of two the earlier one stays.
-/

namespace Delivery

/-- An instant that ends a request, and the instant at which it was set. -/
structure Deadline where
  at_ : Instant
  setAt : Instant
  deriving DecidableEq

namespace Deadline

/-- The time that was given: none when the deadline had passed when it was set. -/
def budget (d : Deadline) : Duration := d.at_ - d.setAt

/-- The failure of a call that the deadline ends. -/
def error (d : Deadline) : StoreError := .deadlineExceeded d.budget

/-- The earlier of two deadlines; of two at one instant the first. -/
def earlier (first second : Deadline) : Deadline :=
  if first.at_ ≤ second.at_ then first else second

end Deadline

/-- What a caller passes along with a request. -/
structure Context where
  token : TokenId
  deadline : Option Deadline := none
  deriving DecidableEq

namespace Context

/-- The first instant that cannot be told: 2⁶³ seconds after the machine was started, which is
taken to be an hour before the start of the clock. -/
def endOfTime : Instant := (Nat.pow 2 63 - 3600) * Duration.second

/-- Adds a deadline; an earlier one that is there already stays. -/
def tighten (c : Context) (d : Deadline) : Context :=
  { c with deadline := some (match c.deadline with
      | some existing => existing.earlier d
      | none => d) }

/-- Sets a deadline from now on. A timeout past the end of time changes nothing. -/
def withTimeout (c : Context) (now : Instant) (timeout : Duration) : Context :=
  if now + timeout < endOfTime then c.tighten ⟨now + timeout, now⟩ else c

/-- Sets a deadline at an instant. -/
def withDeadline (c : Context) (now : Instant) (at_ : Instant) : Context := c.tighten ⟨at_, now⟩

/-- The time left until the deadline. -/
def remaining (c : Context) (now : Instant) : Option Duration :=
  c.deadline.map fun d => d.at_ - now

/-- Fails if the request is cancelled, or else if its deadline has come. -/
def check (c : Context) (tokens : Tokens) (now : Instant) : Except StoreError Unit :=
  match tokens.state c.token with
  | .cancelled reason => .error (.cancelled reason)
  | .live =>
    match c.deadline with
    | some d => if d.at_ ≤ now then .error d.error else .ok ()
    | none => .ok ()

end Context

end Delivery
