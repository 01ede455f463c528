import Delivery.Agenda
import Delivery.Cancellation.Token

/-!
# Waiting for a cancellation

A `Watch` is a token with everyone who waits for its cancellation, on a clock. A waiter who is
looked at while the token is live listens; a cancellation wakes all who listen; whoever is awake, or
new, finishes when next looked at, if the token is cancelled by then.
-/

namespace Delivery

/-- How far someone who waits for a cancellation has come. -/
inductive Waiter where
  | fresh
  | listening
  | woken
  | finished
  deriving DecidableEq

namespace Waiter

/-- A waiter after it was looked at. -/
def poll (t : Token) : Waiter → Waiter
  | fresh | woken => if t.isCancelled then finished else listening
  | w => w

/-- A waiter after a cancellation. -/
def wake : Waiter → Waiter
  | listening => woken
  | w => w

end Waiter

/-- A token with its waiters, on a clock. -/
structure Watch where
  now : Instant := 0
  token : Token := .live
  /-- The reasons of cancellations to come, by tick. -/
  agenda : Agenda String := {}
  waiters : List Waiter := []

namespace Watch

/-- Cancels the token. The first cancellation wakes those who listen. -/
def cancel (w : Watch) (reason : String) : Watch :=
  if w.token.isCancelled then w
  else { w with token := w.token.cancel reason, waiters := w.waiters.map Waiter.wake }

/-- Adds a waiter. -/
def wait (w : Watch) : Watch := { w with waiters := w.waiters ++ [.fresh] }

/-- Plans a cancellation by somebody who sleeps before it. -/
def cancelLater (w : Watch) (d : Duration) (reason : String) : Watch :=
  { w with agenda := w.agenda.add (w.now.afterSleep d).dueTick reason }

/-- Looks at every waiter. -/
def pollAll (w : Watch) : Watch := { w with waiters := w.waiters.map (Waiter.poll w.token) }

/-- Lets the clock come to a tick, and does everything that is due by then. -/
def reach (w : Watch) (tick : Nat) : Watch :=
  let now := w.now.moveTo tick
  let moved : Watch := { w.pollAll with now, agenda := w.agenda.after now.ticks }
  ((w.agenda.due now.ticks).foldl cancel moved).pollAll

/-- Does everything that is due now. -/
def settle (w : Watch) : Watch := w.reach w.now.ticks

/-- Lets time pass in a sleep. -/
def sleep (w : Watch) (d : Duration) : Watch := w.reach (w.now.afterSleep d).dueTick

/-- Waits for the token to be cancelled; if it is not, by the first planned cancellation. -/
def join (w : Watch) : Watch :=
  if w.token.isCancelled then w
  else match w.agenda.next? with
    | some tick => w.reach tick
    | none => w

end Watch

end Delivery
