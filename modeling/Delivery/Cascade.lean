import Delivery.Error
import Delivery.Resource.Promotion

/-!
# The outcome of a cascade

Every write of a cascade is attempted; what was created and what failed is collected side by side,
so that a caller can tell success, partial failure and failure apart.
-/

namespace Delivery

/-- How a cascade ended. -/
inductive CascadeStatus where
  /-- Every promotion was created. -/
  | succeeded
  /-- Some promotions were created and some were not. -/
  | partiallyFailed
  /-- Nothing was created. -/
  | failed
  deriving DecidableEq

/-- The name of a status. -/
def CascadeStatus.text : CascadeStatus → String
  | succeeded => "succeeded"
  | partiallyFailed => "partially_failed"
  | failed => "failed"

/-- Every status under its name. -/
def CascadeStatus.variants : List (String × CascadeStatus) :=
  [succeeded, partiallyFailed, failed].map fun s => (s.text, s)

/-- What a cascade created, and what went wrong. -/
structure CascadeResult where
  promotions : List Promotion
  error : Option PromotionError
  deriving DecidableEq

namespace CascadeResult

/-- A cascade that ended before any write. -/
def rejected (e : PromotionError) : CascadeResult := ⟨[], some e⟩

/-- How the cascade ended. -/
def status (r : CascadeResult) : CascadeStatus :=
  match r.error, r.promotions with
  | none, _ => .succeeded
  | some _, _ :: _ => .partiallyFailed
  | some _, [] => .failed

/-- True when nothing went wrong. -/
def isOk (r : CascadeResult) : Bool := r.error.isNone

/-- The promotions, or else the error without them. -/
def toExcept (r : CascadeResult) : Except PromotionError (List Promotion) :=
  match r.error with
  | some e => .error e
  | none => .ok r.promotions

end CascadeResult

/-- Whether one promotion was created. -/
abbrev WriteOutcome := Except StoreError Unit

/-- The outcomes of writes so far. -/
structure Collector where
  created : List Promotion := []
  failures : List WriteFailure := []
  deriving DecidableEq

namespace Collector

/-- Records the outcome of one write. -/
def record (c : Collector) (p : Promotion) (outcome : WriteOutcome) : Collector :=
  match outcome with
  | .ok () => { c with created := c.created ++ [p] }
  | .error e => { c with failures := c.failures ++ [⟨p.stage, e⟩] }

/-- How many outcomes were recorded. -/
def attempted (c : Collector) : Nat := c.created.length + c.failures.length

/-- How many of them were failures. -/
def failed (c : Collector) : Nat := c.failures.length

/-- The result of the cascade: all failures make one error. -/
def finish (c : Collector) : CascadeResult where
  promotions := c.created
  error := if c.failures.isEmpty then none else some (.partialFailure c.failures)

/-- The collector of a list of outcomes. -/
def ofOutcomes (outcomes : List (Promotion × WriteOutcome)) : Collector :=
  outcomes.foldl (fun c o => c.record o.1 o.2) {}

end Collector

end Delivery
