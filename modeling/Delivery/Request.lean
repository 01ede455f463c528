import Delivery.Error
import Delivery.Resource.Promotion
import Delivery.Resource.Freight

/-!
# Requests to collaborators

A promotion service asks its collaborators whether the caller may act on a project, for a stage,
for the stages of a project, for a freight that is qualified for a candidate, to create a
promotion, and, where there is an index, for the subscribers of a stage. A failed call fails with a
`StoreError`; an answer that there is nothing is an answer.
-/

namespace Delivery

/-- A request to a collaborator. -/
inductive Request where
  | validate (project : String)
  | stage (key : Key)
  | stages (project : String)
  | freight (key : Key) (candidates : List String)
  | create (promotion : Promotion)
  | subscribers (stage : Stage)
  deriving DecidableEq

/-- What a call that succeeds is answered with. A project validator's refusal is such an answer. -/
abbrev Request.Answer : Request → Type
  | validate _ => Except PromotionError Unit
  | stage _ => Option Stage
  | stages _ => List Stage
  | freight .. => Option Freight
  | create _ => Unit
  | subscribers _ => List Stage

/-- A call that was started: what was asked, when, how much time was left, and how many calls were
running then, this one included. -/
structure CallRecord where
  request : Request
  at_ : Instant
  remaining : Option Duration
  running : Nat
  deriving DecidableEq

end Delivery
