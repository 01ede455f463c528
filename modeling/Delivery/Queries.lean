import Delivery.Plan
import Delivery.Subscribers

/-!
# Queries

The questions that an operation puts to the stages and freights of a project, with the lines that
they leave in the log. Every query is asked anew; nothing is kept between two of them.
-/

namespace Delivery

/-- Asks for a stage. -/
def fetchStage (key : Key) : Plan (Except StoreError (Option Stage)) := do
  Plan.log .debug "Fetching stage" [("stage", .text key.text)]
  Plan.ask (.stage key)

/-- Asks for the stages of a project, in the order that the answer has. -/
def listStages (project : String) : Plan (Except StoreError (List Stage)) := do
  match ← Plan.ask (.stages project) with
  | .error e => return .error e
  | .ok stages =>
    Plan.log .debug "Listed stages" [("project", .text project), ("count", .count stages.length)]
    return .ok stages

/-- Asks for a freight that is qualified for one of the candidates. Whether it exists or not, the
answer is the same when it is not qualified. -/
def qualifiedFreight (key : Key) (candidates : List String) :
    Plan (Except StoreError (Option Freight)) := do
  match ← Plan.ask (.freight key candidates) with
  | .error e => return .error e
  | .ok found =>
    Plan.log .debug "Checked freight qualification"
      [("freight", .text key.text), ("candidates", .text (Text.quoteAll candidates)),
       ("qualified", .flag found.isSome)]
    return .ok found

/-- Finds the subscribers of a stage by listing its whole project. -/
def scanSubscribers (stage : Stage) : Plan (Except StoreError (List Stage)) := do
  match ← listStages stage.project with
  | .error e => return .error e
  | .ok stages =>
    let subscribers := subscribersOf stages stage.name
    Plan.log .debug "Resolved subscribers by namespace scan"
      [("project", .text stage.project), ("stage", .text stage.name),
       ("scanned", .count stages.length), ("subscribers", .count subscribers.length)]
    return .ok subscribers

/-- The description of what fetches and lists stages. -/
def describeDirectory : String := "StageDirectory \x7b .. \x7d"

/-- The description of what scans for subscribers. -/
def describeScan : String := "ScanResolver \x7b directory: " ++ describeDirectory ++ " \x7d"

/-- The description of what asks for qualified freight. -/
def describeGate : String := "QualificationGate \x7b .. \x7d"

/-- How the subscribers of a stage are found. -/
inductive Resolver where
  /-- By listing the project each time. -/
  | scan
  /-- By asking an index that its owner keeps up to date. -/
  | index
  deriving DecidableEq

/-- Finds the subscribers of a stage. -/
def Resolver.subscribers (r : Resolver) (stage : Stage) : Plan (Except StoreError (List Stage)) :=
  match r with
  | scan => scanSubscribers stage
  | index => Plan.ask (.subscribers stage)

end Delivery
