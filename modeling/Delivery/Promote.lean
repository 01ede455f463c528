import Delivery.Candidates
import Delivery.Queries

/-!
# Promoting

The two operations. `promoteStage` moves one stage onto a freight that is qualified for the stage or
for one of its sources; `promoteSubscribers` moves every subscriber of a stage onto a freight that
is qualified for that stage. Both first check what they were asked, then ask in turn whether the
project is valid, for the stage, and for the freight; the first step that is not accepted decides.
In a cascade every write succeeds or fails on its own.
-/

namespace Delivery

/-- What an operation is asked for: a stage of a project, and a freight. -/
structure Move where
  project : String
  stage : String
  freight : String
  deriving DecidableEq

namespace Move

/-- The fields of a line about the stage. -/
def stageFields (m : Move) : List (String × LogValue) :=
  [("project", .text m.project), ("stage", .text m.stage)]

/-- The fields of a line about the whole move. -/
def fields (m : Move) : List (String × LogValue) := m.stageFields ++ [("freight", .text m.freight)]

/-- The first part that is empty, if there is one. -/
def flaw? (m : Move) : Option PromotionError :=
  if m.project.isEmpty then some (.invalidArgument "project should not be empty")
  else if m.stage.isEmpty then some (.invalidArgument "stage should not be empty")
  else if m.freight.isEmpty then some (.invalidArgument "freight should not be empty")
  else none

/-- The stage does not exist. -/
def stageNotFound (m : Move) : PromotionError :=
  .notFound ("Stage " ++ Text.quote m.stage ++ " not found in namespace " ++ Text.quote m.project)

/-- The freight does not exist, or is not qualified. -/
def noQualifiedFreight (m : Move) : PromotionError :=
  .notFound ("no qualified Freight " ++ Text.quote m.freight ++ " found in namespace " ++
    Text.quote m.project)

/-- The stage has no subscribers. -/
def noSubscribers (m : Move) : PromotionError :=
  .notFound ("Stage " ++ Text.quote m.stage ++ " has no subscribers")

end Move

/-- Ends an operation. -/
def Operation.fail {α : Type} (e : PromotionError) : Operation α := ExceptT.mk (.done (.error e))

/-- Does a step of a plan within an operation. -/
def Operation.step {α : Type} (p : Plan α) : Operation α := ExceptT.lift p

/-- Asks a question; its failure ends the operation. `action` is what the log calls the question. -/
def Operation.query {α : Type} (m : Move) (action : String) (p : Plan (Except StoreError α)) :
    Operation α := do
  match ← step p with
  | .ok a => return a
  | .error e =>
    step (Plan.log .error "Collaborator call failed"
      (m.stageFields ++ [("action", .text action), ("error", .text e.message)]))
    fail (.internal e)

open Operation

/-! ## Reports -/

/-- Reports that a promotion was created. -/
def reportCreated (p : Promotion) : Plan Unit :=
  Plan.emit Event.promotionCreated
    [("project", .text p.project), ("stage", .text p.stage), ("freight", .text p.freight),
     ("promotion", .text p.name)]

/-- Reports that a promotion was not created. -/
def reportFailed (p : Promotion) (e : StoreError) : Plan Unit :=
  Plan.emit Event.promotionFailed
    [("project", .text p.project), ("stage", .text p.stage), ("freight", .text p.freight),
     ("error", .text e.message), ("error_type", .text e.typeName)]

/-- Reports the outcome of one write of a cascade. -/
def reportOutcome (m : Move) (p : Promotion) (outcome : WriteOutcome) : Plan Unit := do
  let subject : List (String × LogValue) :=
    [("project", .text m.project), ("stage", .text p.stage), ("freight", .text m.freight)]
  match outcome with
  | .ok () =>
    Plan.log .info "Created subscriber promotion" (subject ++ [("promotion", .text p.name)])
    reportCreated p
  | .error e =>
    Plan.log .warn "Failed to create subscriber promotion" (subject ++ [("error", .text e.message)])
    reportFailed p e

/-- Reports the outcomes of a cascade, in order. -/
def reportOutcomes (m : Move) : List (Promotion × WriteOutcome) → Plan Unit
  | [] => return ()
  | (p, outcome) :: rest => do
    reportOutcome m p outcome
    reportOutcomes m rest

/-- Reports that a cascade is over. -/
def reportCascade (m : Move) (total failed : Nat) (result : CascadeResult) : Plan Unit := do
  let created := result.promotions.length
  Plan.log .info "Subscriber cascade finished"
    (m.fields ++ [("subscribers", .count total), ("created", .count created),
      ("failed", .count failed), ("operation", .text "promote_subscribers")])
  Plan.emit Event.cascadeCompleted
    [("project", .text m.project), ("stage", .text m.stage), ("freight", .text m.freight),
     ("status", .text result.status.text), ("created", .int created), ("failed", .int failed)]

/-! ## The operations -/

/-- Checks what was asked, validates the project, and finds the stage and a freight that is
qualified for one of the stage's candidates. -/
def eligibleStage (m : Move) (candidates : Stage → List String) : Operation Stage := do
  if let some flaw := m.flaw? then fail flaw
  match ← query m "validating project" (Plan.ask (.validate m.project)) with
  | .error e => fail e
  | .ok () => pure ()
  match ← query m "getting stage" (fetchStage ⟨m.project, m.stage⟩) with
  | none =>
    step (Plan.log .warn "Stage not found" m.stageFields)
    fail m.stageNotFound
  | some stage =>
    match ← query m "getting qualified freight"
        (qualifiedFreight ⟨m.project, m.freight⟩ (candidates stage)) with
    | none =>
      step (Plan.log .warn "No qualified freight"
        (m.fields ++ [("candidates", .text (Text.quoteAll (candidates stage)))]))
      fail m.noQualifiedFreight
    | some _ => return stage

/-- Creates a promotion of a stage. Asking twice creates two. -/
def promoteStage (m : Move) : Operation Promotion := do
  step (Plan.log .debug "Promoting stage" m.fields)
  let stage ← eligibleStage m promotionCandidates
  let p ← step (Plan.promotion stage m.freight)
  match ← step (Plan.ask (.create p)) with
  | .error e =>
    step (Plan.log .error "Failed to create promotion"
      (m.fields ++ [("promotion", .text p.name), ("error", .text e.message)]))
    step (reportFailed p e)
    fail (.internal e)
  | .ok () =>
    step (Plan.log .info "Created promotion"
      (m.fields ++ [("promotion", .text p.name), ("operation", .text "promote_stage")]))
    step (reportCreated p)
    return p

/-- Writes a promotion for each of some subscribers, and reports every outcome. -/
def cascadeTo (m : Move) (subscribers : List Stage) : Plan CascadeResult := do
  let promotions ← Plan.promotions subscribers m.freight
  let outcomes ← Plan.writes promotions .done
  reportOutcomes m outcomes
  let collector := Collector.ofOutcomes outcomes
  reportCascade m subscribers.length collector.failed collector.finish
  return collector.finish

/-- Creates a promotion of every subscriber, unless the request is rejected before. -/
def cascade (resolver : Resolver) (m : Move) : Operation CascadeResult := do
  step (Plan.log .debug "Promoting subscribers" m.fields)
  let stage ← eligibleStage m cascadeCandidates
  let subscribers ← query m "resolving subscribers" (resolver.subscribers stage)
  if subscribers.isEmpty then
    step (Plan.log .warn "Stage has no subscribers" m.stageFields)
    fail m.noSubscribers
  else step (cascadeTo m subscribers)

/-- Creates a promotion of every subscriber of a stage. -/
def promoteSubscribers (resolver : Resolver) (m : Move) : Plan CascadeResult := do
  match ← (cascade resolver m).run with
  | .ok result => return result
  | .error e => return CascadeResult.rejected e

end Delivery
