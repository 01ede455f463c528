import Delivery.Subscribers

/-!
# Candidates

A freight may move when it is qualified for one of the candidate stages. To promote a stage, these
are the stage and its sources; to cascade from a stage, the stage alone.
-/

namespace Delivery

/-- The candidates for promoting a stage: itself, then its sources in declared order, each once. -/
def promotionCandidates (stage : Stage) : List String := distinct (stage.name :: stage.sourceNames)

/-- The candidates for cascading from a stage. -/
def cascadeCandidates (stage : Stage) : List String := [stage.name]

end Delivery
