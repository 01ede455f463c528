import Delivery.Service.Basic
import Delivery.Store

/-!
# Wiring

A `Wiring` collects the collaborators of a service. Of two settings of one part the last counts. The
stage reader, the stage lister, the freight reader and the resource creator are required; everything
else has a default.
-/

namespace Delivery

/-- Something that plays five collaborators at once. -/
structure Backend (σ : Type) where
  validator : Responder σ String (Except PromotionError Unit)
  reader : Responder σ Key (Option Stage)
  lister : Responder σ String (List Stage)
  freight : Responder σ (Key × List String) (Option Freight)
  creator : Responder σ Promotion Unit

/-- The in-memory store as collaborator: it answers every call at once. -/
def Store.backend : Backend Store where
  validator := .prompt fun project s => (.ok (s.validateProject project), s)
  reader := .prompt fun key s => (s.getStage key, s)
  lister := .prompt fun project s => (s.listStages project, s)
  freight := .prompt fun q s => (s.getQualifiedFreight q.1 q.2, s)
  creator := .prompt fun p s => s.create (.promotion p)

/-- The parts of a service that were set so far. -/
structure Wiring (σ : Type) where
  validator : Option (Responder σ String (Except PromotionError Unit)) := none
  reader : Option (Responder σ Key (Option Stage)) := none
  lister : Option (Responder σ String (List Stage)) := none
  freight : Option (Responder σ (Key × List String) (Option Freight)) := none
  creator : Option (Responder σ Promotion Unit) := none
  index : Option (σ → Stage → List Stage) := none
  stamps : Option (Nat → Promotion.Stamp) := none
  sink : Option Sink := none
  config : Config := {}

namespace Wiring

variable {σ : Type}

/-- Sets one part of a service, or five at once. -/
inductive Setting (σ : Type) where
  | backend (b : Backend σ)
  | validator (responder : Responder σ String (Except PromotionError Unit))
  | reader (responder : Responder σ Key (Option Stage))
  | lister (responder : Responder σ String (List Stage))
  | freight (responder : Responder σ (Key × List String) (Option Freight))
  | creator (responder : Responder σ Promotion Unit)
  | index (find : σ → Stage → List Stage)
  | stamps (source : Nat → Promotion.Stamp)
  | sink (s : Sink)
  | config (c : Config)

/-- Applies a setting. -/
def set (w : Wiring σ) : Setting σ → Wiring σ
  | .backend b =>
    { w with
      validator := some b.validator
      reader := some b.reader
      lister := some b.lister
      freight := some b.freight
      creator := some b.creator }
  | .validator responder => { w with validator := some responder }
  | .reader responder => { w with reader := some responder }
  | .lister responder => { w with lister := some responder }
  | .freight responder => { w with freight := some responder }
  | .creator responder => { w with creator := some responder }
  | .index find => { w with index := some find }
  | .stamps source => { w with stamps := some source }
  | .sink s => { w with sink := some s }
  | .config config => { w with config }

/-- The wiring that a list of settings makes. -/
def ofSettings (settings : List (Setting σ)) : Wiring σ := settings.foldl set {}

/-- A part that a service cannot do without. -/
def require {α : Type} (part : Option α) (c : Collaborator) : Except ConfigError α :=
  match part with
  | some a => .ok a
  | none => .error (.missing c)

/-- Builds the service: the configuration is checked first, then whether all required parts were
set. Without a source of stamps of its own, the service takes them from `fresh`. -/
def build (w : Wiring σ) (fresh : Nat → Promotion.Stamp) : Except ConfigError (Service σ) := do
  w.config.validate
  let reader ← require w.reader .stageReader
  let lister ← require w.lister .stageLister
  let freight ← require w.freight .freightReader
  let creator ← require w.creator .resourceCreator
  return {
    validator := w.validator
    reader, lister, freight, creator
    index := w.index
    stamps := w.stamps.getD fresh
    sink := w.sink.getD .discarding
    config := w.config }

/-- The description of a wiring. -/
def describe (w : Wiring σ) : String :=
  let part (name : String) (isSet : Bool) := "has_" ++ name ++ ": " ++
    (if isSet then "true" else "false") ++ ", "
  "PromotionServiceBuilder \x7b " ++ part "validator" w.validator.isSome ++
    part "reader" w.reader.isSome ++ part "lister" w.lister.isSome ++
    part "freight_reader" w.freight.isSome ++ part "creator" w.creator.isSome ++
    part "resolver" w.index.isSome ++ "config: " ++ w.config.describe ++ ", .. \x7d"

end Wiring

end Delivery
