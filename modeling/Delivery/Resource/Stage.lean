import Delivery.Resource.Meta

/-!
# Stages

A stage is a place that freight is promoted to. It may subscribe to a warehouse and to other
stages, its sources, which makes the stages of a project a directed graph.
-/

namespace Delivery

/-- A stage that another one takes freight from. -/
structure Source where
  name : String
  deriving DecidableEq

/-- Where a stage takes freight from. -/
structure Subscriptions where
  warehouse : Option String := none
  sources : List Source := []
  deriving DecidableEq

/-- What is asked of a stage. -/
structure StageSpec where
  subscriptions : Option Subscriptions := none
  deriving DecidableEq

/-- A place that freight is promoted to. -/
structure Stage where
  metadata : Metadata
  spec : Option StageSpec := none
  deriving DecidableEq

namespace Stage

/-- The stage that subscribes to nothing. -/
def named (project name : String) : Stage := ⟨{ project, name }, none⟩

/-- The stage's own name. -/
def name (s : Stage) : String := s.metadata.name

/-- The project the stage belongs to. -/
def project (s : Stage) : String := s.metadata.project

/-- The identity of the stage. -/
def key (s : Stage) : Key := s.metadata.key

/-- The stage's subscriptions, none given being none at all. -/
def subscriptions (s : Stage) : Subscriptions :=
  (s.spec.bind StageSpec.subscriptions).getD {}

/-- The same stage with its subscriptions changed. -/
def subscribing (s : Stage) (change : Subscriptions → Subscriptions) : Stage :=
  { s with spec := some { subscriptions := some (change s.subscriptions) } }

/-- Subscribes to one more stage. -/
def withSource (s : Stage) (source : String) : Stage :=
  s.subscribing fun subs => { subs with sources := subs.sources ++ [⟨source⟩] }

/-- Subscribes to several more stages, in order. -/
def withSources (s : Stage) (sources : List String) : Stage := sources.foldl withSource s

/-- Subscribes to a warehouse instead of the one before. -/
def withWarehouse (s : Stage) (warehouse : String) : Stage :=
  s.subscribing fun subs => { subs with warehouse := some warehouse }

/-- The names of the stages it takes freight from, as declared. -/
def sourceNames (s : Stage) : List String := s.subscriptions.sources.map Source.name

/-- True when the stage declares the named one as a source. -/
def subscribesTo (s : Stage) (source : String) : Bool := s.sourceNames.contains source

end Stage

end Delivery
