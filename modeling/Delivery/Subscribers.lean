import Delivery.Resource.Stage

/-!
# Subscribers

Stages record the stages they take freight from, not the ones they pass it on to. The subscribers
of a stage are found by scanning a listing (`subscribersOf`), or looked up in an index built from
one (`SubscriberIndex`), which gives the same stages in the same order.
-/

namespace Delivery

/-- The stages of a listing that declare the named one as a source. A stage may be its own
subscriber, and a repeated declaration counts once. -/
def subscribersOf (stages : List Stage) (source : String) : List Stage :=
  stages.filter fun s => s.subscribesTo source

/-- The first occurrence of every name, in order. -/
def distinct (names : List String) : List String := go [] names
where
  /-- Leaves out names already seen. -/
  go (seen : List String) : List String → List String
    | [] => []
    | n :: rest => if seen.contains n then go seen rest else n :: go (n :: seen) rest

/-- The subscribers of every stage that has any. -/
structure SubscriberIndex where
  bySource : Table String (List Stage) := .empty
  deriving DecidableEq

namespace SubscriberIndex

/-- The subscribers of the named stage. -/
def subscribers (index : SubscriberIndex) (source : String) : List Stage :=
  (index.bySource.get? source).getD []

/-- Adds a stage to the subscribers of one source. -/
def addTo (index : SubscriberIndex) (stage : Stage) (source : String) : SubscriberIndex :=
  ⟨index.bySource.insert source (index.subscribers source ++ [stage])⟩

/-- Adds a stage to the subscribers of each of its sources. -/
def add (index : SubscriberIndex) (stage : Stage) : SubscriberIndex :=
  (distinct stage.sourceNames).foldl (fun i source => i.addTo stage source) index

/-- The index of a listing. -/
def build (stages : List Stage) : SubscriberIndex := stages.foldl add {}

/-- How many stages have subscribers. -/
def size (index : SubscriberIndex) : Nat := index.bySource.toList.length

/-- True when no stage has subscribers. -/
def isEmpty (index : SubscriberIndex) : Bool := index.bySource.isEmpty

end SubscriberIndex

/-- One index per project that was ever indexed. -/
abbrev SubscriberIndexes := Table String SubscriberIndex

namespace SubscriberIndexes

/-- The subscribers of a stage in the index of its project; none when it was never indexed. -/
def subscribers (indexes : SubscriberIndexes) (stage : Stage) : List Stage :=
  ((indexes.get? stage.project).map fun i => i.subscribers stage.name).getD []

/-- Replaces the index of a project by that of a listing. -/
def replace (indexes : SubscriberIndexes) (project : String) (stages : List Stage) :
    SubscriberIndexes :=
  indexes.insert project (.build stages)

end SubscriberIndexes

end Delivery
