import Delivery.Resource.Meta

/-!
# Freight

A freight is a bundle of artifacts that moves between stages. It is qualified for a stage once it
was verified there.
-/

namespace Delivery

/-- The evidence that a freight was verified in a stage. -/
structure Qualification where
  verifiedAt : Option DateTime := none
  deriving DecidableEq

/-- A bundle of artifacts that moves between stages. -/
structure Freight where
  metadata : Metadata
  qualifications : Table String Qualification := .empty
  deriving DecidableEq

namespace Freight

/-- The freight that is qualified for nothing. -/
def named (project name : String) : Freight := ⟨{ project, name }, .empty⟩

/-- The freight's own name. -/
def name (f : Freight) : String := f.metadata.name

/-- The identity of the freight. -/
def key (f : Freight) : Key := f.metadata.key

/-- Records that the freight was verified in a stage. -/
def qualifiedFor (f : Freight) (stage : String) (at_ : DateTime) : Freight :=
  { f with qualifications := f.qualifications.insert stage ⟨some at_⟩ }

/-- True when the freight was verified in the stage. -/
def isQualifiedFor (f : Freight) (stage : String) : Bool := f.qualifications.contains stage

/-- True when the freight was verified in one of the stages. -/
def isQualifiedForAny (f : Freight) (candidates : List String) : Bool :=
  candidates.any f.isQualifiedFor

end Freight

end Delivery
