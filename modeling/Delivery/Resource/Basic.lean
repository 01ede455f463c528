import Delivery.Resource.Freight
import Delivery.Resource.Promotion

/-!
# Resources of any kind

What can be created in a store: a stage, a freight or a promotion.
-/

namespace Delivery

/-- The kinds of resources. -/
inductive Kind where
  | stage
  | freight
  | promotion
  deriving DecidableEq

/-- The name of a kind. -/
def Kind.text : Kind → String
  | stage => "Stage"
  | freight => "Freight"
  | promotion => "Promotion"

/-- A resource of any kind. -/
inductive Resource where
  | stage (s : Stage)
  | freight (f : Freight)
  | promotion (p : Promotion)
  deriving DecidableEq

namespace Resource

/-- The kind of a resource. -/
def kind : Resource → Kind
  | stage _ => .stage
  | freight _ => .freight
  | promotion _ => .promotion

/-- The metadata of a resource. -/
def metadata : Resource → Metadata
  | stage s => s.metadata
  | freight f => f.metadata
  | promotion p => p.metadata

/-- The identity of a resource among those of its kind. -/
def key (r : Resource) : Key := r.metadata.key

end Resource

end Delivery
