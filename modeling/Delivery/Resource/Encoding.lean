import Delivery.Json.Basic
import Delivery.Resource.Basic

/-!
# Resources as JSON

The members of a resource's object come in a fixed order. A member that is optional is left out
when it is absent or empty.
-/

namespace Delivery

/-- A member that is left out when there is no value. -/
def optionalMember {α : Type} (name : String) (encode : α → Json) : Option α → List (String × Json)
  | none => []
  | some v => [(name, encode v)]

/-- A member that is left out when the list is empty. -/
def listMember {α : Type} (name : String) (encode : α → Json) (l : List α) : List (String × Json) :=
  if l.isEmpty then [] else [(name, .list (l.map encode))]

/-- A member that is left out when the table is empty. -/
def tableMember {α : Type} (name : String) (encode : α → Json) (t : Table String α) :
    List (String × Json) :=
  if t.isEmpty then [] else [(name, .object (t.toList.map fun e => (e.1, encode e.2)))]

/-- The JSON string of a moment. -/
def DateTime.toJson (m : DateTime) : Json := .text m.text

/-- The JSON object of a key. -/
def Key.toJson (k : Key) : Json := .object [("namespace", .text k.project), ("name", .text k.name)]

/-- The JSON object of an owner. -/
def Owner.toJson (o : Owner) : Json := .object [("kind", .text o.kind), ("name", .text o.name)]

/-- The JSON object of metadata. -/
def Metadata.toJson (m : Metadata) : Json :=
  .object ([("namespace", .text m.project), ("name", .text m.name)] ++
    tableMember "labels" .text m.labels ++
    listMember "owner_references" Owner.toJson m.owners ++
    optionalMember "creation_timestamp" DateTime.toJson m.created)

/-- The JSON object of a source. -/
def Source.toJson (u : Source) : Json := .object [("name", .text u.name)]

/-- The JSON object of subscriptions. -/
def Subscriptions.toJson (s : Subscriptions) : Json :=
  .object (optionalMember "warehouse" .text s.warehouse ++
    listMember "upstream_stages" Source.toJson s.sources)

/-- The JSON object of a stage's specification. -/
def StageSpec.toJson (s : StageSpec) : Json :=
  .object (optionalMember "subscriptions" Subscriptions.toJson s.subscriptions)

/-- The JSON object of a stage. -/
def Stage.toJson (s : Stage) : Json :=
  .object (("metadata", s.metadata.toJson) :: optionalMember "spec" StageSpec.toJson s.spec)

/-- The JSON object of a qualification. -/
def Qualification.toJson (q : Qualification) : Json :=
  .object (optionalMember "verified_at" DateTime.toJson q.verifiedAt)

/-- The JSON object of a freight. -/
def Freight.toJson (f : Freight) : Json :=
  .object (("metadata", f.metadata.toJson) ::
    tableMember "qualifications" Qualification.toJson f.qualifications)

/-- The JSON object of a promotion's specification. -/
def PromotionSpec.toJson (s : PromotionSpec) : Json :=
  .object [("stage", .text s.stage), ("freight", .text s.freight)]

/-- The JSON object of a promotion. -/
def Promotion.toJson (p : Promotion) : Json :=
  .object [("metadata", p.metadata.toJson), ("spec", p.spec.toJson)]

/-- The JSON object of a resource. -/
def Resource.toJson : Resource → Json
  | stage s => s.toJson
  | freight f => f.toJson
  | promotion p => p.toJson

end Delivery
