import Delivery.Json.Decode
import Delivery.Resource.Basic

/-!
# Resources from JSON

Each structure has a shape that names its fields in declared order; its parts are gathered in a
draft in which everything is optional.
-/

namespace Delivery

open Json

/-- A field that must be there. -/
def requiredField {σ α : Type} (name : String) (decode : Decoder α) (get : σ → Option α)
    (set : Option α → σ → σ) : FieldShape σ where
  name
  read n parts := (decode n).map fun v => set (some v) parts
  present parts := (get parts).isSome
  required := true

/-- A field that may be left out. -/
def optionalField {σ α : Type} (name : String) (decode : Decoder α) (get : σ → Option α)
    (set : Option α → σ → σ) : FieldShape σ :=
  { requiredField name decode get set with required := false }

/-! ## Metadata -/

/-- A structure of two strings. -/
def pairShape {α : Type} (name first second : String) (make : String → String → α) :
    Shape (Option String × Option String) α where
  name
  fields :=
    [requiredField first decodeString Prod.fst fun v p => (v, p.2),
     requiredField second decodeString Prod.snd fun v p => (p.1, v)]
  start := (none, none)
  build p := do return make (← p.1) (← p.2)

/-- Decodes a key. -/
def Key.decode : Decoder Key := (pairShape "NamespacedName" "namespace" "name" Key.mk).decode

/-- Decodes an owner. -/
def Owner.decode : Decoder Owner := (pairShape "OwnerReference" "kind" "name" Owner.mk).decode

/-- Decodes what a promotion asks for. -/
def PromotionSpec.decode : Decoder PromotionSpec :=
  (pairShape "PromotionSpec" "stage" "freight" PromotionSpec.mk).decode

/-- The parts of metadata. -/
structure Metadata.Draft where
  project : Option String := none
  name : Option String := none
  labels : Option (Table String String) := none
  owners : Option (List Owner) := none
  created : Option (Option DateTime) := none

/-- The shape of metadata. -/
def Metadata.shape : Shape Metadata.Draft Metadata where
  name := "ObjectMeta"
  fields :=
    [requiredField "namespace" decodeString Draft.project fun v d => { d with project := v },
     requiredField "name" decodeString Draft.name fun v d => { d with name := v },
     optionalField "labels" (decodeTable decodeString) Draft.labels
       fun v d => { d with labels := v },
     optionalField "owner_references" (decodeList Owner.decode) Draft.owners
       fun v d => { d with owners := v },
     optionalField "creation_timestamp" (decodeOption decodeDateTime) Draft.created
       fun v d => { d with created := v }]
  start := {}
  build d := do
    return ⟨← d.project, ← d.name, d.labels.getD .empty, d.owners.getD [], d.created.getD none⟩

/-- Decodes metadata. -/
def Metadata.decode : Decoder Metadata := Metadata.shape.decode

/-! ## Stages -/

/-- A structure of one value. -/
def singleShape {α β : Type} (name : String) (field : FieldShape (Option α))
    (build : Option α → Option β) : Shape (Option α) β where
  name
  fields := [field]
  start := none
  build

/-- Decodes a source. -/
def Source.decode : Decoder Source :=
  (singleShape "StageSubscription" (requiredField "name" decodeString id fun v _ => v)
    (Option.map Source.mk)).decode

/-- The parts of subscriptions. -/
structure Subscriptions.Draft where
  warehouse : Option (Option String) := none
  sources : Option (List Source) := none

/-- The shape of subscriptions. -/
def Subscriptions.shape : Shape Subscriptions.Draft Subscriptions where
  name := "Subscriptions"
  fields :=
    [optionalField "warehouse" (decodeOption decodeString) Draft.warehouse
       fun v d => { d with warehouse := v },
     optionalField "upstream_stages" (decodeList Source.decode) Draft.sources
       fun v d => { d with sources := v }]
  start := {}
  build d := some ⟨d.warehouse.getD none, d.sources.getD []⟩

/-- Decodes subscriptions. -/
def Subscriptions.decode : Decoder Subscriptions := Subscriptions.shape.decode

/-- Decodes a stage's specification. -/
def StageSpec.decode : Decoder StageSpec :=
  (singleShape "StageSpec"
    (optionalField "subscriptions" (decodeOption Subscriptions.decode) id fun v _ => v)
    fun d => some ⟨d.getD none⟩).decode

/-- The parts of a stage. -/
structure Stage.Draft where
  metadata : Option Metadata := none
  spec : Option (Option StageSpec) := none

/-- The shape of a stage. -/
def Stage.shape : Shape Stage.Draft Stage where
  name := "Stage"
  fields :=
    [requiredField "metadata" Metadata.decode Draft.metadata fun v d => { d with metadata := v },
     optionalField "spec" (decodeOption StageSpec.decode) Draft.spec
       fun v d => { d with spec := v }]
  start := {}
  build d := do return ⟨← d.metadata, d.spec.getD none⟩

/-- Decodes a stage. -/
def Stage.decode : Decoder Stage := Stage.shape.decode

/-! ## Freight -/

/-- Decodes a qualification. -/
def Qualification.decode : Decoder Qualification :=
  (singleShape "Qualification"
    (optionalField "verified_at" (decodeOption decodeDateTime) id fun v _ => v)
    fun d => some ⟨d.getD none⟩).decode

/-- The parts of a freight. -/
structure Freight.Draft where
  metadata : Option Metadata := none
  qualifications : Option (Table String Qualification) := none

/-- The shape of a freight. -/
def Freight.shape : Shape Freight.Draft Freight where
  name := "Freight"
  fields :=
    [requiredField "metadata" Metadata.decode Draft.metadata fun v d => { d with metadata := v },
     optionalField "qualifications" (decodeTable Qualification.decode) Draft.qualifications
       fun v d => { d with qualifications := v }]
  start := {}
  build d := do return ⟨← d.metadata, d.qualifications.getD .empty⟩

/-- Decodes a freight. -/
def Freight.decode : Decoder Freight := Freight.shape.decode

/-! ## Promotions -/

/-- The parts of a promotion. -/
structure Promotion.Draft where
  metadata : Option Metadata := none
  spec : Option PromotionSpec := none

/-- The shape of a promotion. -/
def Promotion.shape : Shape Promotion.Draft Promotion where
  name := "Promotion"
  fields :=
    [requiredField "metadata" Metadata.decode Draft.metadata fun v d => { d with metadata := v },
     requiredField "spec" PromotionSpec.decode Draft.spec fun v d => { d with spec := v }]
  start := {}
  build d := do return ⟨← d.metadata, ← d.spec⟩

/-- Decodes a promotion. -/
def Promotion.decode : Decoder Promotion := Promotion.shape.decode

end Delivery
