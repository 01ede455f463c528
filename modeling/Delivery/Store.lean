import Delivery.Error
import Delivery.Resource.Decoding
import Delivery.Resource.Encoding
import Delivery.Subdomain

/-!
# The in-memory store

The store plays every collaborator: it validates projects, reads and lists stages, reads qualified
freight and creates resources. Creation enforces subdomain names and never overwrites. Created
resources are kept in their JSON form and decoded when they are listed. Failures can be injected
per target stage or for the whole store.
-/

namespace Delivery

/-- The identity of a created resource: its kind, and its key among those of the kind. -/
structure Identity where
  key : Key
  kind : Kind
  deriving DecidableEq

namespace Identity

instance : Ord Kind where
  compare a b := compare a.ctorIdx b.ctorIdx

instance : Std.LawfulEqOrd Kind where
  compare_self {a} := by cases a <;> rfl
  eq_of_compare {a b} h := by cases a <;> cases b <;> first | rfl | exact absurd h (by decide)

instance : Std.TransOrd Kind where
  eq_swap {a b} := by cases a <;> cases b <;> rfl
  isLE_trans {a b c} := by cases a <;> cases b <;> cases c <;> decide

instance : Ord Identity where
  compare a b := (compare a.key b.key).then (compare a.kind b.kind)

theorem compare_def (a b : Identity) :
    compare a b = (compare a.key b.key).then (compare a.kind b.kind) := rfl

instance : Std.LawfulEqOrd Identity where
  compare_self := by simp [compare_def]
  eq_of_compare {a b} h := by
    rw [compare_def, Ordering.then_eq_eq] at h
    obtain ⟨h₁, h₂⟩ := h
    cases a; cases b
    simp_all [Std.LawfulEqCmp.compare_eq_iff_eq]

instance : Std.TransOrd Identity where
  eq_swap {a b} := by
    rw [compare_def, compare_def, Ordering.swap_then, ← Std.OrientedCmp.eq_swap,
      ← Std.OrientedCmp.eq_swap]
  isLE_trans {a b c} := by
    have lex : Std.TransCmp (compareLex (compareOn Identity.key) (compareOn Identity.kind)) :=
      inferInstance
    exact lex.isLE_trans

end Identity

/-- The identity under which a resource is created. -/
def Resource.identity (r : Resource) : Identity := ⟨r.key, r.kind⟩

/-- The in-memory store. -/
structure Store where
  /-- The registered projects. -/
  projects : Table String Unit := .empty
  stages : Table Key Stage := .empty
  freight : Table Key Freight := .empty
  /-- The created resources, in their JSON form. -/
  created : Table Identity Json := .empty
  /-- The stages for which creating a promotion fails, with the message it fails with. -/
  failures : Table Key String := .empty
  /-- Whether every call fails. -/
  unavailable : Bool := false
  /-- How many creations were attempted, successful or not. -/
  attempts : Nat := 0

namespace Store

/-! ## Maintenance -/

/-- The empty store. -/
def empty : Store := {}

instance : Inhabited Store := ⟨empty⟩

/-- Registers a project. -/
def addProject (s : Store) (project : String) : Store :=
  { s with projects := s.projects.insert project () }

/-- Stores a stage in place of the one before, and registers its project. -/
def putStage (s : Store) (stage : Stage) : Store :=
  { s.addProject stage.project with stages := s.stages.insert stage.key stage }

/-- Removes a stage. -/
def removeStage (s : Store) (key : Key) : Option Stage × Store :=
  (s.stages.get? key, { s with stages := s.stages.erase key })

/-- Stores a freight in place of the one before, and registers its project. -/
def putFreight (s : Store) (freight : Freight) : Store :=
  { s.addProject freight.metadata.project with freight := s.freight.insert freight.key freight }

/-- Makes every creation of a promotion of the stage fail with a message. -/
def failWritesFor (s : Store) (stage : Key) (message : String) : Store :=
  { s with failures := s.failures.insert stage message }

/-- Makes every call fail, or no longer so. -/
def setUnavailable (s : Store) (unavailable : Bool) : Store := { s with unavailable }

/-! ## What collaborators ask -/

/-- Fails while the store is unavailable. -/
def ensureAvailable (s : Store) : Except StoreError Unit :=
  if s.unavailable then .error (.backend "store unavailable") else .ok ()

/-- Accepts a registered project. -/
def validateProject (s : Store) (project : String) : Except PromotionError Unit :=
  match s.ensureAvailable with
  | .error e => .error (.internal e)
  | .ok () =>
    if s.projects.contains project then .ok ()
    else .error (.notFound ("project " ++ Text.quote project ++ " not found"))

/-- The stage under a key, if there is one. -/
def getStage (s : Store) (key : Key) : Except StoreError (Option Stage) :=
  s.ensureAvailable.map fun () => s.stages.get? key

/-- The stages of a project, in name order. -/
def listStages (s : Store) (project : String) : Except StoreError (List Stage) :=
  s.ensureAvailable.map fun () =>
    (s.stages.toList.filter fun e => e.1.project == project).map Prod.snd

/-- The freight under a key, if there is one and it is qualified for a candidate. -/
def getQualifiedFreight (s : Store) (key : Key) (candidates : List String) :
    Except StoreError (Option Freight) :=
  s.ensureAvailable.map fun () =>
    (s.freight.get? key).filter fun f => f.isQualifiedForAny candidates

/-- The failure injected for a resource. -/
def injected? (s : Store) : Resource → Option StoreError
  | .promotion p => (s.failures.get? ⟨p.project, p.stage⟩).map .backend
  | _ => none

/-- Why a resource cannot be created; the first reason counts. -/
def refusal? (s : Store) (r : Resource) : Option StoreError :=
  match s.ensureAvailable with
  | .error e => some e
  | .ok () =>
    if !Subdomain.isSubdomain r.metadata.name then
      some (.invalid (r.kind.text ++ " name " ++ Text.quote r.metadata.name ++
        " is not a valid DNS subdomain"))
    else match s.injected? r with
      | some e => some e
      | none =>
        if s.created.contains r.identity then
          some (.alreadyExists r.kind.text r.metadata.project r.metadata.name)
        else none

/-- Creates a resource, or says why not. Only a creation that succeeds changes what is stored; every
attempt is counted. -/
def create (s : Store) (r : Resource) : Except StoreError Unit × Store :=
  -- Attempts are counted before anything is checked.
  let counted := { s with attempts := s.attempts + 1 }
  match s.refusal? r with
  | some e => (.error e, counted)
  | none => (.ok (), { counted with created := s.created.insert r.identity r.toJson })

/-- The JSON forms of the created promotions of a project, in name order. -/
def promotionValues (s : Store) (project : String) : List Json :=
  (s.created.toList.filter fun e =>
    e.1.kind == .promotion && e.1.key.project == project).map Prod.snd

/-- Decodes values one by one; the first that fails counts. -/
def decodePromotions : List Json → Except StoreError (List Promotion)
  | [] => .ok []
  | v :: rest =>
    match Json.decodeJson Promotion.decode v with
    | .error (.mismatch m) => .error (.serialization m.message)
    | .error _ => .error (.serialization "not a promotion")
    | .ok p => (decodePromotions rest).map (p :: ·)

/-- The created promotions of a project, in name order. -/
def promotions (s : Store) (project : String) : Except StoreError (List Promotion) :=
  decodePromotions (s.promotionValues project)

end Store

end Delivery
