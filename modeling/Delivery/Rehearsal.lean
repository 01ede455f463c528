import Delivery.Service.Wiring
import Delivery.Subscribers

/-!
# Rehearsals

Collaborators that follow scripts: the n-th call of each does what its n-th script says, and then
asks the in-memory store, unless the script has an answer of its own. Calls without a script ask the
store at once.
-/

namespace Delivery

/-- What a collaborator does with one call, in this order: it cancels the request, takes time,
cancels the request, and answers. -/
structure Script (α : Type) where
  cancel : Option String := none
  delay : Option Duration := none
  cancelAfter : Option String := none
  /-- The answer; without one, somebody else is asked. -/
  reply : Option (Except StoreError α) := none

/-- The call that follows a script; `ask` gives the answer when the script has none. -/
def Script.call {σ α : Type} (s : Script α) (ask : σ → Except StoreError α × σ) :
    Call σ (Except StoreError α) :=
  let answer : Call σ (Except StoreError α) := .answer fun state =>
    match s.reply with
    | some reply => (reply, state)
    | none => ask state
  let cancelled (reason : Option String) (rest : Call σ (Except StoreError α)) :=
    match reason with
    | some reason => .cancel reason rest
    | none => rest
  let last := cancelled s.cancelAfter answer
  cancelled s.cancel (match s.delay with
    | some d => .sleep d last
    | none => last)

/-- The scripts that are still to be followed. -/
structure Scripts where
  validator : List (Script (Except PromotionError Unit)) := []
  reader : List (Script (Option Stage)) := []
  lister : List (Script (List Stage)) := []
  freight : List (Script (Option Freight)) := []
  creator : List (Script Unit) := []

/-- A store whose collaborators follow scripts, and the indexes of its subscribers. -/
structure Rehearsal where
  store : Store := .empty
  scripts : Scripts := {}
  indexes : SubscriberIndexes := .empty

namespace Rehearsal

instance : Inhabited Rehearsal := ⟨{}⟩

/-- A question to the store. -/
def askStore {α : Type} (ask : Store → Except StoreError α × Store) (r : Rehearsal) :
    Except StoreError α × Rehearsal :=
  let (answer, store) := ask r.store
  (answer, { r with store })

/-- The collaborator that takes its next script from a list of them, and puts back the rest. -/
def scripted {ρ α : Type} (get : Scripts → List (Script α))
    (put : List (Script α) → Scripts → Scripts) (ask : ρ → Store → Except StoreError α × Store) :
    Responder Rehearsal ρ α :=
  fun question r =>
    match get r.scripts with
    | [] => (Script.call {} (askStore (ask question)), r)
    | script :: rest =>
      (script.call (askStore (ask question)), { r with scripts := put rest r.scripts })

/-- The scripted collaborators. -/
def backend : Backend Rehearsal where
  validator := scripted Scripts.validator (fun l s => { s with validator := l })
    fun project s => (.ok (s.validateProject project), s)
  reader := scripted Scripts.reader (fun l s => { s with reader := l })
    fun key s => (s.getStage key, s)
  lister := scripted Scripts.lister (fun l s => { s with lister := l })
    fun project s => (s.listStages project, s)
  freight := scripted Scripts.freight (fun l s => { s with freight := l })
    fun q s => (s.getQualifiedFreight q.1 q.2, s)
  creator := scripted Scripts.creator (fun l s => { s with creator := l })
    fun p s => s.create (.promotion p)

/-- The subscribers of a stage in the indexes. -/
def indexed (r : Rehearsal) (stage : Stage) : List Stage := r.indexes.subscribers stage

end Rehearsal

end Delivery
