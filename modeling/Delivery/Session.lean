import Delivery.Promote
import Delivery.Rehearsal

/-!
# Sessions

A session is one service over scripted collaborators on a clock that starts at zero, together with
the contexts that callers have made. Every action takes the session to its next state; what was
called, logged and reported meanwhile stands in its world.
-/

namespace Delivery

/-- A service in use. -/
structure Session where
  world : World Rehearsal
  service : Option (Service Rehearsal)
  /-- The contexts that callers have made, by name. -/
  contexts : Table String Context := .empty
  /-- The number of the next token. -/
  nextToken : TokenId := 0

namespace Session

/-- A session before anything has happened. -/
def start (service : Option (Service Rehearsal)) (scripts : Scripts) : Session where
  world :=
    { state := { scripts }
      sink := (service.map Service.sink).getD .discarding }
  service

/-- Forgets what was called, logged and reported. -/
def forget (s : Session) : Session :=
  { s with world := { s.world with calls := [], logs := [], sink := s.world.sink.clear } }

/-! ## The store -/

/-- The store. -/
def store (s : Session) : Store := s.world.state.store

/-- Changes the store. -/
def mapStore (s : Session) (f : Store → Store) : Session :=
  { s with world := { s.world with state := { s.world.state with store := f s.store } } }

/-- Has the store create a resource. -/
def create (s : Session) (r : Resource) : Except StoreError Unit × Session :=
  let (outcome, store) := s.store.create r
  (outcome, s.mapStore fun _ => store)

/-! ## Contexts -/

/-- The context of a name, or a new one under which nobody else works. -/
def context (s : Session) (name : Option String) : Context × Session :=
  match name.bind s.contexts.get? with
  | some c => (c, s)
  | none => (⟨s.nextToken, none⟩, { s with nextToken := s.nextToken + 1 })

/-- Keeps a context under a name. -/
def keep (s : Session) (name : String) (c : Context) : Session :=
  { s with contexts := s.contexts.insert name c }

/-- The state of a context's token. -/
def token (s : Session) (c : Context) : Token := s.world.tokens.state c.token

/-- Cancels a context's token. -/
def cancel (s : Session) (c : Context) (reason : String) : Session :=
  { s with world := s.world.cancel c.token reason }

/-- Checks a context. -/
def check (s : Session) (c : Context) : Except StoreError Unit :=
  c.check s.world.tokens s.world.now

/-- Lets time pass while nothing happens. -/
def advance (s : Session) (d : Duration) : Session :=
  { s with world := { s.world with now := s.world.now + d } }

/-- Does something in the world while a cancellation of the context is planned, some time from now;
what has not come when it is over does not come. -/
def during {α : Type} (s : Session) (c : Context) (planned : Option (Duration × String))
    (action : World Rehearsal → α × World Rehearsal) : α × Session :=
  let begun := match planned with
    | some (after, reason) => s.world.cancelLater (s.world.now.afterSleep after) ⟨c.token, reason⟩
    | none => s.world
  let (a, world) := action begun
  (a, { s with world := { world with agenda := {} } })

/-! ## Calls and queries -/

/-- Runs a scripted call under a context; without a reply of its own it answers with `value`. -/
def runCall {α : Type} (s : Session) (c : Context) (planned : Option (Duration × String))
    (script : Script α) (value : α) : Except StoreError α × Session :=
  s.during c planned fun w =>
    w.call c fun w => (script.call fun state => (.ok value, state), w)

/-- The service that asks the collaborators in the caller's own context. -/
def plain : Service Rehearsal where
  validator := some Rehearsal.backend.validator
  reader := Rehearsal.backend.reader
  lister := Rehearsal.backend.lister
  freight := Rehearsal.backend.freight
  creator := Rehearsal.backend.creator
  index := some Rehearsal.indexed
  stamps _ := ⟨.nil, default⟩
  sink := .discarding
  config := {}

/-- Carries out a query under a context. -/
def query {α : Type} (s : Session) (c : Context) (p : Plan α) : α × Session :=
  s.during c none (p.run plain c)

/-- Replaces the index of a project by that of some stages. -/
def replaceIndex (s : Session) (project : String) (stages : List Stage) : Session :=
  let state := s.world.state
  { s with world := { s.world with
      state := { state with indexes := state.indexes.replace project stages } } }

/-- Rebuilds the index of a project from a new listing; when that fails, the index stays. -/
def refreshIndex (s : Session) (c : Context) (project : String) :
    Except StoreError Unit × Session :=
  match s.query c (listStages project) with
  | (.ok stages, s) => (.ok (), s.replaceIndex project stages)
  | (.error e, s) => (.error e, s)

/-! ## Promotions -/

/-- Promotes a stage; none when there is no service. -/
def promoteStage (s : Session) (c : Context) (planned : Option (Duration × String)) (m : Move) :
    Option (Except PromotionError Promotion × Session) :=
  s.service.map fun service => s.during c planned ((Delivery.promoteStage m).run.run service c)

/-- Promotes the subscribers of a stage; none when there is no service. -/
def promoteSubscribers (s : Session) (c : Context) (planned : Option (Duration × String))
    (m : Move) : Option (CascadeResult × Session) :=
  s.service.map fun service =>
    s.during c planned ((Delivery.promoteSubscribers service.resolver m).run service c)

end Session

end Delivery
