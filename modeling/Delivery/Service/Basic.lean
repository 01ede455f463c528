import Delivery.Config.Basic
import Delivery.Plan
import Delivery.Queries
import Delivery.Window

/-!
# Services

A `Service` carries plans out: it has collaborators that answer requests, a source of stamps for the
promotions it builds, and a configuration. Each call to a collaborator runs under a context of its
own, the caller's with the configured timeout (`Service.callContext`), and is recorded when it
starts. `Plan.run` is the meaning of a plan.
-/

namespace Delivery

/-- A collaborator that is asked for `α` with a `ρ`: what it does with the call. Being called may
change its state already. -/
abbrev Responder (σ ρ α : Type) := ρ → σ → Call σ (Except StoreError α) × σ

/-- The collaborator that answers at once. -/
def Responder.prompt {σ ρ α : Type} (reply : ρ → σ → Except StoreError α × σ) : Responder σ ρ α :=
  fun r s => (.answer (reply r), s)

/-- What carries plans out. -/
structure Service (σ : Type) where
  /-- Without one, every project is accepted. -/
  validator : Option (Responder σ String (Except PromotionError Unit))
  reader : Responder σ Key (Option Stage)
  lister : Responder σ String (List Stage)
  freight : Responder σ (Key × List String) (Option Freight)
  creator : Responder σ Promotion Unit
  /-- The subscribers of a stage in an index; without one, projects are scanned. -/
  index : Option (σ → Stage → List Stage)
  /-- The stamp of the n-th promotion. -/
  stamps : Nat → Promotion.Stamp
  /-- The sink that events go to, as it is in the beginning. -/
  sink : Sink
  config : Config

namespace Service

variable {σ : Type}

/-- How the service finds subscribers. -/
def resolver (s : Service σ) : Resolver := if s.index.isSome then .index else .scan

/-- The description of a service. -/
def describe (s : Service σ) : String :=
  "PromotionService \x7b config: " ++ s.config.describe ++ ", .. \x7d"

/-- What a service does with a request. -/
def serve (s : Service σ) : (r : Request) → σ → Call σ (Except StoreError r.Answer) × σ
  | .validate project, state =>
    match s.validator with
    | some responder => responder project state
    | none => (.answer fun state => (.ok (.ok ()), state), state)
  | .stage key, state => s.reader key state
  | .stages project, state => s.lister project state
  | .freight key candidates, state => s.freight (key, candidates) state
  | .create p, state => s.creator p state
  | .subscribers stage, state =>
    (.answer fun state => (.ok ((s.index.map fun find => find state stage).getD []), state), state)

/-- True for the requests that go to a collaborator, and not to the service itself. -/
def delegates (s : Service σ) : Request → Bool
  | .validate _ => s.validator.isSome
  | .subscribers _ => false
  | _ => true

/-- The context of a call: the caller's, with the timeout of one call. -/
def callContext (s : Service σ) (context : Context) (now : Instant) : Context :=
  match s.config.callTimeout with
  | some timeout => context.withTimeout now timeout
  | none => context

/-- Begins a call, and records it when it goes to a collaborator. -/
def begin (s : Service σ) (context : Context) (r : Request) (w : World σ) :
    Call σ (Except StoreError r.Answer) × World σ :=
  let (call, state) := s.serve r w.state
  -- The call itself is counted among those that run.
  let record : CallRecord := ⟨r, w.now, context.remaining w.now, w.running⟩
  (call, { w with state, calls := if s.delegates r then w.calls ++ [record] else w.calls })

/-- Makes a call under a context, and waits for it to end. -/
def call (s : Service σ) (context : Context) (r : Request) (w : World σ) :
    Except StoreError r.Answer × World σ :=
  let context := s.callContext context w.now
  w.call context (s.begin context r)

/-- Starts the write of a promotion. -/
def startWrite (s : Service σ) (context : Context) (p : Promotion) (w : World σ) :
    Status σ Unit × World σ :=
  let context := s.callContext context w.now
  w.start context (s.begin context (.create p))

/-- Writes promotions through a window. -/
def write (s : Service σ) (context : Context) (promotions : List Promotion) (w : World σ) :
    List (Promotion × WriteOutcome) × World σ :=
  Window.run (s.startWrite context) ⟨s.config.maxConcurrentWrites, promotions, []⟩ w

/-- Takes a note: lines go to the log, and events to the sink, if they are wanted. -/
def take (s : Service σ) (n : Note) (w : World σ) : World σ :=
  match n with
  | .line line => w.log line
  | .event event => if s.config.emitEvents then w.emit event else w

end Service

/-- Carries out a plan under a caller's context. -/
def Plan.run {σ α : Type} (s : Service σ) (context : Context) : Plan α → World σ → α × World σ
  | done a, w => (a, w)
  | note n next, w => next.run s context (s.take n w)
  | call r next, w =>
    let (answer, w) := s.call context r w
    (next answer).run s context w
  | build stage freight next, w =>
    let p := Promotion.build stage freight (s.stamps w.built)
    (next p).run s context { w with built := w.built + 1 }
  | writes promotions next, w =>
    let (outcomes, w) := s.write context promotions w
    (next outcomes).run s context w

/-- Carrying out a plan that goes on with another is carrying out both. -/
theorem Plan.run_bind {σ α β : Type} (s : Service σ) (context : Context) (p : Plan α)
    (f : α → Plan β) (w : World σ) :
    (p.bind f).run s context w =
      (f (p.run s context w).1).run s context (p.run s context w).2 := by
  induction p generalizing w with
  | done a => simp only [bind, run]
  | note n next ih => simp only [bind, run, ih]
  | call r next ih => simp only [bind, run, ih]
  | build stage freight next ih => simp only [bind, run, ih]
  | writes promotions next ih => simp only [bind, run, ih]

end Delivery
