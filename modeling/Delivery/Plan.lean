import Delivery.Cascade
import Delivery.Event
import Delivery.Request

/-!
# Plans

A `Plan` is what an operation intends to do, without saying who answers its requests or how long
that takes: it makes requests one after another, has promotions built, has a list of them written,
and leaves notes. `Operation` is a plan that may end in a `PromotionError`.
-/

namespace Delivery

/-- What is told about an operation. -/
inductive Note where
  /-- A line for the log. -/
  | line (line : LogLine)
  /-- An event for the sink. -/
  | event (event : Event)

/-- A program of requests that ends with a value. -/
inductive Plan (α : Type) where
  | done (a : α)
  /-- Leaves a note. -/
  | note (n : Note) (next : Plan α)
  /-- Makes a request, and goes on with the answer or the failure. -/
  | call (r : Request) (next : Except StoreError r.Answer → Plan α)
  /-- Has a promotion of a stage onto a freight built. -/
  | build (stage : Stage) (freight : String) (next : Promotion → Plan α)
  /-- Has promotions written, several at a time, and goes on with every outcome in order. -/
  | writes (promotions : List Promotion) (next : List (Promotion × WriteOutcome) → Plan α)

namespace Plan

/-- Goes on with another plan. -/
def bind {α β : Type} : Plan α → (α → Plan β) → Plan β
  | done a, f => f a
  | note n next, f => note n (next.bind f)
  | call r next, f => call r fun a => (next a).bind f
  | build stage freight next, f => build stage freight fun p => (next p).bind f
  | writes promotions next, f => writes promotions fun os => (next os).bind f

instance : Monad Plan where
  pure := done
  bind := bind

/-- A single request. -/
def ask (r : Request) : Plan (Except StoreError r.Answer) := call r done

/-- A single line for the log. -/
def log (level : Level) (message : String) (fields : List (String × LogValue)) : Plan Unit :=
  note (.line ⟨level, message, fields⟩) (done ())

/-- A single event. -/
def emit (type : String) (data : List (String × Json)) : Plan Unit :=
  note (.event ⟨type, some (.record data)⟩) (done ())

/-- Has one promotion built. -/
def promotion (stage : Stage) (freight : String) : Plan Promotion := build stage freight done

/-- Has one promotion built for each of some stages, in order. -/
def promotions (stages : List Stage) (freight : String) : Plan (List Promotion) :=
  match stages with
  | [] => done []
  | stage :: rest =>
    build stage freight fun p => (promotions rest freight).bind fun ps => done (p :: ps)

@[simp] theorem pure_def {α : Type} (a : α) : (pure a : Plan α) = done a := rfl

@[simp] theorem bind_def {α β : Type} (p : Plan α) (f : α → Plan β) : p >>= f = p.bind f := rfl

theorem bind_done {α : Type} (p : Plan α) : p.bind done = p := by
  induction p with
  | done a => rfl
  | note n next ih => simp [bind, ih]
  | call r next ih => simp [bind, ih]
  | build stage freight next ih => simp [bind, ih]
  | writes promotions next ih => simp [bind, ih]

theorem bind_bind {α β γ : Type} (p : Plan α) (f : α → Plan β) (g : β → Plan γ) :
    (p.bind f).bind g = p.bind fun a => (f a).bind g := by
  induction p with
  | done a => rfl
  | note n next ih => simp [bind, ih]
  | call r next ih => simp [bind, ih]
  | build stage freight next ih => simp [bind, ih]
  | writes promotions next ih => simp [bind, ih]

instance : LawfulMonad Plan := LawfulMonad.mk' _
  (by intro α p; exact bind_done p)
  (by intro α β a f; rfl)
  (by intro α β γ p f g; exact bind_bind p f g)

end Plan

/-- A plan that may end in an error. -/
abbrev Operation (α : Type) := ExceptT PromotionError Plan α

end Delivery
