import Delivery.Cancellation.Watch
import Delivery.Proofs.Happenings

/-!
# Calls that may be abandoned

An `Attempt` makes a call for a request, and gives it up when the request is over. It is told here
of any call at all (`Future`), looked at any number of times with anything happening in between, on
a clock whose timers may be late but never early (`Timer`), and with the request's token as it is
kept: a flag, the reason apart from it, and a listener that has to be woken (`Signal`).

What an attempt answers can be told without any of that. It is refused when the request was over
before its call is created (`Context.Over`); else it answers at the first look at which something
decides (`Attempt.Decided`), a cancellation before the timer, and the timer before the call
(`Sight.Decides`).

* `Attempt.Tracks` — flag, reason and listener keep in step with what has happened;
* `Attempt.Tracks.select_cases` — one look at a call under way;
* `Attempt.Tracks.decided_run` — any number of looks;
* `Attempt.run_cases` — an attempt from its first look on.
-/

namespace Delivery

variable {σ κ β : Type}

/-! ## Tokens as they are kept -/

/-- A token as it is kept for one request: a flag, the reason, and the listener of the call that
waits. -/
structure Signal where
  raised : Bool := false
  reason : Option String := none
  listener : Waiter := .fresh

namespace Signal

/-- The first cancellation raises the flag, leaves its reason and wakes the listener. -/
def cancel (s : Signal) (reason : String) : Signal :=
  if s.raised then s else ⟨true, some reason, s.listener.wake⟩

/-- Looks at the listener: awake or new, it finishes when the flag is up, and else listens on. -/
def listen (s : Signal) : Signal :=
  match s.listener with
  | .fresh | .woken => { s with listener := if s.raised then .finished else .listening }
  | .listening | .finished => s

/-- The failure of a call that the cancellation ends. Without a reason there would be a text in its
place. -/
def error (s : Signal) : StoreError := .cancelled (s.reason.getD "request cancelled")

/-- What is kept of a token while nobody listens. -/
def ofToken (t : Token) : Signal := { raised := t.isCancelled, reason := t.reason? }

/-- The flag and the reason tell the state of a token. -/
structure Shows (s : Signal) (t : Token) : Prop where
  raised : s.raised = t.isCancelled
  reason : s.reason = t.reason?

theorem shows_ofToken (t : Token) : (ofToken t).Shows t := ⟨rfl, rfl⟩

theorem Shows.cancel {s : Signal} {t : Token} (h : s.Shows t) (reason : String) :
    (s.cancel reason).Shows (t.cancel reason) := by
  unfold Signal.cancel
  cases t with
  | live =>
      have hraised : ¬ s.raised = true := by rw [h.raised]; exact Bool.false_ne_true
      rw [if_neg hraised]
      exact ⟨rfl, rfl⟩
  | cancelled first =>
      have hraised : s.raised = true := h.raised
      rw [if_pos hraised]
      exact h

/-- Listening does not touch the flag and the reason. -/
theorem Shows.listen {s : Signal} {t : Token} (h : s.Shows t) : s.listen.Shows t := by
  unfold Signal.listen
  cases s.listener with
  | fresh | woken => exact ⟨h.raised, h.reason⟩
  | listening | finished => exact h

/-- The listener has not finished, and nothing is missed: it listens only while the flag is down. -/
structure Attentive (s : Signal) : Prop where
  unfinished : s.listener ≠ .finished
  down : s.listener = .listening → s.raised = false

theorem attentive_ofToken (t : Token) : (ofToken t).Attentive where
  unfinished h := by cases h
  down h := by cases h

/-- The cancellation that raises the flag wakes the listener. -/
theorem Attentive.cancel {s : Signal} (h : s.Attentive) (reason : String) :
    (s.cancel reason).Attentive := by
  obtain ⟨raised, was, listener⟩ := s
  unfold Signal.cancel
  by_cases hraised : raised = true
  · rw [if_pos hraised]
    exact h
  · rw [if_neg hraised]
    cases listener with
    | finished => exact absurd rfl h.unfinished
    | fresh | listening | woken => exact ⟨by simp [Waiter.wake], by simp [Waiter.wake]⟩

/-- Listening finishes exactly when the flag is up, however often it was done before. -/
theorem Attentive.listen_eq {s : Signal} (h : s.Attentive) :
    s.listen = { s with listener := if s.raised then .finished else .listening } := by
  obtain ⟨raised, reason, listener⟩ := s
  cases listener with
  | fresh | woken => rfl
  | listening =>
      obtain rfl : raised = false := h.down rfl
      rfl
  | finished => exact absurd rfl h.unfinished

theorem Attentive.finished_listen {s : Signal} (h : s.Attentive) :
    s.listen.listener = .finished ↔ s.raised = true := by
  rw [h.listen_eq]
  cases s.raised <;> simp

/-- Whoever has listened in vain listens on. -/
theorem Attentive.listen {s : Signal} (h : s.Attentive) (hdown : s.raised = false) :
    s.listen.Attentive := by
  have hlisten : s.listen = { s with listener := .listening } := by rw [h.listen_eq, hdown]; rfl
  rw [hlisten]
  exact ⟨by simp, fun _ => hdown⟩

end Signal

/-! ## Timers and calls -/

/-- When the timer for an instant has fired: at any time from that instant on. -/
structure Timer (σ : Type) where
  fired : Instant → World σ → Bool
  le_now : ∀ {t w}, fired t w = true → t ≤ w.now

/-- The timers of a clock that fire at whole milliseconds. -/
def Timer.ticking : Timer σ where
  fired t w := decide (t.dueTick ≤ w.now.ticks)
  le_now h := Instant.le_of_dueTick_le (of_decide_eq_true h)

/-- A call that somebody else makes. It is created, looked at until it has an answer, or dropped;
each of these may make anything happen. -/
structure Future (σ κ β : Type) where
  create : World σ → κ × List (Happening σ)
  look : κ → World σ → (Except StoreError β ⊕ κ) × List (Happening σ)
  drop : κ → World σ → List (Happening σ)

/-- How far an attempt has come. -/
inductive Phase (κ β : Type) where
  | asked
  | underway (call : κ)
  | ended (answer : Except StoreError β)

/-- The answer of an attempt that is over. -/
def Phase.answer? : Phase κ β → Option (Except StoreError β)
  | asked | underway _ => none
  | ended answer => some answer

/-- A call that is made for a request, unless or until the request is over. -/
structure Attempt (σ κ β : Type) where
  world : World σ
  /-- The request's token. -/
  signal : Signal
  phase : Phase κ β := .asked
  /-- How many calls were created. -/
  created : Nat := 0

namespace Attempt

/-- An attempt that has not been looked at. -/
def start (context : Context) (w : World σ) : Attempt σ κ β :=
  ⟨w, .ofToken (w.tokens.state context.token), .asked, 0⟩

/-- Looks at the listener. -/
def listen (a : Attempt σ κ β) : Attempt σ κ β := { a with signal := a.signal.listen }

section Definitions

variable (future : Future σ κ β) (context : Context) (timer : Timer σ)

/-- Something happens: to the world, and to the token if it is a cancellation of that. -/
def happen (a : Attempt σ κ β) (h : Happening σ) : Attempt σ κ β :=
  { a with
    world := a.world.happen h
    signal := (h.reason? context.token).elim a.signal a.signal.cancel }

/-- One thing happens after another. -/
def undergo (a : Attempt σ κ β) (hs : List (Happening σ)) : Attempt σ κ β :=
  hs.foldl (happen context) a

/-- Fails if the request is cancelled, or else if its deadline has come. -/
def refusal? (a : Attempt σ κ β) : Option StoreError :=
  if a.signal.raised then some a.signal.error
  else (context.deadline.filter fun d => d.at_ ≤ a.world.now).map Deadline.error

/-- Drops the call, and answers with a failure instead. -/
def abandon (a : Attempt σ κ β) (call : κ) (error : Signal → StoreError) : Attempt σ κ β :=
  let a := a.undergo context (future.drop call a.world)
  { a with phase := .ended (.error (error a.signal)) }

/-- Looks at what may end a call under way: first the listener, then the timer, then the call. -/
def select (a : Attempt σ κ β) (call : κ) : Attempt σ κ β :=
  let a := a.listen
  if a.signal.listener = .finished then a.abandon future context call Signal.error
  else match context.deadline.filter fun d => timer.fired d.at_ a.world with
    | some d => a.abandon future context call fun _ => d.error
    | none =>
      match future.look call a.world with
      | (.inl answer, hs) => { a.undergo context hs with phase := .ended answer }
      | (.inr call, hs) => { a.undergo context hs with phase := .underway call }

/-- Has a call created, with all that happens then. -/
def launch (a : Attempt σ κ β) (call : κ) (hs : List (Happening σ)) : Attempt σ κ β :=
  { a.undergo context hs with phase := .underway call, created := a.created + 1 }

/-- Looks at an attempt. The first look creates the call, if the request is not over already. -/
def look (a : Attempt σ κ β) : Attempt σ κ β :=
  match a.phase with
  | .asked =>
    match a.refusal? context with
    | some e => { a with phase := .ended (.error e) }
    | none =>
      let (call, hs) := future.create a.world
      (a.launch context call hs).select future context timer call
  | .underway call => a.select future context timer call
  | .ended _ => a

/-- Looks at an attempt again and again, with things happening before each look. -/
def run (a : Attempt σ κ β) (turns : List (List (Happening σ))) : Attempt σ κ β :=
  turns.foldl (fun a hs => (a.undergo context hs).look future context timer) a

end Definitions

end Attempt

/-! ## What there is to see -/

/-- The failure with which a request is over after a history: that of its cancellation, for the
first reason, or else that of its deadline, once that has come. -/
inductive Context.Over (context : Context) (w : World σ) (past : List (Happening σ)) :
    StoreError → Prop
  | cancelled {reason} : w.firstReason? context.token past = some reason →
      Over context w past (.cancelled reason)
  | expired {d} : w.firstReason? context.token past = none → context.deadline = some d →
      d.at_ ≤ (w.undergo past).now → Over context w past (.deadlineExceeded d.budget)

/-- One look at a call: all that had happened by then, and what the call came to. -/
structure Sight (σ κ β : Type) where
  history : List (Happening σ)
  outcome : Except StoreError β ⊕ κ

/-- The looks at a call up to its answer, if nothing ends it before. -/
def Future.sights (future : Future σ κ β) (w : World σ) :
    κ → List (Happening σ) → List (List (Happening σ)) → List (Sight σ κ β)
  | _, _, [] => []
  | call, past, hs :: turns =>
    match future.look call (w.undergo (past ++ hs)) with
    | (.inl answer, _) => [⟨past ++ hs, .inl answer⟩]
    | (.inr next, own) => ⟨past ++ hs, .inr next⟩ :: future.sights w next (past ++ hs ++ own) turns

namespace Sight

variable (w : World σ) (context : Context) (timer : Timer σ)

/-- Nothing is decided at a look: the token is live, no timer has fired, and the call waits on. -/
structure Idle (x : Sight σ κ β) : Prop where
  live : w.firstReason? context.token x.history = none
  running : ∀ d ∈ context.deadline, timer.fired d.at_ (w.undergo x.history) = false
  waiting : ∃ call, x.outcome = .inr call

/-- What decides a look, and the answer. -/
inductive Decides (x : Sight σ κ β) : Except StoreError β → Prop
  /-- The token is cancelled: the first reason is told. -/
  | cancelled {reason} : w.firstReason? context.token x.history = some reason →
      Decides x (.error (.cancelled reason))
  /-- The token is live, but the deadline's timer has fired, and so the deadline has come. -/
  | expired {d} : w.firstReason? context.token x.history = none → context.deadline = some d →
      timer.fired d.at_ (w.undergo x.history) = true → d.at_ ≤ (w.undergo x.history).now →
      Decides x (.error (.deadlineExceeded d.budget))
  /-- Neither, but the call has its answer. -/
  | answered {answer} : w.firstReason? context.token x.history = none →
      (∀ d ∈ context.deadline, timer.fired d.at_ (w.undergo x.history) = false) →
      x.outcome = .inl answer → Decides x answer

end Sight

namespace Attempt

/-- What the looks at a call come to: nothing as long as they are idle, and else the answer of the
first that is not. -/
inductive Decided (w : World σ) (context : Context) (timer : Timer σ) :
    List (Sight σ κ β) → Option (Except StoreError β) → Prop
  | waiting {sights} : (∀ x ∈ sights, x.Idle w context timer) →
      Decided w context timer sights none
  | decided {before x after answer} : (∀ y ∈ before, y.Idle w context timer) →
      x.Decides w context timer answer →
      Decided w context timer (before ++ x :: after) (some answer)

variable {w : World σ} {context : Context} {timer : Timer σ} {future : Future σ κ β}
  {a : Attempt σ κ β} {history : List (Happening σ)} {call : κ}

/-- An idle look leaves the decision to the others. -/
theorem Decided.cons {x : Sight σ κ β} {rest : List (Sight σ κ β)}
    {answer? : Option (Except StoreError β)} (hx : x.Idle w context timer)
    (h : Decided w context timer rest answer?) : Decided w context timer (x :: rest) answer? := by
  cases h with
  | waiting hrest => exact .waiting (List.forall_mem_cons.2 ⟨hx, hrest⟩)
  | @decided before y after answer hbefore hy =>
      show Decided w context timer ((x :: before) ++ y :: after) (some answer)
      exact .decided (List.forall_mem_cons.2 ⟨hx, hbefore⟩) hy

/-- A look that decides is the first of those that follow. -/
theorem Decided.head {x : Sight σ κ β} {answer : Except StoreError β}
    (hx : x.Decides w context timer answer) (rest : List (Sight σ κ β)) :
    Decided w context timer (x :: rest) (some answer) := by
  show Decided w context timer ([] ++ x :: rest) (some answer)
  exact .decided (List.forall_mem_nil _) hx

/-- Whatever was decided, it is an answer of the call or the failure of a request that is over. -/
theorem Decided.own_or_over {sights : List (Sight σ κ β)}
    {answer? : Option (Except StoreError β)} (h : Decided w context timer sights answer?) :
    ∀ answer ∈ answer?, ∃ x ∈ sights,
      x.outcome = .inl answer ∨ ∃ e, context.Over w x.history e ∧ answer = .error e := by
  cases h with
  | waiting _ => simp
  | @decided before x after answer _ hdecides =>
      intro _ hanswer
      cases hanswer
      refine ⟨x, by simp, ?_⟩
      cases hdecides with
      | cancelled hreason => exact .inr ⟨_, .cancelled hreason, rfl⟩
      | expired hlive hd _ hle => exact .inr ⟨_, .expired hlive hd hle, rfl⟩
      | answered _ _ houtcome => exact .inl houtcome

/-! ## In step with what has happened -/

/-- The world has undergone the history, and the flag and the reason tell what became of the token
in it. -/
structure Tells (w : World σ) (context : Context) (history : List (Happening σ))
    (a : Attempt σ κ β) : Prop where
  world : a.world = w.undergo history
  shows_ : a.signal.Shows (a.world.tokens.state context.token)

/-- And no cancellation is missed by the listener. -/
structure Tracks (w : World σ) (context : Context) (history : List (Happening σ))
    (a : Attempt σ κ β) : Prop extends a.Tells w context history where
  attentive : a.signal.Attentive

theorem tracks_start (context : Context) (w : World σ) :
    (start context w : Attempt σ κ β).Tracks w context [] :=
  ⟨⟨rfl, Signal.shows_ofToken _⟩, Signal.attentive_ofToken _⟩

theorem Tells.reason_eq (h : a.Tells w context history) :
    a.signal.reason = w.firstReason? context.token history := by
  rw [h.shows_.reason, h.world, World.reason?_undergo]

/-- The flag is up when there is a reason. -/
theorem Tells.raised_eq (h : a.Tells w context history) :
    a.signal.raised = (w.firstReason? context.token history).isSome := by
  rw [h.shows_.raised, Bool.eq_iff_iff, Token.isCancelled_iff, h.world, World.reason?_undergo]

/-- No cancellation is told without its reason. -/
theorem Tells.error_eq {reason : String} (h : a.Tells w context history)
    (hreason : w.firstReason? context.token history = some reason) :
    a.signal.error = .cancelled reason := by
  rw [Signal.error, h.reason_eq, hreason, Option.getD_some]

theorem Tells.listen (h : a.Tells w context history) : a.listen.Tells w context history :=
  ⟨h.world, h.shows_.listen⟩

theorem Tells.happen (h : a.Tells w context history) (event : Happening σ) :
    (a.happen context event).Tells w context (history ++ [event]) where
  world := by
    rw [World.undergo_append, ← h.world]
    rfl
  shows_ := by
    have hstate := a.world.state_happen context.token event
    simp only [Attempt.happen]
    rw [hstate]
    cases event.reason? context.token with
    | none => exact h.shows_
    | some reason => exact h.shows_.cancel reason

theorem Tells.undergo (h : a.Tells w context history) (hs : List (Happening σ)) :
    (a.undergo context hs).Tells w context (history ++ hs) := by
  induction hs generalizing a history with
  | nil =>
      rw [List.append_nil]
      exact h
  | cons event rest ih =>
      rw [List.append_cons]
      exact ih (h.happen event)

/-- Whatever happens, the listener misses no cancellation. -/
theorem attentive_undergo (h : a.signal.Attentive) (context : Context) (hs : List (Happening σ)) :
    (a.undergo context hs).signal.Attentive := by
  induction hs generalizing a with
  | nil => exact h
  | cons event rest ih =>
      refine ih ?_
      simp only [Attempt.happen]
      cases event.reason? context.token with
      | none => exact h
      | some reason => exact h.cancel reason

theorem Tracks.undergo (h : a.Tracks w context history) (hs : List (Happening σ)) :
    (a.undergo context hs).Tracks w context (history ++ hs) :=
  ⟨h.toTells.undergo hs, attentive_undergo h.attentive context hs⟩

theorem Tracks.listen (h : a.Tracks w context history) (hdown : a.signal.raised = false) :
    a.listen.Tracks w context history :=
  ⟨h.toTells.listen, h.attentive.listen hdown⟩

/-- How far the attempt has come is nothing that is tracked. -/
theorem Tells.withPhase (h : a.Tells w context history) (phase : Phase κ β) (created : Nat) :
    { a with phase, created }.Tells w context history := ⟨h.world, h.shows_⟩

theorem Tracks.withPhase (h : a.Tracks w context history) (phase : Phase κ β) (created : Nat) :
    { a with phase, created }.Tracks w context history :=
  ⟨h.toTells.withPhase phase created, h.attentive⟩

theorem Tracks.launch (h : a.Tracks w context history) (call : κ) (own : List (Happening σ)) :
    (a.launch context call own).Tracks w context (history ++ own) :=
  (h.undergo own).withPhase _ _

@[simp] theorem phase_undergo (a : Attempt σ κ β) (context : Context) (hs : List (Happening σ)) :
    (a.undergo context hs).phase = a.phase := by
  induction hs generalizing a with
  | nil => rfl
  | cons event rest ih => exact ih (a.happen context event)

@[simp] theorem created_undergo (a : Attempt σ κ β) (context : Context)
    (hs : List (Happening σ)) : (a.undergo context hs).created = a.created := by
  induction hs generalizing a with
  | nil => rfl
  | cons event rest ih => exact ih (a.happen context event)

@[simp] theorem world_undergo (a : Attempt σ κ β) (context : Context) (hs : List (Happening σ)) :
    (a.undergo context hs).world = a.world.undergo hs := by
  induction hs generalizing a with
  | nil => rfl
  | cons event rest ih => exact ih (a.happen context event)

/-! ## One look -/

@[simp] theorem created_select (a : Attempt σ κ β) (call : κ) :
    (a.select future context timer call).created = a.created := by
  have hlisten : a.listen.created = a.created := rfl
  simp only [select, abandon]
  repeat' split
  all_goals simp only [created_undergo, hlisten]

/-- The listener finishes when the token is cancelled. -/
theorem Tracks.finished_listen (h : a.Tracks w context history) :
    a.listen.signal.listener = .finished ↔
      (w.firstReason? context.token history).isSome = true := by
  rw [← h.raised_eq]
  exact h.attentive.finished_listen

theorem Tracks.not_finished_listen (h : a.Tracks w context history)
    (hlive : w.firstReason? context.token history = none) :
    a.listen.signal.listener ≠ .finished := by
  intro hfinished
  have hreason := h.finished_listen.1 hfinished
  rw [hlive] at hreason
  cases hreason

/-- A cancelled request drops its call, and tells the first reason, whatever else is the case. -/
theorem Tracks.select_cancelled {reason : String} (h : a.Tracks w context history)
    (future : Future σ κ β) (timer : Timer σ) (call : κ)
    (hreason : w.firstReason? context.token history = some reason) :
    (a.select future context timer call).phase = .ended (.error (.cancelled reason)) ∧
      (a.select future context timer call).world = a.world.undergo (future.drop call a.world) := by
  have hfinished := h.finished_listen.2 (by rw [hreason]; rfl)
  -- The error is told after the call was dropped, but no cancellation after the first counts.
  have hdropped := h.toTells.listen.undergo (future.drop call a.world)
  have herror := hdropped.error_eq (World.firstReason?_append hreason _)
  simp only [select, if_pos hfinished, abandon]
  exact ⟨congrArg (fun e => Phase.ended (.error e)) herror, a.listen.world_undergo context _⟩

/-- A live request whose timer has fired drops its call. -/
theorem Tracks.select_expired {d : Deadline} (h : a.Tracks w context history)
    (future : Future σ κ β) (timer : Timer σ) (call : κ)
    (hlive : w.firstReason? context.token history = none) (hd : context.deadline = some d)
    (hfired : timer.fired d.at_ a.world = true) :
    (a.select future context timer call).phase = .ended (.error d.error) ∧
      (a.select future context timer call).world = a.world.undergo (future.drop call a.world) := by
  have hfilter : (context.deadline.filter fun d => timer.fired d.at_ a.listen.world) = some d :=
    Option.filter_eq_some_iff.2 ⟨hd, hfired⟩
  simp only [select, if_neg (h.not_finished_listen hlive), hfilter, abandon]
  exact ⟨trivial, a.listen.world_undergo context _⟩

/-- A live request in time leaves it to its call. -/
theorem Tracks.select_live (h : a.Tracks w context history)
    (hlive : w.firstReason? context.token history = none)
    (hrunning : ∀ d ∈ context.deadline, timer.fired d.at_ a.world = false) :
    a.select future context timer call = match future.look call a.world with
      | (.inl answer, hs) => { a.listen.undergo context hs with phase := .ended answer }
      | (.inr call, hs) => { a.listen.undergo context hs with phase := .underway call } := by
  have hfilter : (context.deadline.filter fun d => timer.fired d.at_ a.listen.world) = none := by
    rw [Option.filter_eq_none_iff]
    intro d hd
    exact ne_true_of_eq_false (hrunning d hd)
  simp only [select, if_neg (h.not_finished_listen hlive), hfilter]
  rfl

/-- While its call waits on, an attempt stays in step with what happens. -/
theorem Tracks.select_waiting {next : κ} {own : List (Happening σ)}
    (h : a.Tracks w context history) (hlive : w.firstReason? context.token history = none)
    (hrunning : ∀ d ∈ context.deadline, timer.fired d.at_ a.world = false)
    (hlook : future.look call a.world = (.inr next, own)) :
    (a.select future context timer call).phase = .underway next ∧
      (a.select future context timer call).Tracks w context (history ++ own) := by
  have hraised : a.signal.raised = false := by
    rw [h.raised_eq, hlive]
    rfl
  rw [h.select_live hlive hrunning, hlook]
  exact ⟨rfl, ((h.listen hraised).undergo own).withPhase _ _⟩

/-- **One look at a call under way.** Something decides it, and the attempt is over with that
answer; or the look is idle, and the attempt waits on, in step with what happened. -/
theorem Tracks.select_cases (h : a.Tracks w context history) (future : Future σ κ β)
    (timer : Timer σ) (call : κ) :
    (∃ answer, (Sight.mk history (future.look call (w.undergo history)).1).Decides w context timer
        answer ∧ (a.select future context timer call).phase = .ended answer) ∨
    ∃ next own, future.look call (w.undergo history) = (.inr next, own) ∧
      (Sight.mk history (.inr next : Except StoreError β ⊕ κ)).Idle w context timer ∧
      (a.select future context timer call).phase = .underway next ∧
      (a.select future context timer call).Tracks w context (history ++ own) := by
  rw [← h.world]
  cases hreason : w.firstReason? context.token history with
  | some reason => exact .inl ⟨_, .cancelled hreason, (h.select_cancelled future timer call hreason).1⟩
  | none =>
      by_cases hexpired : ∃ d, context.deadline = some d ∧ timer.fired d.at_ a.world = true
      · obtain ⟨d, hd, hfired⟩ := hexpired
        have hphase := (h.select_expired future timer call hreason hd hfired).1
        refine .inl ⟨_, .expired hreason hd ?_ ?_, hphase⟩
        · rw [← h.world]
          exact hfired
        · rw [← h.world]
          exact timer.le_now hfired
      · have hrunning : ∀ d ∈ context.deadline, timer.fired d.at_ a.world = false :=
          fun d hd => eq_false_of_ne_true fun hfired => hexpired ⟨d, hd, hfired⟩
        have hrunning' := hrunning
        rw [h.world] at hrunning'
        rcases hlook : future.look call a.world with ⟨answer | next, own⟩
        · refine .inl ⟨answer, .answered hreason hrunning' rfl, ?_⟩
          rw [h.select_live hreason hrunning, hlook]
        · obtain ⟨hphase, htracks⟩ := h.select_waiting hreason hrunning hlook
          exact .inr ⟨next, own, rfl, ⟨hreason, hrunning', next, rfl⟩, hphase, htracks⟩

/-! ## Many looks -/

@[simp] theorem run_nil (a : Attempt σ κ β) : a.run future context timer [] = a := rfl

@[simp] theorem run_cons (a : Attempt σ κ β) (hs : List (Happening σ))
    (turns : List (List (Happening σ))) : a.run future context timer (hs :: turns) =
      ((a.undergo context hs).look future context timer).run future context timer turns := rfl

theorem look_of_refusal {e : StoreError} (future : Future σ κ β) (timer : Timer σ) (hphase : a.phase = .asked)
    (hrefusal : a.refusal? context = some e) :
    a.look future context timer = { a with phase := .ended (.error e) } := by
  simp only [look, hphase, hrefusal]

/-- The first look at a call is when it is created. -/
theorem look_of_asked {own : List (Happening σ)} (timer : Timer σ) (hphase : a.phase = .asked)
    (hrefusal : a.refusal? context = none) (hcreate : future.create a.world = (call, own)) :
    a.look future context timer =
      ((a.launch context call own).undergo context []).look future context timer := by
  simp only [look, hphase, hrefusal, hcreate]
  rfl

theorem look_of_underway (hphase : a.phase = .underway call) :
    a.look future context timer = a.select future context timer call := by
  rw [look, hphase]

/-- Once an attempt is over, looking at it changes nothing any more. -/
theorem run_of_ended {answer : Except StoreError β} (future : Future σ κ β) (context : Context)
    (timer : Timer σ) (hphase : a.phase = .ended answer) (turns : List (List (Happening σ))) :
    (a.run future context timer turns).phase = .ended answer ∧
      (a.run future context timer turns).created = a.created := by
  induction turns generalizing a with
  | nil => exact ⟨hphase, rfl⟩
  | cons hs turns ih =>
      have hphase' : (a.undergo context hs).phase = .ended answer := by rw [phase_undergo, hphase]
      have hlook : (a.undergo context hs).look future context timer = a.undergo context hs := by
        rw [look, hphase']
      rw [run_cons, hlook, ← created_undergo a context hs]
      exact ih hphase'

/-- The first of many looks, and some others. -/
theorem sights_cons (future : Future σ κ β) (w : World σ) (call : κ) (past hs : List (Happening σ))
    (turns : List (List (Happening σ))) : ∃ after, future.sights w call past (hs :: turns) =
      ⟨past ++ hs, (future.look call (w.undergo (past ++ hs))).1⟩ :: after := by
  rcases hlook : future.look call (w.undergo (past ++ hs)) with ⟨answer | next, own⟩
  · exact ⟨[], by rw [Future.sights, hlook]⟩
  · exact ⟨future.sights w next (past ++ hs ++ own) turns, by rw [Future.sights, hlook]⟩

/-- **A call under way, looked at again and again**, comes to what the first look decides at which
anything is decided. -/
theorem Tracks.decided_run (h : a.Tracks w context history) (future : Future σ κ β)
    (timer : Timer σ) (hphase : a.phase = .underway call) (turns : List (List (Happening σ))) :
    Decided w context timer (future.sights w call history turns)
        (a.run future context timer turns).phase.answer? ∧
      (a.run future context timer turns).created = a.created := by
  induction turns generalizing a history call with
  | nil =>
      rw [run_nil, hphase]
      exact ⟨.waiting (by simp [Future.sights]), rfl⟩
  | cons hs turns ih =>
      have hphase' : (a.undergo context hs).phase = .underway call := by rw [phase_undergo, hphase]
      have hcreated : ((a.undergo context hs).select future context timer call).created =
          a.created := by rw [created_select, created_undergo]
      rw [run_cons, look_of_underway hphase']
      rcases (h.undergo hs).select_cases future timer call with
        ⟨answer, hdecides, hended⟩ | ⟨next, own, hlook, hidle, hunderway, htracks⟩
      · obtain ⟨after, hsights⟩ := sights_cons future w call history hs turns
        obtain ⟨hended, hsame⟩ := run_of_ended future context timer hended turns
        rw [hsights, hended, hsame, hcreated]
        exact ⟨Decided.head hdecides after, rfl⟩
      · obtain ⟨hdecided, hsame⟩ := ih htracks hunderway
        have hsights : future.sights w call history (hs :: turns) = ⟨history ++ hs, .inr next⟩ ::
            future.sights w next (history ++ hs ++ own) turns := by rw [Future.sights, hlook]
        rw [hsights, hsame, hcreated]
        exact ⟨hdecided.cons hidle, rfl⟩

/-! ## Whole attempts -/

/-- An attempt before its first look. -/
def asked (context : Context) (w : World σ) (first : List (Happening σ)) : Attempt σ κ β :=
  (start context w).undergo context first

theorem tracks_asked (context : Context) (w : World σ) (first : List (Happening σ)) :
    (asked context w first : Attempt σ κ β).Tracks w context first :=
  (tracks_start context w).undergo first

@[simp] theorem phase_asked (context : Context) (w : World σ) (first : List (Happening σ)) :
    (asked context w first : Attempt σ κ β).phase = .asked := phase_undergo _ context first

@[simp] theorem created_asked (context : Context) (w : World σ) (first : List (Happening σ)) :
    (asked context w first : Attempt σ κ β).created = 0 := created_undergo _ context first

theorem Tells.select (h : a.Tells w context history) (future : Future σ κ β) (timer : Timer σ)
    (call : κ) : ∃ own, (a.select future context timer call).Tells w context (history ++ own) := by
  have hundergo := h.listen.undergo
  simp only [Attempt.select, abandon]
  repeat' split
  all_goals exact ⟨_, (hundergo _).withPhase _ _⟩

theorem Tells.look (h : a.Tells w context history) (future : Future σ κ β) (timer : Timer σ) :
    ∃ own, (a.look future context timer).Tells w context (history ++ own) := by
  unfold Attempt.look
  cases a.phase with
  | asked =>
      cases a.refusal? context with
      | some e => exact ⟨[], by rw [List.append_nil]; exact h.withPhase _ _⟩
      | none =>
          have hlaunch := (h.undergo (future.create a.world).2).withPhase
            (.underway (future.create a.world).1) (a.created + 1)
          obtain ⟨own, hselect⟩ := hlaunch.select future timer (future.create a.world).1
          exact ⟨_ ++ own, by rw [← List.append_assoc]; exact hselect⟩
  | underway call => exact h.select future timer call
  | ended answer => exact ⟨[], by rw [List.append_nil]; exact h⟩

/-- **The flag and the reason never part**, however far an attempt has come. -/
theorem Tells.run (h : a.Tells w context history) (future : Future σ κ β) (timer : Timer σ)
    (turns : List (List (Happening σ))) :
    ∃ past, (a.run future context timer turns).Tells w context past := by
  induction turns generalizing a history with
  | nil => exact ⟨history, h⟩
  | cons hs turns ih =>
      obtain ⟨own, hlook⟩ := (h.undergo hs).look future timer
      exact ih hlook

/-- The call is not created exactly if the request is over by then. -/
theorem Tells.refusal_cases (h : a.Tells w context history) :
    (∃ e, context.Over w history e ∧ a.refusal? context = some e) ∨
    ((∀ e, ¬ context.Over w history e) ∧ a.refusal? context = none) := by
  have hraised := h.raised_eq
  unfold refusal?
  cases hreason : w.firstReason? context.token history with
  | some reason =>
      rw [hreason, Option.isSome_some] at hraised
      exact .inl ⟨_, .cancelled hreason, by rw [if_pos hraised, h.error_eq hreason]⟩
  | none =>
      rw [hreason, Option.isSome_none] at hraised
      rw [if_neg (by rw [hraised]; exact Bool.false_ne_true)]
      cases hfilter : context.deadline.filter fun d => d.at_ ≤ a.world.now with
      | some d =>
          obtain ⟨hd, hle⟩ := Option.filter_eq_some_iff.1 hfilter
          rw [h.world] at hle
          exact .inl ⟨_, .expired hreason hd (of_decide_eq_true hle), rfl⟩
      | none =>
          refine .inr ⟨?_, rfl⟩
          intro e hover
          cases hover with
          | cancelled hsome => simp [hreason] at hsome
          | @expired d _ hd hle =>
              rw [← h.world] at hle
              exact Option.filter_eq_none_iff.1 hfilter d hd (decide_eq_true hle)

/-- The looks at the call of an attempt: at once when it is created, and then at every turn. -/
def sights (future : Future σ κ β) (w : World σ) (first : List (Happening σ))
    (turns : List (List (Happening σ))) : List (Sight σ κ β) :=
  let (call, own) := future.create (w.undergo first)
  future.sights w call (first ++ own) ([] :: turns)

/-- **What an attempt comes to.** If the request is over at the first look, the call is never
created, and the attempt fails with what ended the request. Otherwise the call is created, once, and
the attempt comes to what the first look at the call decides at which anything is decided. -/
theorem run_cases (future : Future σ κ β) (context : Context) (timer : Timer σ) (w : World σ)
    (first : List (Happening σ)) (turns : List (List (Happening σ))) :
    let a := (start context w).run future context timer (first :: turns)
    (∃ e, context.Over w first e ∧ a.phase = .ended (.error e) ∧ a.created = 0) ∨
    ((∀ e, ¬ context.Over w first e) ∧ a.created = 1 ∧
      Decided w context timer (sights future w first turns) a.phase.answer?) := by
  intro a
  have htracks := tracks_asked (κ := κ) (β := β) context w first
  have hphase := phase_asked (κ := κ) (β := β) context w first
  have ha : a = ((asked context w first).look future context timer).run future context timer
      turns := rfl
  rcases htracks.refusal_cases with ⟨e, hover, hrefusal⟩ | ⟨hgood, hrefusal⟩
  · have hlook := look_of_refusal future timer hphase hrefusal
    obtain ⟨hfailed, hnone⟩ := run_of_ended future context timer
      (a := { asked context w first with phase := .ended (.error e) }) rfl turns
    rw [← hlook, ← ha] at hfailed hnone
    refine .inl ⟨e, hover, hfailed, hnone.trans ?_⟩
    rw [hlook, created_asked]
  · right
    rcases hcreate : future.create (w.undergo first) with ⟨call, own⟩
    have hlook := look_of_asked timer hphase hrefusal (by rw [htracks.world, hcreate])
    obtain ⟨hdecided, hone⟩ := (htracks.launch call own).decided_run future timer rfl ([] :: turns)
    rw [run_cons, ← hlook, ← ha] at hdecided hone
    refine ⟨hgood, hone.trans ?_, ?_⟩
    · rw [launch, created_asked]
    · rw [sights, hcreate]
      exact hdecided

/-! At one look the cancellation comes before the deadline, and that before the answer. -/

example :
    let second : Future Unit Bool Nat :=
      ⟨fun _ => (false, []), fun looked _ => (if looked then .inl (.ok 7) else .inr true, []),
        fun _ _ => []⟩
    let context : Context := ⟨0, some ⟨5 * Duration.millisecond, 0⟩⟩
    let answer? (turn : List (Happening Unit)) := ((start context { state := () }).run second context
      .ticking [[], turn]).phase.answer?
    answer? [.pass (5 * Duration.millisecond), .cancel 0 "gone", .cancel 0 "again"] =
        some (.error (.cancelled "gone")) ∧
      answer? [.pass (5 * Duration.millisecond), .cancel 1 "other"] =
        some (.error (.deadlineExceeded (5 * Duration.millisecond))) ∧
      answer? [] = some (.ok 7) :=
  ⟨rfl, rfl, rfl⟩

end Attempt

end Delivery
