import Delivery.Agenda
import Delivery.Cancellation.Context
import Delivery.Event
import Delivery.Request

/-!
# The world of a service

`World` is everything that calls to collaborators can see and change: the clock, the tokens, the
cancellations still to come, the log, the events, the state of the collaborators themselves, and
the record of the calls made so far. Time stands still while anything can go on; then it moves
straight to the next tick at which something is due (`World.elapse`).

`Call` is what a collaborator does with one call: it may cancel the request, take time, and in the
end answers from its state.
-/

namespace Delivery

/-- A cancellation of a token with a reason. -/
structure Cancellation where
  token : TokenId
  reason : String
  deriving DecidableEq

/-- What a collaborator with state `σ` does with a call that is answered with `α`. -/
inductive Call (σ α : Type) where
  /-- Answers, and changes its state. -/
  | answer (reply : σ → α × σ)
  /-- Cancels the request it was called for, and goes on. -/
  | cancel (reason : String) (rest : Call σ α)
  /-- Sleeps, and goes on. -/
  | sleep (d : Duration) (rest : Call σ α)

/-- How many steps a call takes. -/
def Call.size {σ α : Type} : Call σ α → Nat
  | .answer _ => 1
  | .cancel _ rest => rest.size + 1
  | .sleep _ rest => rest.size + 1

/-- Everything that a request can see and change. -/
structure World (σ : Type) where
  now : Instant := 0
  tokens : Tokens := {}
  /-- Cancellations to come, by tick. -/
  agenda : Agenda Cancellation := {}
  /-- How many calls are running. -/
  running : Nat := 0
  /-- The calls that were started, oldest first. -/
  calls : List CallRecord := []
  /-- The lines of the log, oldest first. -/
  logs : List LogLine := []
  sink : Sink := .discarding
  /-- How many promotions were built. -/
  built : Nat := 0
  /-- The state of the collaborators. -/
  state : σ

namespace World

variable {σ : Type}

/-- Cancels a token. -/
def cancel (w : World σ) (token : TokenId) (reason : String) : World σ :=
  { w with tokens := w.tokens.cancel token reason }

/-- Plans a cancellation. -/
def cancelLater (w : World σ) (at_ : Instant) (c : Cancellation) : World σ :=
  { w with agenda := w.agenda.add at_.dueTick c }

/-- Writes a line to the log. -/
def log (w : World σ) (line : LogLine) : World σ := { w with logs := w.logs ++ [line] }

/-- Hands an event to the sink. -/
def emit (w : World σ) (e : Event) : World σ :=
  let (sink, lines) := w.sink.emit e
  { w with sink, logs := w.logs ++ lines }

/-- Moves the clock to a tick, and does what the agenda holds up to then. -/
def reach (w : World σ) (tick : Nat) : World σ :=
  let now := w.now.moveTo tick
  { w with
    now
    tokens := (w.agenda.due now.ticks).foldl (fun ts c => ts.cancel c.token c.reason) w.tokens
    agenda := w.agenda.after now.ticks }

/-- The first tick at which a timer or the agenda is due. -/
def nextTick? (w : World σ) (timers : List Instant) : Option Nat :=
  ((w.agenda.next?).toList ++ timers.map Instant.dueTick).min?

/-- Moves the clock to the next tick at which a timer or the agenda is due. -/
def elapse (w : World σ) (timers : List Instant) : World σ :=
  match w.nextTick? timers with
  | some tick => w.reach tick
  | none => w

end World

/-- How far a call has come: to its answer, or asleep until an instant. -/
inductive Progress (σ α : Type) where
  | done (a : α)
  | asleep (until_ : Instant) (rest : Call σ α)

/-- Goes on with a call made for a token, until it answers or has to wait. -/
def Call.run {σ α : Type} (token : TokenId) : Call σ α → World σ → Progress σ α × World σ
  | .answer reply, w =>
    let (a, state) := reply w.state
    (.done a, { w with state })
  | .cancel reason rest, w => rest.run token (w.cancel token reason)
  | .sleep d rest, w =>
    let wake := w.now.afterSleep d
    if wake.dueTick ≤ w.now.ticks then rest.run token w else (.asleep wake rest, w)

/-! ## Laws -/

section Laws

variable {σ α : Type}

theorem Call.size_pos (c : Call σ α) : 0 < c.size := by cases c <;> simp [Call.size]

/-- What is left of a call that falls asleep is shorter. -/
theorem Call.size_lt_of_run (token : TokenId) {c rest : Call σ α} {w w' : World σ} {t : Instant}
    (h : c.run token w = (.asleep t rest, w')) : rest.size < c.size := by
  induction c generalizing w with
  | answer reply => simp [Call.run] at h
  | cancel reason c ih => exact Nat.lt_succ_of_lt (ih h)
  | sleep d c ih =>
    simp only [Call.run] at h
    split at h
    · exact Nat.lt_succ_of_lt (ih h)
    · cases h; exact Nat.lt_succ_self _

/-- A call leaves the clock and the agenda alone. -/
theorem Call.run_now_agenda (token : TokenId) (c : Call σ α) (w : World σ) :
    (c.run token w).2.now = w.now ∧ (c.run token w).2.agenda = w.agenda := by
  induction c generalizing w with
  | answer reply => simp [Call.run]
  | cancel reason c ih => exact ih _
  | sleep d c ih =>
    simp only [Call.run]
    split
    · exact ih w
    · exact ⟨rfl, rfl⟩

theorem World.size_agenda_elapse_le (w : World σ) (timers : List Instant) :
    (w.elapse timers).agenda.size ≤ w.agenda.size := by
  unfold World.elapse
  split
  · exact w.agenda.size_after_le _
  · exact Nat.le_refl _

theorem Instant.ticks_moveTo (now : Instant) (tick : Nat) :
    (now.moveTo tick).ticks = max now.ticks tick := by
  have : (now.moveTo tick).ticks = now.ticks + (tick - now.ticks) := by
    simp only [Instant.moveTo, Instant.ticks]
    exact Nat.add_mul_div_right _ _ (by decide)
  omega

/-- After time has moved, the agenda is shorter or one of the timers is due. -/
theorem World.elapse_progress (w : World σ) (timers : List Instant) (h : timers ≠ []) :
    (w.elapse timers).agenda.size < w.agenda.size ∨
      ∃ t ∈ timers, t.dueTick ≤ (w.elapse timers).now.ticks := by
  have hne : (w.agenda.next?).toList ++ timers.map Instant.dueTick ≠ [] := by simp [h]
  obtain ⟨tick, htick⟩ : ∃ tick, w.nextTick? timers = some tick := by
    cases hn : w.nextTick? timers with
    | some tick => exact ⟨tick, rfl⟩
    | none => exact absurd (List.min?_eq_none_iff.1 hn) hne
  have hmem : tick ∈ (w.agenda.next?).toList ++ timers.map Instant.dueTick :=
    List.min?_mem htick
  have hle : tick ≤ (w.reach tick).now.ticks := by
    simp only [World.reach, Instant.ticks_moveTo]; omega
  simp only [World.elapse, htick]
  rcases List.mem_append.1 hmem with hm | hm
  · -- The tick is the agenda's next, which is done with once it is reached.
    left
    have : w.agenda.next? = some tick := by simpa using hm
    exact Agenda.size_after_lt this hle
  · -- The tick is a timer's.
    right
    obtain ⟨t, ht, rfl⟩ := List.mem_map.1 hm
    exact ⟨t, ht, hle⟩

end Laws

end Delivery
