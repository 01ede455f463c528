import Delivery.World

/-!
# Calls under way

A call that has started and waits is a `Flight`. Whenever it is looked at, three things can end it,
in this order: the request was cancelled, its deadline's timer has fired, or the call goes on to
its answer. A call is not started at all when the request is over already; what a call does in the
moment it cancels its own request still counts.
-/

namespace Delivery

variable {σ β : Type}

/-- A call that waits: the context it was made under, when it wakes, and what it does then. -/
structure Flight (σ β : Type) where
  context : Context
  until_ : Instant
  rest : Call σ (Except StoreError β)

namespace Flight

/-- The timers of a waiting call: its own and its deadline's. -/
def timers (f : Flight σ β) : List Instant :=
  f.until_ :: (f.context.deadline.map Deadline.at_).toList

/-- True when the deadline's timer has fired. -/
def expired (f : Flight σ β) (w : World σ) : Bool :=
  f.context.deadline.any fun d => d.at_.dueTick ≤ w.now.ticks

/-- True when looking at the call gets it any further. -/
def ready (f : Flight σ β) (w : World σ) : Bool :=
  (w.tokens.state f.context.token).isCancelled || f.expired w || f.until_.dueTick ≤ w.now.ticks

end Flight

/-- A call that is over, or still under way. -/
inductive Status (σ β : Type) where
  | landed (result : Except StoreError β)
  | flying (f : Flight σ β)

/-- What a call has come to after going on. -/
def Status.of (context : Context) (p : Progress σ (Except StoreError β) × World σ) :
    Status σ β × World σ :=
  match p with
  | (.done result, w) => (.landed result, { w with running := w.running - 1 })
  | (.asleep t rest, w) => (.flying ⟨context, t, rest⟩, w)

/-- Starts a call under a context, unless the request is over. `begin_` makes the call. -/
def World.start (w : World σ) (context : Context)
    (begin_ : World σ → Call σ (Except StoreError β) × World σ) : Status σ β × World σ :=
  match context.check w.tokens w.now with
  | .error e => (.landed (.error e), w)
  | .ok () =>
    let (call, w) := begin_ { w with running := w.running + 1 }
    Status.of context (call.run context.token w)

/-- Looks at a call under way. -/
def Flight.poll (f : Flight σ β) (w : World σ) : Status σ β × World σ :=
  let ended (e : StoreError) : Status σ β × World σ :=
    (.landed (.error e), { w with running := w.running - 1 })
  match w.tokens.state f.context.token with
  | .cancelled reason => ended (.cancelled reason)
  | .live =>
    -- A deadline that fires in the tick in which the call would answer still ends it.
    match f.context.deadline.filter fun d => d.at_.dueTick ≤ w.now.ticks with
    | some d => ended d.error
    | none =>
      if f.until_.dueTick ≤ w.now.ticks then Status.of f.context (f.rest.run f.context.token w)
      else (.flying f, w)

/-! ## Progress -/

/-- Looking at a call that is ready ends it or makes it shorter, and leaves the agenda alone. -/
theorem Flight.size_lt_of_poll {f g : Flight σ β} {w w' : World σ} (hr : f.ready w = true)
    (h : f.poll w = (.flying g, w')) : g.rest.size < f.rest.size := by
  simp only [Flight.poll] at h
  split at h
  · cases h
  · rename_i hlive
    split at h
    · cases h
    · rename_i hexp
      split at h
      · generalize hp : f.rest.run f.context.token w = p at h
        obtain ⟨p, v⟩ := p
        cases p with
        | done r => cases h
        | asleep t rest =>
          cases h
          exact Call.size_lt_of_run _ hp
      · rename_i hw
        simp only [Flight.ready, hlive, Token.isCancelled, hw, Flight.expired, Bool.false_or,
          decide_false, Bool.or_false, Option.any_eq_true] at hr
        obtain ⟨d, hd, hdue⟩ := hr
        exact absurd hdue (Option.filter_eq_none_iff.1 hexp d hd)

theorem Status.of_agenda (context : Context) (p : Progress σ (Except StoreError β) × World σ) :
    (Status.of context p).2.agenda = p.2.agenda := by
  obtain ⟨p, w⟩ := p
  cases p <;> rfl

theorem Flight.poll_agenda (f : Flight σ β) (w : World σ) : (f.poll w).2.agenda = w.agenda := by
  simp only [Flight.poll]
  repeat' split
  all_goals first
    | rfl
    | rw [Status.of_agenda, (Call.run_now_agenda _ _ _).2]

theorem Flight.ready_of_timer {f : Flight σ β} {w : World σ} {t : Instant} (ht : t ∈ f.timers)
    (hdue : t.dueTick ≤ w.now.ticks) : f.ready w = true := by
  rcases List.mem_cons.1 ht with rfl | ht
  · simp [Flight.ready, hdue]
  · have : f.expired w = true := by
      simp only [Option.mem_toList, Option.map_eq_some_iff] at ht
      obtain ⟨d, hd, rfl⟩ := ht
      simp [Flight.expired, hd, hdue]
    simp [Flight.ready, this]

/-- Looking at a call that is not ready changes nothing. -/
theorem Flight.poll_of_not_ready {f : Flight σ β} {w : World σ} (h : f.ready w = false) :
    f.poll w = (.flying f, w) := by
  simp only [Flight.ready, Bool.or_eq_false_iff, decide_eq_false_iff_not] at h
  obtain ⟨⟨hlive, hexp⟩, hw⟩ := h
  have hs : w.tokens.state f.context.token = .live := by
    cases hs : w.tokens.state f.context.token with
    | live => rfl
    | cancelled r => simp [hs, Token.isCancelled] at hlive
  have hd : f.context.deadline.filter (fun d => decide (d.at_.dueTick ≤ w.now.ticks)) = none := by
    rw [Option.filter_eq_none_iff]
    intro d hd
    simpa [Flight.expired, hd] using hexp
  simp [Flight.poll, hs, hd, hw]

/-- Lets time move, unless the call can go on as it is. -/
def Flight.wait (f : Flight σ β) (w : World σ) : World σ :=
  if f.ready w then w else w.elapse f.timers

/-- Waiting and looking again leaves less to do. -/
theorem Flight.work_lt_of_poll {f g : Flight σ β} {w w' : World σ}
    (h : f.poll (f.wait w) = (.flying g, w')) :
    g.rest.size + w'.agenda.size < f.rest.size + w.agenda.size := by
  have hagenda : w'.agenda = (f.wait w).agenda := by rw [← Flight.poll_agenda f (f.wait w), h]
  have hle : (f.wait w).agenda.size ≤ w.agenda.size := by
    unfold Flight.wait
    split
    · exact Nat.le_refl _
    · exact w.size_agenda_elapse_le f.timers
  cases hr : f.ready (f.wait w) with
  | true =>
    -- The call went on by itself.
    have := Flight.size_lt_of_poll hr h
    rw [hagenda]; omega
  | false =>
    -- Nothing went on, so time has moved, and only a cancellation to come can have gone.
    rw [Flight.poll_of_not_ready hr] at h
    cases h
    have hw : f.wait w = w.elapse f.timers := by
      unfold Flight.wait
      split
      · rename_i hready
        rw [Flight.wait, if_pos hready, hready] at hr
        cases hr
      · rfl
    rcases w.elapse_progress f.timers (by simp [Flight.timers]) with hlt | ⟨t, ht, hdue⟩
    · rw [← hw] at hlt; omega
    · rw [hw, Flight.ready_of_timer ht hdue] at hr
      cases hr

/-- Waits for a call to end. -/
def Flight.land (f : Flight σ β) (w : World σ) : Except StoreError β × World σ :=
  match _h : f.poll (f.wait w) with
  | (.landed result, w) => (result, w)
  | (.flying g, w) => g.land w
termination_by f.rest.size + w.agenda.size
decreasing_by exact Flight.work_lt_of_poll _h

/-- Makes a call under a context and waits for it to end. -/
def World.call (w : World σ) (context : Context)
    (begin_ : World σ → Call σ (Except StoreError β) × World σ) : Except StoreError β × World σ :=
  match w.start context begin_ with
  | (.landed result, w) => (result, w)
  | (.flying f, w) => f.land w

end Delivery
