import Delivery.Proofs.Abandonment

/-!
# Abandoned calls of collaborators

A call to a collaborator, started by `World.start` and looked at by `Flight.poll`, is an attempt at
what the collaborator does (`Opening.future`), on a clock that fires at whole milliseconds. So
whatever is known of attempts is known of the calls that are made.

* `Call.of_run_eq` — going on with a call, as something that happens;
* `Attempt.Mirrors` — an attempt stands where a call stands, and `Attempt.Mirrors.look` keeps it so;
* `Opening.run_eq_watch` — a call that is looked at again and again is an attempt;
* `World.exists_watch_eq_call` — and so is a call that nobody interferes with.
-/

namespace Delivery

variable {σ β : Type}

/-! ## Calls as others see them -/

/-- What begins a call. It may change anything but the tokens and the clock. -/
structure Opening (σ β : Type) where
  begin_ : World σ → Call σ (Except StoreError β) × World σ
  now_begin : ∀ w, (begin_ w).2.now = w.now
  tokens_begin : ∀ w, (begin_ w).2.tokens = w.tokens

/-- A service begins a call, and records it. -/
def Service.opening (s : Service σ) (context : Context) (r : Request) : Opening σ r.Answer where
  begin_ := s.begin context r
  now_begin _ := rfl
  tokens_begin _ := rfl

/-- A call that waits: until when, and what it does then. -/
abbrev Asleep (σ β : Type) := Instant × Call σ (Except StoreError β)

/-- What a call comes to when it goes on, and what happens then. A call that is answered runs no
more. -/
def Call.glance (token : TokenId) : Call σ (Except StoreError β) → World σ →
    (Except StoreError β ⊕ Asleep σ β) × List (Happening σ)
  | .answer reply, w =>
    (.inl (reply w.state).1,
      [.other fun v => { v with state := (reply v.state).2, running := v.running - 1 }])
  | .cancel reason rest, w =>
    let (outcome, hs) := rest.glance token (w.cancel token reason)
    (outcome, .cancel token reason :: hs)
  | .sleep d rest, w =>
    let wake := w.now.afterSleep d
    if wake.dueTick ≤ w.now.ticks then rest.glance token w else (.inr (wake, rest), [])

/-- The world in which a call is begun: it counts among those that run. -/
def World.enter (w : World σ) : World σ := { w with running := w.running + 1 }

theorem Opening.begun (o : Opening σ β) {w v : World σ} {call : Call σ (Except StoreError β)}
    (h : o.begin_ w.enter = (call, v)) : v.now = w.now ∧ v.tokens = w.tokens := by
  have hnow := o.now_begin w.enter
  have htokens := o.tokens_begin w.enter
  rw [h] at hnow htokens
  exact ⟨hnow, htokens⟩

/-- The call that is begun for a token, as somebody sees it who looks at it. -/
def Opening.future (o : Opening σ β) (token : TokenId) : Future σ (Asleep σ β) β where
  create w :=
    let (call, v) := o.begin_ w.enter
    ((0, call), [.other fun _ => v])
  look asleep w :=
    if asleep.1.dueTick ≤ w.now.ticks then asleep.2.glance token w else (.inr asleep, [])
  drop _ _ := [.other fun v => { v with running := v.running - 1 }]

/-- How far the attempt at a call has come. -/
def Status.phase : Status σ β → Phase (Asleep σ β) β
  | landed result => .ended result
  | flying f => .underway (f.until_, f.rest)

/-- Looks at a call, unless it is over. -/
def Status.look : Status σ β → World σ → Status σ β × World σ
  | landed result, w => (.landed result, w)
  | flying f, w => f.poll w

/-- Looks at a call again and again, with things happening before each look. -/
def Status.watch (p : Status σ β × World σ) (turns : List (List (Happening σ))) :
    Status σ β × World σ :=
  turns.foldl (fun p hs => p.1.look (p.2.undergo hs)) p

/-- Starts a call, and looks at it again and again, with things happening before each look. -/
def World.watch (w : World σ) (context : Context)
    (begin_ : World σ → Call σ (Except StoreError β) × World σ) (first : List (Happening σ))
    (turns : List (List (Happening σ))) : Status σ β × World σ :=
  Status.watch ((w.undergo first).start context begin_) turns

/-- **Going on with a call** comes to what a glance at it shows, once that has happened. -/
theorem Call.of_run_eq (context : Context) (call : Call σ (Except StoreError β)) (w : World σ) :
    Status.of context (call.run context.token w) = match call.glance context.token w with
      | (.inl result, hs) => (.landed result, w.undergo hs)
      | (.inr (t, rest), hs) => (.flying ⟨context, t, rest⟩, w.undergo hs) := by
  induction call generalizing w with
  | answer reply => rfl
  | cancel reason rest ih =>
      simp only [Call.run, Call.glance, ih]
      rcases rest.glance context.token (w.cancel context.token reason) with ⟨_ | _, hs⟩ <;> rfl
  | sleep d rest ih =>
      by_cases hdue : (w.now.afterSleep d).dueTick ≤ w.now.ticks
      · simp only [Call.run, Call.glance, if_pos hdue, ih]
      · simp only [Call.run, Call.glance, if_neg hdue]
        rfl

/-- A call that was just begun is looked at at once. -/
theorem World.start_eq_poll {w v : World σ} {context : Context}
    {call : Call σ (Except StoreError β)}
    {begin_ : World σ → Call σ (Except StoreError β) × World σ}
    (hcheck : context.check w.tokens w.now = .ok ()) (hbegin : begin_ w.enter = (call, v))
    (hnow : v.now = w.now) (htokens : v.tokens = w.tokens) :
    w.start context begin_ = Flight.poll ⟨context, 0, call⟩ v := by
  have hdue : Instant.dueTick 0 ≤ w.now.ticks := Nat.zero_le _
  obtain ⟨hlive, hahead⟩ := Context.check_eq_ok.1 hcheck
  have hfilter : (context.deadline.filter fun d => d.at_.dueTick ≤ w.now.ticks) = none := by
    rw [Option.filter_eq_none_iff]
    intro d hd hfired
    have hle := Instant.le_of_dueTick_le (of_decide_eq_true hfired)
    exact Nat.not_lt.2 hle (hahead d hd)
  have hbegin' : begin_ { w with running := w.running + 1 } = (call, v) := hbegin
  simp only [World.start, Flight.poll, hcheck, hbegin', htokens, hnow, hlive, hfilter, if_pos hdue]

/-! ## Calls as attempts -/

namespace Attempt

variable {w v : World σ} {context : Context} {history : List (Happening σ)} {o : Opening σ β}
  {a : Attempt σ (Asleep σ β) β} {p : Status σ β × World σ} {f : Flight σ β}

/-- An attempt stands where a call stands in its world. While the call is under way, it was made in
the context of the attempt, and the attempt is in step with what happens. -/
structure Mirrors (w : World σ) (context : Context) (a : Attempt σ (Asleep σ β) β)
    (p : Status σ β × World σ) : Prop where
  phase : a.phase = p.1.phase
  world : a.world = p.2
  underway : ∀ f, p.1 = .flying f → f.context = context ∧ ∃ history, a.Tracks w context history

/-- A call that is over leaves nothing to keep in step. -/
theorem mirrors_landed {result : Except StoreError β} (hphase : a.phase = .ended result)
    (hworld : a.world = v) : a.Mirrors w context (.landed result, v) :=
  ⟨hphase, hworld, fun _ h => nomatch h⟩

/-- A request is refused for what its context fails its check with. -/
theorem Tells.refusal_eq (h : a.Tells w context history) :
    a.refusal? context = match context.check a.world.tokens a.world.now with
      | .error e => some e
      | .ok () => none := by
  have hraised := h.shows_.raised
  have hreason := h.shows_.reason
  unfold refusal? Context.check
  cases hs : a.world.tokens.state context.token with
  | cancelled reason =>
      rw [hs] at hraised hreason
      have hup : a.signal.raised = true := hraised
      rw [if_pos hup, Signal.error, hreason]
      rfl
  | live =>
      rw [hs] at hraised
      have hdown : ¬ a.signal.raised = true := by rw [hraised]; exact Bool.false_ne_true
      rw [if_neg hdown]
      cases context.deadline with
      | none => rfl
      | some d => by_cases hle : d.at_ ≤ a.world.now <;> simp [Option.filter, hle]

section Looks

variable {result : Except StoreError β} {g : Flight σ β} {asleep : Asleep σ β}
  {own : List (Happening σ)} (h : a.Tracks w context history)
  (hlive : w.firstReason? context.token history = none)
  (hrunning : ∀ d ∈ context.deadline, Timer.ticking.fired d.at_ a.world = false)

include h hlive hrunning

theorem Tracks.mirrors_answered
    (hlook : (o.future context.token).look asleep a.world = (.inl result, own)) :
    (a.select (o.future context.token) context .ticking asleep).Mirrors w context
      (.landed result, a.world.undergo own) := by
  rw [h.select_live hlive hrunning, hlook]
  exact mirrors_landed rfl (a.listen.world_undergo context own)

theorem Tracks.mirrors_waiting
    (hlook : (o.future context.token).look asleep a.world = (.inr (g.until_, g.rest), own))
    (hcontext : g.context = context) :
    (a.select (o.future context.token) context .ticking asleep).Mirrors w context
      (.flying g, a.world.undergo own) := by
  obtain ⟨hphase, htracks⟩ := h.select_waiting hlive hrunning hlook
  refine ⟨hphase, ?_, ?_⟩
  · rw [htracks.world, World.undergo_append, ← h.world]
  · intro f hf
    cases hf
    exact ⟨hcontext, _, htracks⟩

end Looks

/-- **Looking at a call** is looking at the attempt. -/
theorem Tracks.mirrors_poll (h : a.Tracks w context history) (o : Opening σ β)
    (hcontext : f.context = context) :
    (a.select (o.future context.token) context .ticking (f.until_, f.rest)).Mirrors w context
      (f.poll a.world) := by
  have hreason := h.shows_.reason
  rw [h.reason_eq] at hreason
  unfold Flight.poll
  rw [hcontext]
  cases hs : a.world.tokens.state context.token with
  | cancelled reason =>
      rw [hs] at hreason
      obtain ⟨hphase, hworld⟩ := h.select_cancelled (o.future context.token) .ticking
        (f.until_, f.rest) hreason
      exact mirrors_landed hphase hworld
  | live =>
      rw [hs] at hreason
      cases hfilter : context.deadline.filter fun d => d.at_.dueTick ≤ a.world.now.ticks with
      | some d =>
          obtain ⟨hd, hfired⟩ := Option.filter_eq_some_iff.1 hfilter
          obtain ⟨hphase, hworld⟩ := h.select_expired (o.future context.token) .ticking
            (f.until_, f.rest) hreason hd hfired
          exact mirrors_landed hphase hworld
      | none =>
          have hrunning : ∀ d ∈ context.deadline,
              (Timer.ticking (σ := σ)).fired d.at_ a.world = false :=
            fun d hd => eq_false_of_ne_true (Option.filter_eq_none_iff.1 hfilter d hd)
          by_cases hdue : f.until_.dueTick ≤ a.world.now.ticks
          · have hlook : (o.future context.token).look (f.until_, f.rest) a.world =
                f.rest.glance context.token a.world := if_pos hdue
            rw [if_pos hdue, Call.of_run_eq]
            rcases hglance : f.rest.glance context.token a.world with ⟨result | ⟨t, rest⟩, own⟩
            · exact h.mirrors_answered hreason hrunning (hlook.trans hglance)
            · exact h.mirrors_waiting (g := ⟨context, t, rest⟩) hreason hrunning
                (hlook.trans hglance) rfl
          · have hlook : (o.future context.token).look (f.until_, f.rest) a.world =
                (.inr (f.until_, f.rest), []) := if_neg hdue
            rw [if_neg hdue]
            exact h.mirrors_waiting hreason hrunning hlook hcontext

/-- Looking at whatever a call has come to keeps the attempt where the call stands. -/
theorem Mirrors.look (h : a.Mirrors w context p) (o : Opening σ β) (hs : List (Happening σ)) :
    ((a.undergo context hs).look (o.future context.token) context .ticking).Mirrors w context
      (p.1.look (p.2.undergo hs)) := by
  obtain ⟨status, v⟩ := p
  have hworld : (a.undergo context hs).world = v.undergo hs := by rw [world_undergo, h.world]
  have hphase : (a.undergo context hs).phase = status.phase := by rw [phase_undergo, h.phase]
  cases status with
  | landed result =>
      rw [Attempt.look, hphase]
      exact mirrors_landed hphase hworld
  | flying f =>
      obtain ⟨hcontext, history, htracks⟩ := h.underway f rfl
      rw [look_of_underway hphase]
      simp only [Status.look]
      rw [← hworld]
      exact (htracks.undergo hs).mirrors_poll o hcontext

theorem Mirrors.watch (h : a.Mirrors w context p) (o : Opening σ β)
    (turns : List (List (Happening σ))) :
    (a.run (o.future context.token) context .ticking turns).Mirrors w context
      (Status.watch p turns) := by
  induction turns generalizing a p with
  | nil => exact h
  | cons hs turns ih => exact ih (h.look o hs)

/-- **Starting a call** is looking at the attempt for the first time. -/
theorem mirrors_start (o : Opening σ β) (context : Context) (w : World σ)
    (first : List (Happening σ)) :
    ((asked context w first).look (o.future context.token) context .ticking).Mirrors w context
      ((w.undergo first).start context o.begin_) := by
  have htracks := tracks_asked (κ := Asleep σ β) (β := β) context w first
  have hphase := phase_asked (κ := Asleep σ β) (β := β) context w first
  have hrefusal := htracks.refusal_eq
  rw [htracks.world] at hrefusal
  cases hcheck : context.check (w.undergo first).tokens (w.undergo first).now with
  | error e =>
      have hstart : (w.undergo first).start context o.begin_ =
          (.landed (.error e), w.undergo first) := by
        simp only [World.start, hcheck]
      rw [hcheck] at hrefusal
      rw [look_of_refusal _ _ hphase hrefusal, hstart]
      exact mirrors_landed rfl htracks.world
  | ok u =>
      rcases hbegin : o.begin_ (w.undergo first).enter with ⟨call, v⟩
      obtain ⟨hnow, htokens⟩ := o.begun hbegin
      have hcreate : (o.future context.token).create (w.undergo first) =
          ((0, call), [.other fun _ => v]) := by
        simp only [Opening.future, hbegin]
      have hlaunch := htracks.launch (0, call) [.other fun _ => v]
      have hworld : (w.undergo first).undergo [.other fun _ => v] = v := by
        show { v with now := (w.undergo first).now, tokens := (w.undergo first).tokens } = v
        rw [← hnow, ← htokens]
      have hpoll := hlaunch.mirrors_poll (f := ⟨context, 0, call⟩) o rfl
      rw [hlaunch.world, World.undergo_append, hworld] at hpoll
      rw [hcheck] at hrefusal
      rw [look_of_asked .ticking hphase hrefusal (by rw [htracks.world, hcreate]),
        World.start_eq_poll hcheck hbegin hnow htokens]
      exact hpoll

end Attempt

/-! ## Whole calls -/

/-- **Calls are attempts.** A call that is started, and looked at again and again, comes to what the
attempt at it comes to, and so does its world. -/
theorem Opening.run_eq_watch (o : Opening σ β) (context : Context) (w : World σ)
    (first : List (Happening σ)) (turns : List (List (Happening σ))) :
    let a := (Attempt.start context w).run (o.future context.token) context .ticking
      (first :: turns)
    (a.phase, a.world) = ((w.watch context o.begin_ first turns).1.phase,
      (w.watch context o.begin_ first turns).2) := by
  have h := (Attempt.mirrors_start o context w first).watch o turns
  exact Prod.ext h.phase h.world

/-- A call that waits lets something happen before it is looked at again. -/
theorem Flight.exists_undergo_wait (f : Flight σ β) (w : World σ) :
    ∃ hs, f.wait w = w.undergo hs := by
  unfold Flight.wait
  by_cases hready : f.ready w = true
  · exact ⟨[], by rw [if_pos hready, World.undergo_nil]⟩
  · rw [if_neg hready]
    exact w.exists_undergo_elapse f.timers

/-- A call under way that nobody interferes with is looked at until it is over. -/
theorem Flight.exists_watch_eq_land (f : Flight σ β) (w : World σ) :
    ∃ turns, Status.watch (.flying f, w) turns = (.landed (f.land w).1, (f.land w).2) := by
  fun_induction Flight.land f w with
  | case1 f w result w' hpoll =>
      obtain ⟨hs, hwait⟩ := f.exists_undergo_wait w
      refine ⟨[hs], ?_⟩
      show (Status.flying f).look (w.undergo hs) = _
      rw [← hwait]
      exact hpoll
  | case2 f w g w' hpoll ih =>
      obtain ⟨hs, hwait⟩ := f.exists_undergo_wait w
      obtain ⟨turns, hturns⟩ := ih
      refine ⟨hs :: turns, ?_⟩
      show Status.watch ((Status.flying f).look (w.undergo hs)) turns = _
      rw [← hwait]
      exact (congrArg (fun p => Status.watch p turns) hpoll).trans hturns

/-- **A call that nobody interferes with** is looked at until it is over. -/
theorem World.exists_watch_eq_call (w : World σ) (context : Context)
    (begin_ : World σ → Call σ (Except StoreError β) × World σ) :
    ∃ turns, w.watch context begin_ [] turns =
      (.landed (w.call context begin_).1, (w.call context begin_).2) := by
  unfold World.watch World.call
  rw [World.undergo_nil]
  rcases w.start context begin_ with ⟨result | f, v⟩
  · exact ⟨[], rfl⟩
  · exact f.exists_watch_eq_land v

/-! ## What is reported -/

/-- **What an abandoned call reports**, of any call, on any clock whose timers are never early,
whatever happens before and between the looks at it.

If the request is over at the first look, the call is never created, and the failure is that of the
cancellation, or else that of the deadline. Otherwise the call is created, once, and the answer is
decided at the first look at which the token is cancelled, the timer has fired or the call is ready,
in this order. So every answer is the call's own, or the failure of a request that was over when it
was looked at; and wherever the flag is up there is a reason, so that no other text is told.

The calls that are started and looked at in a world are of this kind, and so is every request that a
service makes. -/
theorem abandoned_call_reports :
    (∀ {κ : Type} (future : Future σ κ β) (context : Context) (timer : Timer σ) (w : World σ)
        (first : List (Happening σ)) (turns : List (List (Happening σ))),
      let a := (Attempt.start context w).run future context timer (first :: turns)
      let sights := Attempt.sights future w first turns
      ((∃ e, context.Over w first e ∧ a.phase = .ended (.error e) ∧ a.created = 0) ∨
        ((∀ e, ¬ context.Over w first e) ∧ a.created = 1 ∧
          Attempt.Decided w context timer sights a.phase.answer?)) ∧
      (∀ answer ∈ a.phase.answer?, (∃ x ∈ sights, x.outcome = .inl answer) ∨
        ∃ past ∈ first :: sights.map Sight.history, ∃ e,
          context.Over w past e ∧ answer = .error e) ∧
      a.signal.raised = a.signal.reason.isSome) ∧
    (∀ (o : Opening σ β) (context : Context) (w : World σ) (first : List (Happening σ))
        (turns : List (List (Happening σ))),
      let a := (Attempt.start context w).run (o.future context.token) context .ticking
        (first :: turns)
      (a.phase, a.world) = ((w.watch context o.begin_ first turns).1.phase,
        (w.watch context o.begin_ first turns).2)) ∧
    (∀ (s : Service σ) (context : Context) (r : Request) (w : World σ), ∃ turns,
      w.watch (s.callContext context w.now)
          (s.opening (s.callContext context w.now) r).begin_ [] turns =
        (.landed (s.call context r w).1, (s.call context r w).2)) := by
  refine ⟨?_, Opening.run_eq_watch, fun s context r w => w.exists_watch_eq_call _ _⟩
  intro κ future context timer w first turns a sights
  have hcases := Attempt.run_cases future context timer w first turns
  refine ⟨hcases, ?_, ?_⟩
  · intro answer hanswer
    rcases hcases with ⟨e, hover, hphase, -⟩ | ⟨-, -, hdecided⟩
    · have hphase' : a.phase.answer? = some (.error e) := congrArg Phase.answer? hphase
      rw [hphase'] at hanswer
      cases hanswer
      exact .inr ⟨first, by simp, e, hover, rfl⟩
    · obtain ⟨x, hx, hown | ⟨e, hover, rfl⟩⟩ := hdecided.own_or_over answer hanswer
      · exact .inl ⟨x, hx, hown⟩
      · refine .inr ⟨x.history, ?_, e, hover, rfl⟩
        exact List.mem_cons_of_mem _ (List.mem_map_of_mem hx)
  · obtain ⟨past, htells⟩ := (Attempt.tracks_start context w).toTells.run future timer
      (first :: turns)
    rw [htells.raised_eq, htells.reason_eq]

end Delivery
