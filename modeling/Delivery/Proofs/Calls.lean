import Delivery.Service.Basic

/-!
# What a call leaves behind

A call that is started runs to its answer or is ended by its context. Whatever happens in between,
the world only waits: the clock moves on, cancellations come, and everything else stays
(`World.Waits`). The case lemmas below say everything that can come of a call, so that later proofs
never open one:

* `Call.run_cases`, `Flight.poll_cases`, `World.start_cases` — one look at a call;
* `Service.call_cases` — a call from its start to its end;
* `Context.Ends` — the failure with which a context ends a call, and why.
-/

namespace Delivery

variable {σ α β : Type}

/-! ## Worlds that wait -/

/-- The clock never goes back, and a cancellation is never taken back. -/
structure World.After (w w' : World σ) : Prop where
  now : w.now ≤ w'.now
  cancelled : ∀ id r, w.tokens.state id = .cancelled r → w'.tokens.state id = .cancelled r

theorem World.After.refl (w : World σ) : w.After w := ⟨Nat.le_refl _, fun _ _ h => h⟩

theorem World.After.trans {u v w : World σ} (h₁ : u.After v) (h₂ : v.After w) : u.After w where
  now := Nat.le_trans h₁.now h₂.now
  cancelled id r h := h₂.cancelled id r (h₁.cancelled id r h)

/-- From one world to the other the clock has moved on and cancellations have come; nothing else has
changed that a call can see. -/
structure World.Waits (w w' : World σ) : Prop extends w.After w' where
  running : w'.running = w.running
  calls : w'.calls = w.calls
  built : w'.built = w.built
  state : w'.state = w.state

theorem World.Waits.refl (w : World σ) : w.Waits w := ⟨.refl w, rfl, rfl, rfl, rfl⟩

theorem World.Waits.trans {u v w : World σ} (h₁ : u.Waits v) (h₂ : v.Waits w) : u.Waits w where
  toAfter := h₁.toAfter.trans h₂.toAfter
  running := by rw [h₂.running, h₁.running]
  calls := by rw [h₂.calls, h₁.calls]
  built := by rw [h₂.built, h₁.built]
  state := by rw [h₂.state, h₁.state]

/-- The first cancellation of a token is kept. -/
theorem Tokens.state_cancel_of_cancelled {ts : Tokens} {id other : TokenId} {r reason : String}
    (h : ts.state other = .cancelled r) :
    (ts.cancel id reason).state other = .cancelled r := by
  rw [Tokens.state_cancel]
  by_cases hid : other = id
  · subst hid
    rw [if_pos rfl, h, Token.cancel_cancelled]
  · rw [if_neg hid, h]

theorem Tokens.state_foldl_cancel {ts : Tokens} {id : TokenId} {r : String}
    (cs : List Cancellation) (h : ts.state id = .cancelled r) :
    (cs.foldl (fun ts c => ts.cancel c.token c.reason) ts).state id = .cancelled r := by
  induction cs generalizing ts with
  | nil => exact h
  | cons c rest ih => exact ih (Tokens.state_cancel_of_cancelled h)

theorem World.waits_cancel (w : World σ) (token : TokenId) (reason : String) :
    w.Waits (w.cancel token reason) where
  now := Nat.le_refl _
  cancelled _ _ h := Tokens.state_cancel_of_cancelled h
  running := rfl
  calls := rfl
  built := rfl
  state := rfl

/-- The clock only moves forward. -/
theorem Instant.le_moveTo (now : Instant) (tick : Nat) : now ≤ now.moveTo tick := by
  unfold Instant.moveTo
  exact Nat.le_add_right _ _

theorem World.waits_reach (w : World σ) (tick : Nat) : w.Waits (w.reach tick) := by
  unfold World.reach
  refine ⟨⟨w.now.le_moveTo tick, ?_⟩, rfl, rfl, rfl, rfl⟩
  intro id r h
  exact Tokens.state_foldl_cancel _ h

theorem World.waits_elapse (w : World σ) (timers : List Instant) : w.Waits (w.elapse timers) := by
  unfold World.elapse
  cases w.nextTick? timers with
  | some tick => exact w.waits_reach tick
  | none => exact .refl w

/-! ## Contexts that end a call -/

/-- The failure with which a context ends a call in a world: the reason of the first cancellation,
or the expiry of the deadline. -/
inductive Context.Ends (c : Context) (w : World σ) : StoreError → Prop
  | cancelled {r} : w.tokens.state c.token = .cancelled r → Ends c w (.cancelled r)
  | expired {d} : c.deadline = some d → d.at_ ≤ w.now → Ends c w d.error

/-- Only the tokens and the clock decide whether a context ends. -/
theorem Context.Ends.congr {c : Context} {w w' : World σ} {e : StoreError} (h : c.Ends w e)
    (htokens : w'.tokens = w.tokens) (hnow : w'.now = w.now) : c.Ends w' e := by
  cases h with
  | cancelled hr => exact .cancelled (by rw [htokens, hr])
  | expired hd hle => exact .expired hd (by rw [hnow]; exact hle)

/-- A context that fails its check ends every call with that failure. -/
theorem Context.ends_of_check {c : Context} {w : World σ} {e : StoreError}
    (h : c.check w.tokens w.now = .error e) : c.Ends w e := by
  unfold Context.check at h
  split at h
  · rename_i r hr
    cases h
    exact .cancelled hr
  · split at h
    · rename_i d hd
      split at h
      · rename_i hle
        cases h
        exact .expired hd hle
      · cases h
    · cases h

/-- A context is good while its token is live and its deadline is still to come. -/
theorem Context.check_eq_ok {c : Context} {tokens : Tokens} {now : Instant} :
    c.check tokens now = .ok () ↔
      tokens.state c.token = .live ∧ ∀ d ∈ c.deadline, now < d.at_ := by
  unfold check
  cases hs : tokens.state c.token with
  | cancelled r => simp
  | live =>
      cases hd : c.deadline with
      | none => simp
      | some d =>
          by_cases hle : d.at_ ≤ now
          · simp [hle, Nat.not_lt.2 hle]
          · simp [hle, Nat.lt_of_not_le hle]

/-- A context that is good in a later world was good before. -/
theorem Context.check_of_after {c : Context} {w w' : World σ} (hw : w.After w')
    (h : c.check w'.tokens w'.now = .ok ()) : c.check w.tokens w.now = .ok () := by
  obtain ⟨hlive, hahead⟩ := check_eq_ok.1 h
  refine check_eq_ok.2 ⟨?_, fun d hd => Nat.lt_of_le_of_lt hw.now (hahead d hd)⟩
  cases hs : w.tokens.state c.token with
  | live => rfl
  | cancelled r =>
      -- The cancellation would have been kept.
      rw [hw.cancelled _ _ hs] at hlive
      cases hlive

/-- A timer that has fired was set for an instant that has passed. -/
theorem Instant.le_of_dueTick_le {t now : Nat} (h : Instant.dueTick t ≤ Instant.ticks now) :
    t ≤ now := by
  have hms : Duration.millisecond = 1000000 := rfl
  simp only [Instant.dueTick, Instant.ticks] at h
  by_cases hz : t % Duration.millisecond = 0
  · rw [if_pos hz] at h
    rw [hms] at h hz
    omega
  · rw [if_neg hz] at h
    rw [hms] at h hz
    omega

/-- The context of a call has the caller's token. -/
@[simp] theorem Service.callContext_token (s : Service σ) (context : Context) (now : Instant) :
    (s.callContext context now).token = context.token := by
  unfold Service.callContext
  split
  · unfold Context.withTimeout
    split <;> rfl
  · rfl

/-! ## One look at a call -/

/-- The answer that a call comes to, given in a state, and the state it leaves. -/
def Call.reply : Call σ α → σ → α × σ
  | .answer reply => reply
  | .cancel _ rest | .sleep _ rest => rest.reply

/-- A call answers from the state in which it is looked at, or falls asleep and leaves the state
alone; what is left of it comes to the same answer. -/
theorem Call.run_cases (token : TokenId) (c : Call σ α) (w : World σ) :
    ∃ w₁, w.Waits w₁ ∧
      (c.run token w = (.done (c.reply w.state).1, { w₁ with state := (c.reply w.state).2 }) ∨
        ∃ t rest, c.run token w = (.asleep t rest, w₁) ∧ rest.reply = c.reply) := by
  induction c generalizing w with
  | answer reply => exact ⟨w, .refl w, .inl rfl⟩
  | cancel reason rest ih =>
      obtain ⟨w₁, hw, h⟩ := ih (w.cancel token reason)
      exact ⟨w₁, (w.waits_cancel token reason).trans hw, h⟩
  | sleep d rest ih =>
      simp only [Call.run]
      split
      · exact ih w
      · exact ⟨w, .refl w, .inr ⟨_, rest, rfl, rfl⟩⟩

/-- Looking at a waiting call ends it by its context, answers it, or leaves it waiting. -/
theorem Flight.poll_cases (f : Flight σ β) (w : World σ) :
    (∃ e, f.context.Ends w e ∧
      f.poll w = (.landed (.error e), { w with running := w.running - 1 })) ∨
    ∃ w₁, w.Waits w₁ ∧
      (f.poll w = (.landed (f.rest.reply w.state).1,
          { w₁ with state := (f.rest.reply w.state).2, running := w.running - 1 }) ∨
        ∃ g, f.poll w = (.flying g, w₁) ∧ g.context = f.context ∧
          g.rest.reply = f.rest.reply) := by
  simp only [Flight.poll]
  split
  · rename_i r hr
    exact .inl ⟨_, .cancelled hr, rfl⟩
  · split
    · rename_i d hd
      obtain ⟨hd, hdue⟩ := Option.filter_eq_some_iff.1 hd
      exact .inl ⟨_, .expired hd (Instant.le_of_dueTick_le (of_decide_eq_true hdue)), rfl⟩
    · right
      split
      · obtain ⟨w₁, hw, hdone | ⟨t, rest, hasleep, hreply⟩⟩ := f.rest.run_cases f.context.token w
        · refine ⟨w₁, hw, .inl ?_⟩
          rw [hdone, Status.of, hw.running]
        · exact ⟨w₁, hw, .inr ⟨⟨f.context, t, rest⟩, by rw [hasleep, Status.of], rfl, hreply⟩⟩
      · exact ⟨w, .refl w, .inr ⟨f, rfl, rfl, rfl⟩⟩

/-- A call that is not started leaves the world alone. One that is started has begun, and is
answered at once or waits. -/
theorem World.start_cases (w : World σ) (context : Context)
    (begin_ : World σ → Call σ (Except StoreError β) × World σ) :
    (∃ e, context.check w.tokens w.now = .error e ∧
      w.start context begin_ = (.landed (.error e), w)) ∨
    ∃ call v v₁, context.check w.tokens w.now = .ok () ∧
      begin_ { w with running := w.running + 1 } = (call, v) ∧ v.Waits v₁ ∧
      (w.start context begin_ = (.landed (call.reply v.state).1,
          { v₁ with state := (call.reply v.state).2, running := v.running - 1 }) ∨
        ∃ f, w.start context begin_ = (.flying f, v₁) ∧ f.context = context ∧
          f.rest.reply = call.reply) := by
  unfold World.start
  cases hc : context.check w.tokens w.now with
  | error e => exact .inl ⟨e, rfl, rfl⟩
  | ok u =>
      right
      rcases hb : begin_ { w with running := w.running + 1 } with ⟨call, v⟩
      obtain ⟨v₁, hv, hdone | ⟨t, rest, hasleep, hreply⟩⟩ := call.run_cases context.token v
      · refine ⟨call, v, v₁, rfl, rfl, hv, .inl ?_⟩
        simp only [hdone, Status.of, hv.running]
      · refine ⟨call, v, v₁, rfl, rfl, hv, .inr ⟨⟨context, t, rest⟩, ?_, rfl, hreply⟩⟩
        simp only [hasleep, Status.of]

/-! ## Whole calls -/

/-- Letting time move for a call is waiting. -/
theorem Flight.waits_wait (f : Flight σ β) (w : World σ) : w.Waits (f.wait w) := by
  unfold Flight.wait
  by_cases hready : f.ready w = true
  · rw [if_pos hready]
    exact .refl w
  · rw [if_neg hready]
    exact w.waits_elapse f.timers

/-- A waiting call that nobody else interferes with ends by its context or is answered from the
state in which it began to wait. -/
theorem Flight.land_cases (f : Flight σ β) (w : World σ) :
    ∃ w₁, w.Waits w₁ ∧
      ((∃ e, f.context.Ends w₁ e ∧
          f.land w = (.error e, { w₁ with running := w.running - 1 })) ∨
        f.land w = ((f.rest.reply w.state).1,
          { w₁ with state := (f.rest.reply w.state).2, running := w.running - 1 })) := by
  fun_induction Flight.land f w with
  | case1 f w result w' hpoll =>
      have hwait := f.waits_wait w
      rcases f.poll_cases (f.wait w) with ⟨e, he, h⟩ | ⟨w₁, hw, h | ⟨g, h, -, -⟩⟩
      · rw [hpoll] at h
        cases h
        exact ⟨_, hwait, .inl ⟨e, he, by rw [hwait.running]⟩⟩
      · rw [hpoll] at h
        cases h
        exact ⟨w₁, hwait.trans hw, .inr (by rw [hwait.state, hwait.running])⟩
      · rw [hpoll] at h
        cases h
  | case2 f w g w' hpoll ih =>
      have hwait := f.waits_wait w
      rcases f.poll_cases (f.wait w) with ⟨e, he, h⟩ | ⟨w₁, hw, h | ⟨g', h, hcontext, hreply⟩⟩
      · rw [hpoll] at h
        cases h
      · rw [hpoll] at h
        cases h
      · rw [hpoll] at h
        cases h
        have hw' := hwait.trans hw
        obtain ⟨w₂, hw₂, hend⟩ := ih
        rw [hcontext, hreply, hw'.state, hw'.running] at hend
        exact ⟨w₂, hw'.trans hw₂, hend⟩

/-- What a service records of a call that goes to a collaborator. -/
def Service.recordsOf (s : Service σ) (context : Context) (r : Request) (w : World σ) :
    List CallRecord :=
  if s.delegates r then [⟨r, w.now, context.remaining w.now, w.running + 1⟩] else []

/-- The world in which a call has begun. -/
def Service.begun (s : Service σ) (context : Context) (r : Request) (w : World σ) : World σ :=
  { w with
    running := w.running + 1
    calls := w.calls ++ s.recordsOf context r w
    state := (s.serve r w.state).2 }

theorem Service.begin_eq (s : Service σ) (context : Context) (r : Request) (w : World σ) :
    s.begin context r { w with running := w.running + 1 } =
      ((s.serve r w.state).1, s.begun context r w) := by
  unfold Service.begin Service.begun Service.recordsOf
  by_cases hd : s.delegates r = true
  · simp [hd]
  · simp [hd]

/-- Starting a call of a service: it is not begun when its context has ended; else it has begun,
and is answered at once or waits. -/
theorem Service.start_cases (s : Service σ) (context : Context) (r : Request) (w : World σ) :
    (∃ e, context.check w.tokens w.now = .error e ∧
      w.start context (s.begin context r) = (.landed (.error e), w)) ∨
    ∃ w₁, context.check w.tokens w.now = .ok () ∧ (s.begun context r w).Waits w₁ ∧
      (w.start context (s.begin context r) =
          (.landed ((s.serve r w.state).1.reply (s.serve r w.state).2).1,
            { w₁ with
              state := ((s.serve r w.state).1.reply (s.serve r w.state).2).2
              running := w.running }) ∨
        ∃ f, w.start context (s.begin context r) = (.flying f, w₁) ∧ f.context = context ∧
          f.rest.reply = (s.serve r w.state).1.reply) := by
  rcases w.start_cases context (s.begin context r) with
    h | ⟨call, v, w₁, hcheck, hbegin, hw, hstart⟩
  · exact .inl h
  · rw [s.begin_eq] at hbegin
    cases hbegin
    exact .inr ⟨w₁, hcheck, hw, hstart⟩

/-- A call of a service was made between two worlds: it was recorded, and it is over. -/
structure Service.Made (s : Service σ) (context : Context) (r : Request) (w w' : World σ) :
    Prop where
  after : w.After w'
  running : w'.running = w.running
  built : w'.built = w.built
  calls : w'.calls = w.calls ++ s.recordsOf context r w

/-- Whatever comes of a call that has begun, it was made once nothing runs that did not before. -/
theorem Service.made_of_begun {s : Service σ} {context : Context} {r : Request} {w w₁ : World σ}
    (h : (s.begun context r w).Waits w₁) (state : σ) :
    s.Made context r w { w₁ with state, running := w.running } :=
  ⟨⟨h.now, h.cancelled⟩, rfl, h.built, h.calls⟩

/-- **What can come of a call.** It is not started, because its context has ended already; or it is
made, and then ended by its context or answered from the state in which it began. -/
theorem Service.call_cases (s : Service σ) (context : Context) (r : Request) (w : World σ) :
    (∃ e, (s.callContext context w.now).Ends w e ∧ s.call context r w = (.error e, w)) ∨
    ∃ w', s.Made (s.callContext context w.now) r w w' ∧
      ((∃ e, (s.callContext context w.now).Ends w' e ∧ s.call context r w = (.error e, w') ∧
          w'.state = (s.serve r w.state).2) ∨
        (s.call context r w =
            (((s.serve r w.state).1.reply (s.serve r w.state).2).1, w') ∧
          w'.state = ((s.serve r w.state).1.reply (s.serve r w.state).2).2)) := by
  unfold Service.call World.call
  generalize s.callContext context w.now = context
  rcases s.start_cases context r w with
    ⟨e, hcheck, h⟩ | ⟨w₁, hcheck, hw, hdone | ⟨f, hflying, hcontext, hreply⟩⟩
  · exact .inl ⟨e, Context.ends_of_check hcheck, by simp only [h]⟩
  · exact .inr ⟨_, s.made_of_begun hw _, .inr ⟨by simp only [hdone], rfl⟩⟩
  · right
    obtain ⟨w₂, hw₂, ⟨e, he, hland⟩ | hland⟩ := f.land_cases w₁
    · refine ⟨_, s.made_of_begun (hw.trans hw₂) w₂.state, .inl ⟨e, ?_, ?_, ?_⟩⟩
      · rw [← hcontext]
        exact he.congr rfl rfl
      · simp only [hflying, hland]
        rw [hw.running]
        rfl
      · exact (hw.trans hw₂).state
    · refine ⟨_, s.made_of_begun (hw.trans hw₂) _, .inr ⟨?_, rfl⟩⟩
      simp only [hflying, hland]
      rw [hreply, hw.running, hw.state]
      rfl

end Delivery
