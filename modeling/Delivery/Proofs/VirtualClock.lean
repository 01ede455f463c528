import Delivery.Proofs.Calls

/-!
# Slow calls on the virtual clock

The clock stands at whole milliseconds whenever a timer set it going (`World.now_elapse`), and a
timer set at such an instant fires after its time, rounded up. So it can be said in advance how long
a call sleeps before it does anything (`Call.delay`). A call that sleeps for the whole of its
timeout is ended by it at the instant at which it expires, and at no other (`Flight.poll_slow`).
-/

namespace Delivery

variable {σ α β : Type}

/-! ## Whole milliseconds -/

namespace Instant

/-- On a tick of the clock. -/
def Whole (t : Instant) : Prop := t % Duration.millisecond = 0

/-- The instant at which a timer fires. -/
def fires (t : Instant) : Instant := t.dueTick * Duration.millisecond

theorem Whole.ticks_mul {t : Instant} (h : t.Whole) : t.ticks * Duration.millisecond = t :=
  Nat.div_mul_cancel (Nat.dvd_of_mod_eq_zero h)

theorem Whole.add {t u : Nat} (ht : Whole t) (hu : Whole u) : Whole (t + u) := by
  unfold Whole at *
  rw [Nat.add_mod, ht, hu, Nat.zero_add, Nat.zero_mod]

theorem Whole.mul {t : Nat} (n : Nat) (ht : Whole t) : Whole (n * t) := by
  unfold Whole at *
  rw [Nat.mul_mod, ht, Nat.mul_zero, Nat.zero_mod]

theorem Whole.fires_eq {t : Instant} (h : t.Whole) : t.fires = t := by
  have hdue : t.dueTick = t.ticks := if_pos h
  unfold fires
  rw [hdue, h.ticks_mul]

/-- A timer set on a tick of the clock fires after its time, rounded up. -/
theorem Whole.fires_add {t : Instant} (h : t.Whole) (d : Duration) :
    fires (t + d) = t + fires d := by
  obtain ⟨q, rfl⟩ : Duration.millisecond ∣ t := Nat.dvd_of_mod_eq_zero h
  have hmod : (Duration.millisecond * q + d) % Duration.millisecond = d % Duration.millisecond :=
    Nat.mul_add_mod _ q d
  have hdiv : (Duration.millisecond * q + d) / Duration.millisecond =
      q + d / Duration.millisecond := Nat.mul_add_div (by decide) q d
  unfold fires dueTick ticks
  rw [hmod, hdiv]
  by_cases hd : d % Duration.millisecond = 0
  · rw [if_pos hd, if_pos hd, Nat.add_mul, Nat.mul_comm q]
  · rw [if_neg hd, if_neg hd, Nat.add_assoc, Nat.add_mul, Nat.mul_comm q]

/-- On a tick of the clock the timers that have fired are those that fire by then. -/
theorem Whole.dueTick_le {now : Instant} (h : now.Whole) (t : Instant) :
    t.dueTick ≤ now.ticks ↔ t.fires ≤ now := by
  have hpos : 0 < Duration.millisecond := by decide
  have hiff : t.dueTick * Duration.millisecond ≤ now.ticks * Duration.millisecond ↔
      t.dueTick ≤ now.ticks := Nat.mul_le_mul_right_iff hpos
  rw [h.ticks_mul] at hiff
  exact hiff.symm

end Instant

/-- A timer moves the clock at most to where it fires, and the clock stays on its ticks. -/
theorem World.now_elapse {w : World σ} (hwhole : w.now.Whole) (timers : List Instant) :
    (w.elapse timers).now.Whole ∧
      ∀ t ∈ timers, (w.elapse timers).now ≤ max w.now t.fires := by
  unfold World.elapse
  cases htick : w.nextTick? timers with
  | none => exact ⟨hwhole, fun t _ => Nat.le_max_left _ _⟩
  | some tick =>
      refine ⟨hwhole.add (.mul (tick - w.now.ticks) rfl), fun t ht => ?_⟩
      have hle : tick ≤ t.dueTick :=
        (List.min?_eq_some_iff.1 htick).2 _ (List.mem_append_right _ (List.mem_map_of_mem ht))
      have hmax (a b c : Nat) (h : b ≤ c) : a + (b - a) ≤ max a c := by omega
      show w.now + (tick - w.now.ticks) * Duration.millisecond ≤
        max w.now (t.dueTick * Duration.millisecond)
      rw [Nat.sub_mul, hwhole.ticks_mul]
      exact hmax _ _ _ (Nat.mul_le_mul_right _ hle)

/-! ## Requests that are not cancelled -/

/-- A token is live, and nobody plans to cancel it. -/
structure World.Spares (w : World σ) (token : TokenId) : Prop where
  live : w.tokens.state token = .live
  planned : ∀ item ∈ w.agenda.items, item.2.token ≠ token

theorem Tokens.state_foldl_cancel_of_ne {ts : Tokens} {id : TokenId} {cs : List Cancellation}
    (h : ∀ c ∈ cs, c.token ≠ id) :
    (cs.foldl (fun ts c => ts.cancel c.token c.reason) ts).state id = ts.state id := by
  induction cs generalizing ts with
  | nil => rfl
  | cons c rest ih =>
      rw [List.foldl_cons, ih fun d hd => h d (List.mem_cons_of_mem _ hd), Tokens.state_cancel,
        if_neg (h c List.mem_cons_self).symm]

theorem World.Spares.elapse {w : World σ} {token : TokenId} (h : w.Spares token)
    (timers : List Instant) : (w.elapse timers).Spares token := by
  unfold World.elapse
  cases w.nextTick? timers with
  | none => exact h
  | some tick =>
      refine ⟨?_, fun item hitem => h.planned item ((List.dropWhile_suffix _).subset hitem)⟩
      refine (Tokens.state_foldl_cancel_of_ne ?_).trans h.live
      intro c hc
      obtain ⟨item, hitem, rfl⟩ := List.mem_map.1 hc
      exact h.planned item ((List.takeWhile_prefix _).subset hitem)

/-! ## Slow calls -/

/-- How long a call made on a tick of the clock sleeps before it answers or cancels anything. -/
def Call.delay : Call σ α → Duration
  | .answer _ | .cancel .. => 0
  | .sleep d rest => Instant.fires (min d Duration.longestSleep) + rest.delay

/-- A call that is to sleep for some time falls asleep, and sleeps on afterwards if that was not
all. -/
theorem Call.run_slow (token : TokenId) {c : Call σ α} {w : World σ} (hwhole : w.now.Whole)
    (hslow : 0 < c.delay) : ∃ t rest, c.run token w = (.asleep t rest, w) ∧ w.now < t.fires ∧
      t.fires + rest.delay = w.now + c.delay := by
  induction c with
  | answer reply => exact absurd hslow (Nat.lt_irrefl 0)
  | cancel reason rest ih => exact absurd hslow (Nat.lt_irrefl 0)
  | sleep d rest ih =>
      have hfires : (w.now.afterSleep d).fires =
          w.now + Instant.fires (min d Duration.longestSleep) := hwhole.fires_add _
      simp only [delay] at hslow ⊢
      simp only [Call.run, hwhole.dueTick_le]
      by_cases hdue : (w.now.afterSleep d).fires ≤ w.now
      · -- A sleep that is over at once.
        rw [if_pos hdue]
        have hnone : Instant.fires (min d Duration.longestSleep) = 0 := by
          rw [hfires] at hdue
          exact Nat.le_zero.1 (Nat.le_of_add_le_add_left hdue)
        rw [hnone, Nat.zero_add] at hslow ⊢
        exact ih hslow
      · rw [if_neg hdue]
        refine ⟨_, rest, rfl, Nat.lt_of_not_le hdue, ?_⟩
        rw [hfires, Nat.add_assoc]

/-- A call that waits and will still sleep at its deadline. -/
structure Flight.Slow (f : Flight σ β) (d : Deadline) (now : Instant) : Prop where
  deadline : f.context.deadline = some d
  asleep : now ≤ f.until_.fires
  slow : d.at_ ≤ f.until_.fires + f.rest.delay

/-- A call that sleeps for all the time it is given is started, and waits. -/
theorem World.start_slow {context : Context} {d : Deadline} {w v : World σ}
    {begin_ : World σ → Call σ (Except StoreError β) × World σ}
    {call : Call σ (Except StoreError β)} (hwhole : w.now.Whole)
    (hlive : w.tokens.state context.token = .live) (hdeadline : context.deadline = some d)
    (hlater : w.now < d.at_) (hbegin : begin_ { w with running := w.running + 1 } = (call, v))
    (hnow : v.now = w.now) (hslow : d.at_ ≤ w.now + call.delay) :
    ∃ f, w.start context begin_ = (.flying f, v) ∧ f.context = context ∧ f.Slow d w.now := by
  have hcheck : context.check w.tokens w.now = .ok () :=
    Context.check_eq_ok.2 ⟨hlive, by simpa [hdeadline] using hlater⟩
  have hpos : 0 < call.delay :=
    Nat.pos_of_ne_zero fun h => Nat.not_le_of_lt hlater (by rw [h] at hslow; exact hslow)
  rw [← hnow] at hwhole
  obtain ⟨t, rest, hrun, hlt, hdelay⟩ := call.run_slow context.token hwhole hpos
  rw [hnow] at hlt hdelay
  refine ⟨⟨context, t, rest⟩, ?_, rfl, hdeadline, Nat.le_of_lt hlt, by rw [hdelay]; exact hslow⟩
  simp only [World.start, hcheck, hbegin, hrun, Status.of]

/-- **A slow call is ended by its deadline**, when the clock has come to it; before, looking at the
call only makes it sleep on. -/
theorem Flight.poll_slow {f : Flight σ β} {d : Deadline} {w : World σ} (hf : f.Slow d w.now)
    (hwhole : w.now.Whole) (hd : d.at_.Whole) (hlive : w.tokens.state f.context.token = .live)
    (hready : f.ready w = true) :
    (d.at_ ≤ w.now ∧
      f.poll w = (.landed (.error d.error), { w with running := w.running - 1 })) ∨
    w.now < d.at_ ∧ ∃ g, f.poll w = (.flying g, w) ∧ g.context = f.context ∧ g.Slow d w.now := by
  have hfired : decide (d.at_.dueTick ≤ w.now.ticks) = decide (d.at_ ≤ w.now) := by
    rw [decide_eq_decide, hwhole.dueTick_le, hd.fires_eq]
  by_cases hdue : d.at_ ≤ w.now
  · refine .inl ⟨hdue, ?_⟩
    simp only [poll, hlive, hf.deadline, Option.filter, hfired, decide_eq_true hdue, if_true]
  · -- The deadline is still to come, so that what fired is the timer of the sleep.
    have hlt := Nat.lt_of_not_le hdue
    have hwake : f.until_.dueTick ≤ w.now.ticks := by
      simpa [ready, expired, hlive, hf.deadline, hfired, hdue, Token.isCancelled] using hready
    have hnow : f.until_.fires = w.now :=
      Nat.le_antisymm ((hwhole.dueTick_le _).1 hwake) hf.asleep
    have hslow := hf.slow
    rw [hnow] at hslow
    have hpos : 0 < f.rest.delay :=
      Nat.pos_of_ne_zero fun h => hdue (by rw [h] at hslow; exact hslow)
    obtain ⟨t, rest, hrun, hsleep, hdelay⟩ := f.rest.run_slow f.context.token hwhole hpos
    refine .inr ⟨hlt, ⟨f.context, t, rest⟩, ?_, rfl, hf.deadline, Nat.le_of_lt hsleep, ?_⟩
    · simp only [poll, hlive, hf.deadline, Option.filter, hfired, decide_eq_false hdue,
        if_pos hwake, hrun, Status.of]
      rfl
    · rw [hdelay]
      exact hslow

end Delivery
