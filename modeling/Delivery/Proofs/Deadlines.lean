import Delivery.Proofs.Calls

/-!
# Deadlines only tighten

A context is given deadlines one after another, as a timeout from now on or as an instant
(`Tightening`). Whatever the order, and whenever it is done, the earliest instant stays, and with it
the time that was given by whoever asked for it first (`Tightening.Earliest`). An instant past the
end of time is not asked for at all.

* `Context.settled_tightenedBy` — any number of tightenings of a context without a deadline;
* `Tightening.deadline_apply` — one of them, of any context, and so the context of a call;
* `Context.reports_of_deadline` — what is told when the deadline ends a request.
-/

namespace Delivery

variable {σ β : Type}

/-- A deadline as it is asked for. -/
inductive Limit where
  /-- So much time from now on. -/
  | timeout (d : Duration)
  | instant (at_ : Instant)

/-- A deadline is asked for at an instant. -/
structure Tightening where
  now : Instant
  limit : Limit

namespace Tightening

/-- The instant that is asked for, if it can be told. -/
def instant? (t : Tightening) : Option Instant :=
  match t.limit with
  | .timeout d => if t.now + d < Context.endOfTime then some (t.now + d) else none
  | .instant at_ => some at_

/-- Sets the deadline. -/
def apply (t : Tightening) (c : Context) : Context :=
  match t.limit with
  | .timeout d => c.withTimeout t.now d
  | .instant at_ => c.withDeadline t.now at_

/-- A deadline is the earliest that was asked for, set by the first that asked for it. -/
def Earliest (ts : List Tightening) (d : Deadline) : Prop :=
  ∃ before t after, ts = before ++ t :: after ∧ t.instant? = some d.at_ ∧ t.now = d.setAt ∧
    (∀ s ∈ before, ∀ at_ ∈ s.instant?, d.at_ < at_) ∧
    ∀ s ∈ after, ∀ at_ ∈ s.instant?, d.at_ ≤ at_

end Tightening

/-- The context after some tightenings. -/
def Context.tightenedBy (c : Context) (ts : List Tightening) : Context :=
  ts.foldl (fun c t => t.apply c) c

/-- What a context tells when its deadline ends a request, before a call is made or while it is under
way: the time that was given. -/
structure Context.Reports (c : Context) (budget : Duration) : Prop where
  check {tokens : Tokens} {now : Instant} : tokens.state c.token = .live →
    (∃ d ∈ c.deadline, d.at_ ≤ now) → c.check tokens now = .error (.deadlineExceeded budget)
  poll {σ β : Type} {f : Flight σ β} {w : World σ} : f.context = c →
    w.tokens.state c.token = .live → f.expired w = true →
    (f.poll w).1 = .landed (.error (.deadlineExceeded budget))

/-! ## One deadline and another -/

namespace Context

variable {c : Context} {d e : Deadline}

theorem tighten_of_none (h : c.deadline = none) : c.tighten d = { c with deadline := some d } := by
  unfold tighten
  rw [h]

theorem tighten_of_le (h : c.deadline = some e) (hle : e.at_ ≤ d.at_) : c.tighten d = c := by
  unfold tighten
  rw [h]
  simp only [Deadline.earlier, if_pos hle]
  rw [← h]

theorem tighten_of_lt (h : c.deadline = some e) (hlt : d.at_ < e.at_) :
    c.tighten d = { c with deadline := some d } := by
  unfold tighten
  rw [h]
  simp only [Deadline.earlier, if_neg (Nat.not_le.2 hlt)]

/-- A deadline is there before, or it is the one that is set. -/
theorem deadline_of_tighten (h : (c.tighten d).deadline = some e) :
    e = d ∨ c.deadline = some e := by
  cases hc : c.deadline with
  | none =>
      rw [tighten_of_none hc] at h
      exact .inl (Option.some.inj h).symm
  | some old =>
      rcases Nat.lt_or_ge d.at_ old.at_ with hlt | hle
      · rw [tighten_of_lt hc hlt] at h
        exact .inl (Option.some.inj h).symm
      · rw [tighten_of_le hc hle, hc] at h
        exact .inr h

theorem reports_of_deadline (h : c.deadline = some d) : c.Reports d.budget where
  check {tokens now} hlive hcome := by
    obtain ⟨d', hd', hle⟩ := hcome
    obtain rfl : d' = d := by simpa [h] using hd'.symm
    unfold Context.check
    rw [hlive, h]
    exact if_pos hle
  poll {σ β f w} hcontext hlive hexpired := by
    have hfilter : (f.context.deadline.filter fun d => d.at_.dueTick ≤ w.now.ticks) = some d := by
      rw [hcontext, h, Option.filter_eq_some_iff]
      simpa [Flight.expired, hcontext, h] using hexpired
    unfold Flight.poll
    rw [hfilter, hcontext, hlive]
    rfl

end Context

/-! ## One tightening -/

namespace Tightening

variable {t : Tightening} {c : Context} {at_ : Instant}

theorem instant?_timeout_eq_some {now : Instant} {d : Duration} :
    (⟨now, .timeout d⟩ : Tightening).instant? = some at_ ↔
      now + d < Context.endOfTime ∧ now + d = at_ := by
  simp [instant?]

/-- What cannot be told is not set. -/
theorem apply_of_none (h : t.instant? = none) (c : Context) : t.apply c = c := by
  obtain ⟨now, limit⟩ := t
  cases limit with
  | timeout d =>
      have hend : ¬ now + d < Context.endOfTime := by simpa [instant?] using h
      exact if_neg hend
  | instant at_ => cases h

theorem apply_of_some (h : t.instant? = some at_) (c : Context) :
    t.apply c = c.tighten ⟨at_, t.now⟩ := by
  obtain ⟨now, limit⟩ := t
  cases limit with
  | timeout d =>
      obtain ⟨hend, rfl⟩ := instant?_timeout_eq_some.1 h
      exact if_pos hend
  | instant _ =>
      cases h
      rfl

/-- The deadline is the earlier one of that which is there and that which is asked for. -/
theorem deadline_apply (t : Tightening) (c : Context) : (t.apply c).deadline.map Deadline.at_ =
    ((c.deadline.map Deadline.at_).toList ++ t.instant?.toList).min? := by
  cases h : t.instant? with
  | none =>
      rw [apply_of_none h]
      cases c.deadline <;> rfl
  | some at_ =>
      rw [apply_of_some h]
      cases hd : c.deadline with
      | none =>
          rw [Context.tighten_of_none hd]
          rfl
      | some d =>
          show _ = some (min d.at_ at_)
          rcases Nat.lt_or_ge at_ d.at_ with hlt | hle
          · rw [Context.tighten_of_lt hd hlt, Nat.min_eq_right (Nat.le_of_lt hlt)]
            rfl
          · rw [Context.tighten_of_le hd hle, hd, Nat.min_eq_left hle]
            rfl

/-- No tightening moves a deadline to a later instant. -/
theorem exists_deadline_apply (t : Tightening) {d : Deadline} (hd : c.deadline = some d) :
    ∃ d', (t.apply c).deadline = some d' ∧ d'.at_ ≤ d.at_ := by
  cases h : t.instant? with
  | none => exact ⟨d, by rw [apply_of_none h, hd], Nat.le_refl _⟩
  | some at_ =>
      rw [apply_of_some h]
      rcases Nat.lt_or_ge at_ d.at_ with hlt | hle
      · exact ⟨_, congrArg Context.deadline (Context.tighten_of_lt hd hlt), Nat.le_of_lt hlt⟩
      · exact ⟨d, by rw [Context.tighten_of_le hd hle, hd], Nat.le_refl _⟩

/-! ## Any number of them -/

namespace Earliest

variable {ts : List Tightening} {d : Deadline}

/-- Nothing earlier was asked for. -/
theorem le (h : Earliest ts d) {s : Tightening} (hs : s ∈ ts) (hat : at_ ∈ s.instant?) :
    d.at_ ≤ at_ := by
  obtain ⟨before, t, after, rfl, ht, -, hbefore, hafter⟩ := h
  rcases List.mem_append.1 hs with hs | hs
  · exact Nat.le_of_lt (hbefore s hs at_ hat)
  · rcases List.mem_cons.1 hs with rfl | hs
    · rw [Option.mem_def, ht] at hat
      exact Nat.le_of_eq (Option.some.inj hat)
    · exact hafter s hs at_ hat

/-- The earliest instant is the minimum of those that were asked for. -/
theorem min?_eq (h : Earliest ts d) : (ts.filterMap instant?).min? = some d.at_ := by
  rw [List.min?_eq_some_iff]
  constructor
  · obtain ⟨before, t, after, rfl, ht, -⟩ := h
    exact List.mem_filterMap.2 ⟨t, by simp, ht⟩
  · intro at_ hat
    obtain ⟨s, hs, hsat⟩ := List.mem_filterMap.1 hat
    exact h.le hs hsat

/-- A later tightening that asks for nothing earlier leaves the deadline. -/
theorem concat (h : Earliest ts d) (ht : ∀ at_ ∈ t.instant?, d.at_ ≤ at_) :
    Earliest (ts ++ [t]) d := by
  obtain ⟨before, s, after, rfl, hs, hnow, hbefore, hafter⟩ := h
  refine ⟨before, s, after ++ [t], by simp, hs, hnow, hbefore, ?_⟩
  intro r hr
  rcases List.mem_append.1 hr with hr | hr
  · exact hafter r hr
  · rw [List.mem_singleton.1 hr]
    exact ht

/-- A tightening that asks for something earlier than all before it sets the deadline. -/
theorem last (ht : t.instant? = some at_) (hbefore : ∀ s ∈ ts, ∀ x ∈ s.instant?, at_ < x) :
    Earliest (ts ++ [t]) ⟨at_, t.now⟩ :=
  ⟨ts, t, [], rfl, ht, rfl, hbefore, by simp⟩

end Earliest

end Tightening

namespace Context

variable {c : Context} {ts : List Tightening}

/-- The deadline of a context is the earliest that was asked for, and there is none if none was. -/
def Settled (c : Context) (ts : List Tightening) : Prop :=
  match c.deadline with
  | none => ∀ t ∈ ts, t.instant? = none
  | some d => Tightening.Earliest ts d

theorem Settled.none (h : c.Settled ts) (hd : c.deadline = none) : ∀ t ∈ ts, t.instant? = none := by
  unfold Settled at h
  rwa [hd] at h

theorem Settled.some {d : Deadline} (h : c.Settled ts) (hd : c.deadline = some d) :
    Tightening.Earliest ts d := by
  unfold Settled at h
  rwa [hd] at h

/-- One more tightening leaves the earliest deadline. -/
theorem Settled.apply (h : c.Settled ts) (t : Tightening) : (t.apply c).Settled (ts ++ [t]) := by
  cases ht : t.instant? with
  | none =>
      rw [Tightening.apply_of_none ht]
      unfold Settled
      cases hd : c.deadline with
      | none =>
          intro s hs
          rcases List.mem_append.1 hs with hs | hs
          · exact h.none hd s hs
          · rw [List.mem_singleton.1 hs, ht]
      | some d => exact (h.some hd).concat (by simp [ht])
  | some at_ =>
      rw [Tightening.apply_of_some ht]
      cases hd : c.deadline with
      | none =>
          rw [tighten_of_none hd]
          refine Tightening.Earliest.last ht ?_
          intro s hs x hx
          rw [h.none hd s hs] at hx
          cases hx
      | some d =>
          have hfirst := h.some hd
          rcases Nat.lt_or_ge at_ d.at_ with hlt | hle
          · rw [tighten_of_lt hd hlt]
            exact Tightening.Earliest.last ht fun s hs x hx =>
              Nat.lt_of_lt_of_le hlt (hfirst.le hs hx)
          · rw [tighten_of_le hd hle]
            unfold Settled
            rw [hd]
            exact hfirst.concat (by simp [ht, hle])

theorem Settled.tightenedBy (h : c.Settled ts) (more : List Tightening) :
    (c.tightenedBy more).Settled (ts ++ more) := by
  induction more generalizing c ts with
  | nil =>
      rw [List.append_nil]
      exact h
  | cons t rest ih =>
      rw [List.append_cons]
      exact ih (h.apply t)

/-- **Deadlines only tighten.** A context that begins without a deadline has the earliest that was
asked for, set by the first that asked for it. -/
theorem settled_tightenedBy (token : TokenId) (ts : List Tightening) :
    ((⟨token, none⟩ : Context).tightenedBy ts).Settled ts := by
  have hfresh : (⟨token, none⟩ : Context).Settled [] := by simp [Settled]
  exact hfresh.tightenedBy ts

/-- The minimum of what was asked for. -/
theorem Settled.deadline_eq (h : c.Settled ts) :
    c.deadline.map Deadline.at_ = (ts.filterMap Tightening.instant?).min? := by
  cases hd : c.deadline with
  | some d => exact (h.some hd).min?_eq.symm
  | none =>
      have hnil : ts.filterMap Tightening.instant? = [] := by simpa using h.none hd
      rw [hnil]
      rfl

end Context

/-! ## The context of a call -/

namespace Service

variable {s : Service σ} {context : Context} {now : Instant} {timeout : Duration}

theorem callContext_of_none (h : s.config.callTimeout = none) (context : Context) (now : Instant) :
    s.callContext context now = context := by
  unfold callContext
  rw [h]

theorem callContext_of_some (h : s.config.callTimeout = some timeout) (context : Context)
    (now : Instant) :
    s.callContext context now = (⟨now, .timeout timeout⟩ : Tightening).apply context := by
  unfold callContext
  rw [h]
  rfl

/-- While the caller's context is good and calls are given any time at all, so is the context of a
call that begins now. -/
theorem check_callContext {w : World σ} (h : context.check w.tokens w.now = .ok ())
    (ht : s.config.callTimeout ≠ some 0) :
    (s.callContext context w.now).check w.tokens w.now = .ok () := by
  obtain ⟨hlive, hahead⟩ := Context.check_eq_ok.1 h
  refine Context.check_eq_ok.2 ⟨by rw [s.callContext_token, hlive], ?_⟩
  intro d hd
  cases htimeout : s.config.callTimeout with
  | none =>
      rw [callContext_of_none htimeout] at hd
      exact hahead d hd
  | some timeout =>
      have hpos : 0 < timeout := Nat.pos_of_ne_zero fun h0 => ht (by rw [htimeout, h0])
      rw [callContext_of_some htimeout] at hd
      cases hat : (⟨w.now, .timeout timeout⟩ : Tightening).instant? with
      | none =>
          rw [Tightening.apply_of_none hat] at hd
          exact hahead d hd
      | some at_ =>
          obtain ⟨-, rfl⟩ := Tightening.instant?_timeout_eq_some.1 hat
          rw [Tightening.apply_of_some hat] at hd
          rcases Context.deadline_of_tighten hd with rfl | hd
          · exact Nat.lt_add_of_pos_right hpos
          · exact hahead d hd

/-- A call has the time until the caller's deadline, or the timeout, whichever is over first. -/
theorem deadline_callContext_eq (s : Service σ) (context : Context) (now : Instant) :
    (s.callContext context now).deadline.map Deadline.at_ =
      ((context.deadline.map Deadline.at_).toList ++ (s.config.callTimeout.bind fun timeout =>
        (⟨now, .timeout timeout⟩ : Tightening).instant?).toList).min? := by
  cases h : s.config.callTimeout with
  | none =>
      rw [callContext_of_none h]
      cases context.deadline <;> rfl
  | some timeout =>
      rw [callContext_of_some h]
      exact Tightening.deadline_apply _ _

/-- A call whose timeout is not over before the caller's deadline has the caller's context. -/
theorem callContext_eq_of_le {d : Deadline} (hd : context.deadline = some d)
    (hle : ∀ timeout ∈ s.config.callTimeout, d.at_ ≤ now + timeout) :
    s.callContext context now = context := by
  cases h : s.config.callTimeout with
  | none => exact callContext_of_none h context now
  | some timeout =>
      rw [callContext_of_some h]
      cases hat : (⟨now, .timeout timeout⟩ : Tightening).instant? with
      | none => exact Tightening.apply_of_none hat context
      | some at_ =>
          obtain ⟨-, rfl⟩ := Tightening.instant?_timeout_eq_some.1 hat
          rw [Tightening.apply_of_some hat, Context.tighten_of_le hd (hle timeout h)]

/-- A caller's deadline that is not later than that of the timeout tells its own budget. -/
theorem reports_caller (h : s.config.callTimeout = some timeout) {d : Deadline}
    (hd : context.deadline = some d) (hle : d.at_ ≤ now + timeout) :
    (s.callContext context now).Reports d.budget := by
  rw [callContext_eq_of_le hd (by simpa [h] using hle)]
  exact Context.reports_of_deadline hd

/-- No call is given more time than the caller has. -/
theorem exists_deadline_callContext (s : Service σ) {d : Deadline}
    (hd : context.deadline = some d) (now : Instant) :
    ∃ d', (s.callContext context now).deadline = some d' ∧ d'.at_ ≤ d.at_ := by
  cases h : s.config.callTimeout with
  | none => exact ⟨d, by rw [callContext_of_none h, hd], Nat.le_refl _⟩
  | some timeout =>
      rw [callContext_of_some h]
      exact Tightening.exists_deadline_apply _ hd

/-- Else the timeout itself is told. -/
theorem reports_timeout (h : s.config.callTimeout = some timeout)
    (hend : now + timeout < Context.endOfTime)
    (hlater : ∀ d ∈ context.deadline, now + timeout < d.at_) :
    (s.callContext context now).Reports timeout := by
  have hat : (⟨now, .timeout timeout⟩ : Tightening).instant? = some (now + timeout) := if_pos hend
  have hbudget : (⟨now + timeout, now⟩ : Deadline).budget = timeout := Nat.add_sub_cancel_left ..
  rw [← hbudget]
  refine Context.reports_of_deadline ?_
  rw [callContext_of_some h, Tightening.apply_of_some hat]
  cases hd : context.deadline with
  | none => rw [Context.tighten_of_none hd]
  | some d => rw [Context.tighten_of_lt hd (hlater d hd)]

end Service

/-! ## Whole histories -/

/-- **Deadlines only tighten, and tell the time that was given.** Of a context that began without a
deadline, the deadline is the earliest instant that was asked for, and when it ends a request, what
is told is the time that was left when that instant was asked for first. What cannot be told is not
set, and no tightening moves a deadline to a later instant.

So a call has the caller's token, and the caller's deadline or that of the configured timeout,
whichever comes first. What its expiry tells is the caller's budget if the caller's deadline is not
the later one, and else exactly the timeout. -/
theorem deadlines_tighten :
    (∀ (token : TokenId) (ts : List Tightening),
      let c := (⟨token, none⟩ : Context).tightenedBy ts
      let asked := ts.filterMap Tightening.instant?
      c.deadline.map Deadline.at_ = asked.min? ∧
      ∀ m ∈ asked.min?, ∃ before t after, ts = before ++ t :: after ∧ t.instant? = some m ∧
        (∀ s ∈ before, s.instant? ≠ some m) ∧ c.Reports (m - t.now)) ∧
    (∀ (t : Tightening) (c : Context), (t.instant? = none → t.apply c = c) ∧
      ∀ d ∈ c.deadline, ∃ d' ∈ (t.apply c).deadline, d'.at_ ≤ d.at_) ∧
    ∀ (s : Service σ) (context : Context) (now : Instant),
      let call := s.callContext context now
      call.token = context.token ∧
      call.deadline.map Deadline.at_ =
        ((context.deadline.map Deadline.at_).toList ++ (s.config.callTimeout.bind fun timeout =>
          (⟨now, .timeout timeout⟩ : Tightening).instant?).toList).min? ∧
      (s.config.callTimeout = none → call = context) ∧
      ∀ timeout ∈ s.config.callTimeout,
        (∀ d ∈ context.deadline, d.at_ ≤ now + timeout → call.Reports d.budget) ∧
        ((∀ d ∈ context.deadline, now + timeout < d.at_) →
          now + timeout < Context.endOfTime → call.Reports timeout) := by
  refine ⟨?_, ?_, ?_⟩
  · intro token ts c asked
    have hsettled := Context.settled_tightenedBy token ts
    refine ⟨hsettled.deadline_eq, ?_⟩
    intro m hm
    obtain ⟨d, hd, rfl⟩ := Option.map_eq_some_iff.1 (hsettled.deadline_eq.trans hm)
    obtain ⟨before, t, after, hts, ht, hnow, hbefore, -⟩ := hsettled.some hd
    refine ⟨before, t, after, hts, ht, ?_, ?_⟩
    · intro s hs hsm
      exact Nat.lt_irrefl _ (hbefore s hs _ hsm)
    · rw [hnow]
      exact Context.reports_of_deadline hd
  · intro t c
    exact ⟨fun ht => Tightening.apply_of_none ht c, fun d hd => t.exists_deadline_apply hd⟩
  · intro s context now call
    refine ⟨s.callContext_token context now, s.deadline_callContext_eq context now, ?_, ?_⟩
    · exact fun h => Service.callContext_of_none h context now
    · intro timeout htimeout
      exact ⟨fun d hd hle => Service.reports_caller htimeout hd hle,
        fun hlater hend => Service.reports_timeout htimeout hend hlater⟩

/-- Of two who ask for one instant, the first has set the deadline. -/
example : ((⟨0, none⟩ : Context).tightenedBy
    [⟨5, .instant 30⟩, ⟨10, .timeout 10⟩, ⟨15, .instant 20⟩]).deadline = some ⟨20, 10⟩ := by decide

end Delivery
