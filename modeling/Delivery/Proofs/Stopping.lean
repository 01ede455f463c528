import Mathlib.Data.List.Forall2
import Delivery.Proofs.Courses
import Delivery.Proofs.Deadlines

/-!
# Stopping an operation

Once the caller's token is cancelled, or the caller's deadline has passed, nothing begins any more.
A call that waits is abandoned when it is looked at, and a call that is due is not started; both
fail, each with the failure of its context (`Stop.Fails`), whatever the collaborators would have
answered. So what becomes of an operation is settled by where it is when it is stopped
(`Course.ComesTo`): a plan goes on as if every request of it failed, and writes that were completed
keep their outcomes.
-/

namespace Delivery

variable {σ α β : Type}

/-- What stops an operation: its first cancellation, or its deadline. -/
inductive Stop where
  | cancelled (reason : String)
  | expired (d : Deadline)

namespace Stop

/-- The operation is stopped in a world. Timers work in whole milliseconds, so a deadline stops an
operation for certain when it is one. -/
def Holds (context : Context) (w : World σ) : Stop → Prop
  | cancelled reason => w.tokens.state context.token = .cancelled reason
  | expired d => context.deadline = some d ∧ d.at_ % Duration.millisecond = 0 ∧ d.at_ ≤ w.now

/-- The failure of a call that was made, or is due, with some deadline: the reason of the
cancellation; or the expiry of that deadline, unless the operation is cancelled as well before it
ends. -/
def Fails (context : Context) (deadline : Option Deadline) (last : World σ) (e : StoreError) :
    Stop → Prop
  | cancelled reason => e = .cancelled reason
  | expired _ => (∃ d ∈ deadline, e = d.error) ∨
      ∃ reason, last.tokens.state context.token = .cancelled reason ∧ e = .cancelled reason

variable {stop : Stop} {s : Service σ} {context : Context} {w w' last : World σ}

theorem Holds.after (h : stop.Holds context w) (hw : w.After w') : stop.Holds context w' := by
  cases stop with
  | cancelled reason => exact hw.cancelled _ _ h
  | expired d => exact ⟨h.1, h.2.1, Nat.le_trans h.2.2 hw.now⟩

end Stop

/-! ## Calls -/

/-- A deadline that has passed is not replaced by that of a call. -/
theorem Service.deadline_callContext (s : Service σ) {context : Context} {d : Deadline}
    {now : Instant} (hd : context.deadline = some d) (hle : d.at_ ≤ now) :
    (s.callContext context now).deadline = some d := by
  rw [callContext_eq_of_le hd fun timeout _ => Nat.le_trans hle (Nat.le_add_right _ _), hd]

/-- Timers for instants up to a whole millisecond have fired when that has come. -/
theorem Instant.dueTick_le {t u now : Nat} (hle : t ≤ u) (hu : u % Duration.millisecond = 0)
    (hnow : u ≤ now) : Instant.dueTick t ≤ Instant.ticks now := by
  have hms : Duration.millisecond = 1000000 := rfl
  simp only [Instant.dueTick, Instant.ticks]
  rw [hms] at hu ⊢
  by_cases hz : t % 1000000 = 0
  · rw [if_pos hz]
    omega
  · rw [if_neg hz]
    omega

namespace Stop

variable {stop : Stop} {s : Service σ} {context : Context} {w w' last : World σ}

/-- A call that is due is not started. -/
theorem Holds.check (h : stop.Holds context w) :
    ∃ e, (s.callContext context w.now).check w.tokens w.now = .error e ∧
      ∀ last : World σ, w.After last → stop.Fails context context.deadline last e := by
  unfold Context.check
  rw [s.callContext_token]
  cases hstate : w.tokens.state context.token with
  | cancelled reason =>
      refine ⟨_, rfl, fun last hafter => ?_⟩
      cases stop with
      | cancelled reason' =>
          rw [show w.tokens.state context.token = _ from h] at hstate
          cases hstate
          exact rfl
      | expired d => exact .inr ⟨reason, hafter.cancelled _ _ hstate, rfl⟩
  | live =>
      cases stop with
      | cancelled reason' =>
          rw [show w.tokens.state context.token = _ from h] at hstate
          cases hstate
      | expired d =>
          obtain ⟨hd, -, hle⟩ := h
          rw [s.deadline_callContext hd hle]
          exact ⟨d.error, by simp [hle], fun last _ => .inl ⟨d, hd, rfl⟩⟩

theorem Holds.start (h : stop.Holds context w)
    (begin_ : World σ → Call σ (Except StoreError β) × World σ) :
    ∃ e, w.start (s.callContext context w.now) begin_ = (.landed (.error e), w) ∧
      ∀ last : World σ, w.After last → stop.Fails context context.deadline last e := by
  obtain ⟨e, hcheck, hfails⟩ := h.check (s := s)
  refine ⟨e, ?_, hfails⟩
  unfold World.start
  rw [hcheck]

/-- A call that waits is abandoned. -/
theorem Holds.poll (h : stop.Holds context w) {f : Flight σ β}
    (hf : Course.OwnFlight s context f) :
    ∃ e, f.poll w = (.landed (.error e), { w with running := w.running - 1 }) ∧
      ∀ last : World σ, w.After last →
        stop.Fails context f.context.deadline last e := by
  obtain ⟨t, hcontext⟩ := hf
  have htoken : f.context.token = context.token := by rw [hcontext, s.callContext_token]
  unfold Flight.poll
  rw [htoken]
  cases hstate : w.tokens.state context.token with
  | cancelled reason =>
      refine ⟨_, rfl, fun last hafter => ?_⟩
      cases stop with
      | cancelled reason' =>
          rw [show w.tokens.state context.token = _ from h] at hstate
          cases hstate
          exact rfl
      | expired d => exact .inr ⟨reason, hafter.cancelled _ _ hstate, rfl⟩
  | live =>
      cases stop with
      | cancelled reason' =>
          rw [show w.tokens.state context.token = _ from h] at hstate
          cases hstate
      | expired d =>
          obtain ⟨hd, hwhole, hle⟩ := h
          obtain ⟨d', hd', hle'⟩ := s.exists_deadline_callContext hd t
          have hdue : d'.at_.dueTick ≤ w.now.ticks := Instant.dueTick_le hle' hwhole hle
          rw [hcontext, hd']
          exact ⟨d'.error, by simp [Option.filter, hdue], fun last _ => .inl ⟨d', rfl, rfl⟩⟩

end Stop

/-! ## Writes -/

/-- What a write comes to after a stop: its outcome, if it had one, and else the failure of its
context. -/
def Slot.EndsAs (stop : Stop) (context : Context) (last : World σ) :
    Slot σ Promotion Unit → Promotion × WriteOutcome → Prop
  | fresh p, o => o.1 = p ∧ ∃ e, stop.Fails context context.deadline last e ∧ o.2 = .error e
  | flying p f, o => o.1 = p ∧ ∃ e, stop.Fails context f.context.deadline last e ∧ o.2 = .error e
  | landed p outcome, o => o = (p, outcome)

theorem Stop.Holds.advance {stop : Stop} {s : Service σ} {context : Context} {w w' : World σ}
    {a b : Slot σ Promotion Unit} (h : stop.Holds context w)
    (ha : a.Flies fun _ f => Course.OwnFlight s context f)
    (hadv : a.advance (s.startWrite context) w = some (b, w')) :
    w'.calls = w.calls ∧ ∀ last : World σ, w.After last → ∀ o, b.EndsAs stop context last o →
      a.EndsAs stop context last o := by
  cases a with
  | fresh p =>
      obtain ⟨e, hstart, hfails⟩ :=
        h.start (s := s) (s.begin (s.callContext context w.now) (.create p))
      have hadv : some (Slot.ofStatus p (s.startWrite context p w).1,
        (s.startWrite context p w).2) = some (b, w') := hadv
      unfold Service.startWrite at hadv
      rw [hstart] at hadv
      cases hadv
      refine ⟨rfl, ?_⟩
      rintro last hafter o rfl
      exact ⟨rfl, e, hfails last hafter, rfl⟩
  | flying p f =>
      obtain ⟨e, hpoll, hfails⟩ := h.poll (s := s) ha
      simp only [Slot.advance] at hadv
      split at hadv
      · rw [hpoll] at hadv
        cases hadv
        refine ⟨rfl, ?_⟩
        rintro last hafter o rfl
        exact ⟨rfl, e, hfails last hafter, rfl⟩
      · cases hadv
  | landed p outcome => cases hadv

/-- Lists that differ in one place are related to the same, if they are in that place. -/
theorem forall₂_of_one {R : α → β → Prop} {pre post : List α} {a b : α} {l : List β}
    (h : List.Forall₂ R (pre ++ b :: post) l) (hab : ∀ x, R b x → R a x) :
    List.Forall₂ R (pre ++ a :: post) l := by
  induction pre generalizing l with
  | nil =>
      cases h with
      | cons hb hpost => exact .cons (hab _ hb) hpost
  | cons c pre ih =>
      cases h with
      | cons hc hrest => exact .cons hc (ih hrest)

/-- A moment after a stop starts no call, and every write comes to what it would have come to. -/
theorem Stop.Holds.moment {stop : Stop} {s : Service σ} {context : Context}
    {m m' : Moment σ Promotion Unit} (h : stop.Holds context m.world)
    (hm : ∀ a ∈ m.line, a.Flies fun _ f => Course.OwnFlight s context f)
    (hnext : Moment.Next (s.startWrite context) m m') :
    m'.world.calls = m.world.calls ∧ ∀ last : World σ, m.world.After last →
      ∀ os, List.Forall₂ (Slot.EndsAs stop context last) m'.line os →
        List.Forall₂ (Slot.EndsAs stop context last) m.line os := by
  rcases hnext.line_cases with ⟨hline, hwaits, -⟩ | ⟨pre, a, post, b, hline, hline', hadv, -, -⟩
  · rw [hline]
    exact ⟨hwaits.calls, fun _ _ _ hos => hos⟩
  · rw [hline] at hm ⊢
    rw [hline']
    obtain ⟨hcalls, hends⟩ := h.advance (hm a (by simp)) hadv
    refine ⟨hcalls, ?_⟩
    intro last hafter os hos
    exact forall₂_of_one hos (hends last hafter)

/-! ## Courses -/

/-- What may become of a plan all requests of which fail in a certain way. -/
def Plan.ComesTo (E : StoreError → Prop) (a : α) : Plan α → Prop
  | .done b => b = a
  | .note _ next => next.ComesTo E a
  | .call _ next => ∃ e, E e ∧ (next (.error e)).ComesTo E a
  | .build stage freight next => ∃ stamp, (next (.build stage freight stamp)).ComesTo E a
  | .writes promotions next => ∃ os, List.Forall₂
      (fun p o => o.1 = p ∧ ∃ e, E e ∧ o.2 = .error e) promotions os ∧ (next os).ComesTo E a

namespace Course

/-- What may become of an operation that is stopped where it is. -/
def ComesTo (stop : Stop) (context : Context) (last : World σ) (a : α) : Course σ α → Prop
  | plan p _ => p.ComesTo (fun e => stop.Fails context context.deadline last e) a
  | call _ f next _ => ∃ e, stop.Fails context f.context.deadline last e ∧
      (next (.error e)).ComesTo (fun e => stop.Fails context context.deadline last e) a
  | writes m next => ∃ os, List.Forall₂ (Slot.EndsAs stop context last) m.line os ∧
      (next os).ComesTo (fun e => stop.Fails context context.deadline last e) a

variable {stop : Stop} {s : Service σ} {context : Context} {c c' : Course σ α}

/-- **One step after a stop.** No call is started, and whatever the operation comes to afterwards
is what it was bound to come to. -/
theorem Next.stopped (h : Next s context c c') (hstop : stop.Holds context c.world)
    (hown : c.Own s context) :
    c'.world.calls = c.world.calls ∧ ∀ last : World σ, c'.world.After last → ∀ a,
      c'.ComesTo stop context last a → c.ComesTo stop context last a := by
  have hbefore := h.after
  cases h with
  | @note n next w =>
      obtain ⟨logs, sink, hnoted⟩ := s.noted_take n w
      refine ⟨?_, fun _ _ _ hends => hends⟩
      show (s.take n w).calls = w.calls
      rw [hnoted]
  | build => exact ⟨rfl, fun _ _ _ hends => ⟨_, hends⟩⟩
  | @start r next w =>
      obtain ⟨e, hstart, hfails⟩ :=
        hstop.start (s := s) (s.begin (s.callContext context w.now) r)
      rw [show w.start (s.callContext context w.now) (s.begin (s.callContext context w.now) r) = _
        from hstart]
      exact ⟨rfl, fun last hafter _ hends => ⟨e, hfails last hafter, hends⟩⟩
  | @look r f next w =>
      obtain ⟨e, hpoll, hfails⟩ := hstop.poll hown
      rw [show f.poll w = _ from hpoll] at hbefore ⊢
      exact ⟨rfl, fun last hafter _ hends => ⟨e, hfails last (hbefore.trans hafter), hends⟩⟩
  | @enter ps next w =>
      refine ⟨rfl, fun last _ _ hends => ?_⟩
      obtain ⟨os, hos, hends⟩ := hends
      rw [Moment.line_mk, List.forall₂_map_left_iff] at hos
      exact ⟨os, hos, hends⟩
  | moment hnext =>
      obtain ⟨hcalls, hline⟩ := hstop.moment hown hnext
      refine ⟨hcalls, fun last hafter _ hends => ?_⟩
      obtain ⟨os, hos, hends⟩ := hends
      exact ⟨os, hline last (hbefore.trans hafter) os hos, hends⟩
  | @leave taken limit w next =>
      refine ⟨rfl, fun last _ _ hends => ⟨taken, ?_, hends⟩⟩
      rw [Moment.line_done, List.forall₂_map_left_iff]
      exact List.forall₂_same.2 fun _ _ => rfl
  | @meanwhile c w hwaits =>
      refine ⟨?_, fun _ _ _ hends => ?_⟩
      · rw [world_within]
        exact hwaits.calls
      · cases c <;> exact hends

/-- **No call is started after a stop.** -/
theorem Reaches.stopped_calls (h : Reaches s context c c') (hstop : stop.Holds context c.world)
    (hown : c.Own s context) : c'.world.calls = c.world.calls := by
  have hkept : stop.Holds context c'.world ∧ c'.Own s context ∧
      c'.world.calls = c.world.calls := by
    refine h.keeps (I := fun c' => stop.Holds context c'.world ∧ c'.Own s context ∧
      c'.world.calls = c.world.calls) ?_ ⟨hstop, hown, rfl⟩
    rintro d d' hnext ⟨hstop, hown, hcalls⟩
    exact ⟨hstop.after hnext.after, hnext.own hown, (hnext.stopped hstop hown).1.trans hcalls⟩
  exact hkept.2.2

/-- **Where an operation is stopped decides its end.** -/
theorem Reaches.stopped_end {a : α} {w : World σ} (h : Reaches s context c (plan (.done a) w))
    (hstop : stop.Holds context c.world) (hown : c.Own s context) :
    c.ComesTo stop context w a := by
  induction h using Relation.ReflTransGen.head_induction_on with
  | refl => exact rfl
  | @head d d' hnext hrest ih =>
      have hends := ih (hstop.after hnext.after) (hnext.own hown)
      have hafter : d'.world.After w := Reaches.after hrest
      exact (hnext.stopped hstop hown).2 w hafter a hends

end Course

end Delivery
