import Delivery.Proofs.Operations

/-!
# The course of an operation

`Plan.run` tells what becomes of a plan that nobody interferes with. Here the same is told step by
step: an operation is between two steps of its plan, waits for a call, or is at a moment of its
writes (`Course`), and at any time cancellations may come and the clock may move on
(`Course.Next.meanwhile`), whoever is behind that.

* `Course.reaches_run` — the run of a plan is one of its courses;
* `Course.exists_end` — wherever an operation is, it can still come to an end;
* `Course.Reaches.of_bind` — the course of two plans, one after the other;
* `Course.Next.after`, `Course.Own` — what every step keeps.
-/

namespace Delivery

variable {σ α β : Type}

/-- Where an operation is. -/
inductive Course (σ α : Type) where
  /-- Between two steps of its plan. -/
  | plan (p : Plan α) (w : World σ)
  /-- In a call that waits. -/
  | call (r : Request) (f : Flight σ r.Answer) (next : Except StoreError r.Answer → Plan α)
      (w : World σ)
  /-- At a moment of its writes. -/
  | writes (m : Moment σ Promotion Unit) (next : List (Promotion × WriteOutcome) → Plan α)

namespace Course

/-- The world there. -/
def world : Course σ α → World σ
  | plan _ w | call _ _ _ w => w
  | writes m _ => m.world

/-- The same place in another world. -/
def within (w : World σ) : Course σ α → Course σ α
  | plan p _ => plan p w
  | call r f next _ => call r f next w
  | writes m next => writes { m with world := w } next

/-- What follows when a call was looked at. -/
def looked (r : Request) (next : Except StoreError r.Answer → Plan α) :
    Status σ r.Answer × World σ → Course σ α
  | (.landed a, w) => plan (next a) w
  | (.flying f, w) => call r f next w

/-- One step of an operation, or of the world around it. -/
inductive Next (s : Service σ) (context : Context) : Course σ α → Course σ α → Prop
  | note {n next w} : Next s context (plan (.note n next) w) (plan next (s.take n w))
  | build {stage freight next w} : Next s context (plan (.build stage freight next) w)
      (plan (next (.build stage freight (s.stamps w.built))) { w with built := w.built + 1 })
  | start {r next w} : Next s context (plan (.call r next) w)
      (looked r next (w.start (s.callContext context w.now)
        (s.begin (s.callContext context w.now) r)))
  | look {r f next w} : Next s context (call r f next w) (looked r next (f.poll w))
  | enter {ps next w} : Next s context (plan (.writes ps next) w)
      (writes ⟨[], ⟨s.config.maxConcurrentWrites, ps, []⟩, w⟩ next)
  | moment {m m' next} : Moment.Next (s.startWrite context) m m' →
      Next s context (writes m next) (writes m' next)
  | leave {taken limit w next} : Next s context (writes ⟨taken, ⟨limit, [], []⟩, w⟩ next)
      (plan (next taken) w)
  | meanwhile {c w} : c.world.Waits w → Next s context c (c.within w)

/-- Any number of steps later. -/
def Reaches (s : Service σ) (context : Context) : Course σ α → Course σ α → Prop :=
  Relation.ReflTransGen (Next s context)

variable {s : Service σ} {context : Context} {c c' : Course σ α}

@[simp] theorem world_within (c : Course σ α) (w : World σ) : (c.within w).world = w := by
  cases c <;> rfl

@[simp] theorem within_world (c : Course σ α) : c.within c.world = c := by
  cases c <;> rfl

theorem world_looked (r : Request) (next : Except StoreError r.Answer → Plan α)
    (p : Status σ r.Answer × World σ) : (looked r next p).world = p.2 := by
  obtain ⟨status, w⟩ := p
  cases status <;> rfl

/-- What every step keeps holds wherever an operation gets. -/
theorem Reaches.keeps {I : Course σ α → Prop} (h : Reaches s context c c')
    (hstep : ∀ c c', Next s context c c' → I c → I c') (hc : I c) : I c' := by
  induction h with
  | refl => exact hc
  | tail _ hnext ih => exact hstep _ _ hnext ih

/-! ## The run is a course -/

/-- A call that waits is looked at until it is over. -/
theorem reaches_land (s : Service σ) (context : Context) (r : Request) (f : Flight σ r.Answer)
    (next : Except StoreError r.Answer → Plan α) (w : World σ) :
    Reaches s context (call r f next w) (plan (next (f.land w).1) (f.land w).2) := by
  have wait (f : Flight σ r.Answer) (w : World σ) :
      Next s context (call r f next w) (call r f next (f.wait w)) := .meanwhile (f.waits_wait w)
  have look {f : Flight σ r.Answer} {w : World σ} {status : Status σ r.Answer} {w' : World σ}
      (h : f.poll w = (status, w')) :
      Next s context (call r f next w) (looked r next (status, w')) := by
    rw [← h]
    exact .look
  fun_induction Flight.land f w with
  | case1 f w result w' hpoll => exact .head (wait f w) (.single (look hpoll))
  | case2 f w g w' hpoll ih => exact .head (wait f w) (.head (look hpoll) ih)

theorem reaches_moment {m m' : Moment σ Promotion Unit}
    (h : Moment.Reaches (s.startWrite context) m m')
    (next : List (Promotion × WriteOutcome) → Plan α) :
    Reaches s context (writes m next) (writes m' next) := by
  induction h with
  | refl => exact .refl
  | tail _ hnext ih => exact .tail ih (.moment hnext)

/-- The writes that are left are done, and then the plan goes on. -/
theorem reaches_writes (s : Service σ) (context : Context) (m : Moment σ Promotion Unit)
    (next : List (Promotion × WriteOutcome) → Plan α) :
    Reaches s context (writes m next)
      (plan (next (m.taken ++ (m.window.run (s.startWrite context) m.world).1))
        (m.window.run (s.startWrite context) m.world).2) :=
  .tail (reaches_moment (Moment.reaches_run _ m.window m.world m.taken) next) .leave

/-- **The run of a plan is a course.** -/
theorem reaches_run (s : Service σ) (context : Context) (p : Plan α) (w : World σ) :
    Reaches s context (plan p w)
      (plan (.done (p.run s context w).1) (p.run s context w).2) := by
  induction p generalizing w with
  | done a => exact .refl
  | note n next ih => exact .head .note (ih _)
  | build stage freight next ih => exact .head .build (ih _ _)
  | call r next ih =>
      refine .head .start ?_
      have hcall : s.call context r w = w.call (s.callContext context w.now)
          (s.begin (s.callContext context w.now) r) := rfl
      simp only [Plan.run, hcall, World.call]
      rcases w.start (s.callContext context w.now) (s.begin (s.callContext context w.now) r) with
        ⟨a | f, v⟩
      · exact ih a v
      · exact (reaches_land s context r f next v).trans (ih _ _)
  | writes ps next ih =>
      exact .head .enter ((reaches_writes s context _ next).trans (ih _ _))

/-- Wherever an operation is, it can go on to an end. -/
theorem exists_end (s : Service σ) (context : Context) (c : Course σ α) :
    ∃ a w, Reaches s context c (plan (.done a) w) := by
  cases c with
  | plan p w => exact ⟨_, _, reaches_run s context p w⟩
  | call r f next w =>
      exact ⟨_, _, (reaches_land s context r f next w).trans (reaches_run s context _ _)⟩
  | writes m next =>
      exact ⟨_, _, (reaches_writes s context m next).trans (reaches_run s context _ _)⟩

/-! ## Plans that go on with another -/

/-- The same place in a plan that goes on with another. -/
def bind (c : Course σ α) (k : α → Plan β) : Course σ β :=
  match c with
  | plan p w => plan (p.bind k) w
  | call r f next w => call r f (fun a => (next a).bind k) w
  | writes m next => writes m fun os => (next os).bind k

theorem bind_looked (r : Request) (next : Except StoreError r.Answer → Plan α)
    (p : Status σ r.Answer × World σ) (k : α → Plan β) :
    looked r (fun a => (next a).bind k) p = (looked r next p).bind k := by
  obtain ⟨status, w⟩ := p
  cases status <;> rfl

/-- A step is one of the first plan, unless that is done. -/
theorem Next.of_bind {k : α → Plan β} {d : Course σ β} (h : Next s context (c.bind k) d)
    (hdone : ∀ a w, c ≠ plan (.done a) w) : ∃ c', Next s context c c' ∧ d = c'.bind k := by
  cases c with
  | plan p w =>
      cases p with
      | done a => exact absurd rfl (hdone a w)
      | note n next =>
          have h : Next s context (plan (.note n (next.bind k)) w) d := h
          cases h with
          | note => exact ⟨_, .note, rfl⟩
          | meanwhile hw => exact ⟨_, .meanwhile hw, rfl⟩
      | call r next =>
          have h : Next s context (plan (.call r fun a => (next a).bind k) w) d := h
          cases h with
          | start => exact ⟨_, .start, bind_looked r next _ k⟩
          | meanwhile hw => exact ⟨_, .meanwhile hw, rfl⟩
      | build stage freight next =>
          have h : Next s context (plan (.build stage freight fun p => (next p).bind k) w) d := h
          cases h with
          | build => exact ⟨_, .build, rfl⟩
          | meanwhile hw => exact ⟨_, .meanwhile hw, rfl⟩
      | writes ps next =>
          have h : Next s context (plan (.writes ps fun os => (next os).bind k) w) d := h
          cases h with
          | enter => exact ⟨_, .enter, rfl⟩
          | meanwhile hw => exact ⟨_, .meanwhile hw, rfl⟩
  | call r f next w =>
      have h : Next s context (call r f (fun a => (next a).bind k) w) d := h
      cases h with
      | look => exact ⟨_, .look, bind_looked r next _ k⟩
      | meanwhile hw => exact ⟨_, .meanwhile hw, rfl⟩
  | writes m next =>
      have h : Next s context (writes m fun os => (next os).bind k) d := h
      cases h with
      | moment hnext => exact ⟨_, .moment hnext, rfl⟩
      | leave => exact ⟨_, .leave, rfl⟩
      | meanwhile hw => exact ⟨_, .meanwhile hw, rfl⟩

/-- **The course of a plan that goes on with another** is that of the first one, followed by that
of the second. -/
theorem Reaches.of_bind {k : α → Plan β} {d : Course σ β} (h : Reaches s context (c.bind k) d) :
    (∃ c', Reaches s context c c' ∧ d = c'.bind k) ∨
    ∃ a w, Reaches s context c (plan (.done a) w) ∧ Reaches s context (plan (k a) w) d := by
  induction h with
  | refl => exact .inl ⟨c, .refl, rfl⟩
  | @tail d d' _ hnext ih =>
      rcases ih with ⟨c', hreach, rfl⟩ | ⟨a, w, hfirst, hsecond⟩
      · by_cases hdone : ∃ a w, c' = plan (.done a) w
        · obtain ⟨a, w, rfl⟩ := hdone
          exact .inr ⟨a, w, hreach, .single hnext⟩
        · obtain ⟨c'', hstep, rfl⟩ := hnext.of_bind fun a w heq => hdone ⟨a, w, heq⟩
          exact .inl ⟨c'', .tail hreach hstep, rfl⟩
      · exact .inr ⟨a, w, hfirst, .tail hsecond hnext⟩

/-! ## What every step keeps -/

theorem after_start (s : Service σ) (context : Context) (r : Request) (w : World σ) :
    w.After (w.start context (s.begin context r)).2 := by
  rcases s.start_cases context r w with ⟨e, -, h⟩ | ⟨w₁, -, hw, h | ⟨f, h, -, -⟩⟩
  · rw [h]
    exact .refl w
  · rw [h]
    exact ⟨hw.now, hw.cancelled⟩
  · rw [h]
    exact ⟨hw.now, hw.cancelled⟩

theorem after_poll (f : Flight σ β) (w : World σ) : w.After (f.poll w).2 := by
  rcases f.poll_cases w with ⟨e, -, h⟩ | ⟨w₁, hw, h | ⟨g, h, -, -⟩⟩
  · rw [h]
    exact ⟨Nat.le_refl _, fun _ _ h => h⟩
  · rw [h]
    exact ⟨hw.now, hw.cancelled⟩
  · rw [h]
    exact hw.toAfter

theorem after_moment {m m' : Moment σ Promotion Unit}
    (h : Moment.Next (s.startWrite context) m m') : m.world.After m'.world := by
  rcases h.line_cases with ⟨-, hwaits, -⟩ | ⟨pre, a, post, b, -, -, hadv, -, -⟩
  · exact hwaits.toAfter
  · exact (Service.goes_of_advance hadv).after.1

/-- The clock never goes back, and cancellations stay. -/
theorem Next.after (h : Next s context c c') : c.world.After c'.world := by
  cases h with
  | @note n next w =>
      obtain ⟨logs, sink, hnoted⟩ := s.noted_take n w
      show w.After (s.take n w)
      rw [hnoted]
      exact ⟨Nat.le_refl _, fun _ _ h => h⟩
  | build => exact ⟨Nat.le_refl _, fun _ _ h => h⟩
  | @start r next w =>
      rw [world_looked]
      exact after_start s _ r w
  | @look r f next w =>
      rw [world_looked]
      exact after_poll f w
  | enter => exact .refl _
  | moment hnext => exact after_moment hnext
  | leave => exact .refl _
  | meanwhile hw =>
      rw [world_within]
      exact hw.toAfter

theorem Reaches.after (h : Reaches s context c c') : c.world.After c'.world := by
  induction h with
  | refl => exact .refl _
  | tail _ hnext ih => exact ih.trans hnext.after

/-- The call of a flight was made under the caller's context, with the timeout of one call. -/
def OwnFlight (s : Service σ) (context : Context) (f : Flight σ β) : Prop :=
  ∃ t, f.context = s.callContext context t

/-- All calls that wait were made for the operation. -/
def Own (s : Service σ) (context : Context) : Course σ α → Prop
  | plan .. => True
  | call _ f _ _ => OwnFlight s context f
  | writes m _ => ∀ a ∈ m.line, a.Flies fun _ f => OwnFlight s context f

theorem own_looked {r : Request} {next : Except StoreError r.Answer → Plan α}
    {p : Status σ r.Answer × World σ}
    (h : ∀ f w, p = (.flying f, w) → OwnFlight s context f) :
    Own s context (looked r next p) := by
  obtain ⟨status, w⟩ := p
  cases status with
  | landed a => trivial
  | flying f => exact h f w rfl

theorem own_moment {m m' : Moment σ Promotion Unit}
    (h : Moment.Next (s.startWrite context) m m')
    (hm : ∀ a ∈ m.line, a.Flies fun _ f => OwnFlight s context f) :
    ∀ a ∈ m'.line, a.Flies fun _ f => OwnFlight s context f := by
  rcases h.line_cases with ⟨hline, -, -⟩ | ⟨pre, a, post, b, hline, hline', hadv, -, -⟩
  · rw [hline]
    exact hm
  · rw [hline] at hm
    rw [hline']
    intro x hx
    simp only [List.mem_append, List.mem_cons] at hm hx
    rcases hx with hx | rfl | hx
    · exact hm x (.inl hx)
    · have hgoes := Service.goes_of_advance hadv
      generalize m'.world = w' at hgoes
      cases hgoes with
      | begun _ hcontext _ => exact ⟨_, hcontext⟩
      | waited _ hcontext _ =>
          obtain ⟨t, ht⟩ := hm _ (.inr (.inl rfl))
          exact ⟨t, hcontext.trans ht⟩
      | _ => trivial
    · exact hm x (.inr (.inr hx))

theorem Next.own (h : Next s context c c') (hc : c.Own s context) : c'.Own s context := by
  cases h with
  | note => trivial
  | build => trivial
  | @start r next w =>
      refine own_looked fun f w' heq => ?_
      rcases s.start_cases (s.callContext context w.now) r w with
        ⟨e, -, h⟩ | ⟨w₁, -, -, h | ⟨g, h, hcontext, -⟩⟩
      · rw [h] at heq
        cases heq
      · rw [h] at heq
        cases heq
      · rw [h] at heq
        cases heq
        exact ⟨_, hcontext⟩
  | @look r f next w =>
      refine own_looked fun g w' heq => ?_
      rcases f.poll_cases w with ⟨e, -, h⟩ | ⟨w₁, -, h | ⟨g', h, hcontext, -⟩⟩
      · rw [h] at heq
        cases heq
      · rw [h] at heq
        cases heq
      · rw [h] at heq
        cases heq
        obtain ⟨t, ht⟩ := hc
        exact ⟨t, hcontext.trans ht⟩
  | enter =>
      intro a ha
      rw [Moment.line_mk] at ha
      obtain ⟨p, -, rfl⟩ := List.mem_map.1 ha
      trivial
  | moment hnext => exact own_moment hnext hc
  | leave => trivial
  | @meanwhile c w _ => cases c <;> exact hc

end Course

end Delivery
