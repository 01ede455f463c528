import Delivery.Proofs.Questions
import Delivery.Proofs.Recording

/-!
# Listeners

A service tells of events, if its configuration wants that, and somebody takes them. Whoever that is
makes no difference: `Plan.runWith` carries out a plan with any listener in the place of a sink, and
it comes to the same value and to the same world with every one of them, and without any
(`Plan.runWith_eq`). What the listener has heard in the end are the events that the plan tells of
(`Plan.told`), each once and in order.
-/

namespace Delivery

variable {σ τ α β : Type} {s : Service σ} {context : Context}

/-! ## Listening -/

/-- Takes events with a state of its own, and writes lines to the log. -/
abbrev Listener (τ : Type) := τ → Event → τ × List LogLine

/-- What has become of a listener after some events. -/
def Listener.heard (l : Listener τ) (t : τ) (events : List Event) : τ :=
  events.foldl (fun t e => (l t e).1) t

/-- The service with events wanted, or not. -/
def Service.withEvents (s : Service σ) (wanted : Bool) : Service σ :=
  { s with config := { s.config with emitEvents := wanted } }

/-- Takes a note, with a listener for the events. -/
def Service.takeWith (s : Service σ) (l : Listener τ) (n : Note) (w : World σ) (t : τ) :
    World σ × τ :=
  match n with
  | .line line => (w.log line, t)
  | .event e =>
    if s.config.emitEvents then ({ w with logs := w.logs ++ (l t e).2 }, (l t e).1) else (w, t)

/-- Carries out a plan, with a listener for the events. -/
def Plan.runWith (s : Service σ) (context : Context) (l : Listener τ) :
    Plan α → World σ → τ → α × World σ × τ
  | done a, w, t => (a, w, t)
  | note n next, w, t =>
    let (w, t) := s.takeWith l n w t
    next.runWith s context l w t
  | call r next, w, t =>
    let (answer, w) := s.call context r w
    (next answer).runWith s context l w t
  | build stage freight next, w, t =>
    let p := Promotion.build stage freight (s.stamps w.built)
    (next p).runWith s context l { w with built := w.built + 1 } t
  | writes promotions next, w, t =>
    let (outcomes, w) := s.write context promotions w
    (next outcomes).runWith s context l w t

/-- The events that a plan tells of, whether anyone wants them or not. -/
def Plan.told (s : Service σ) (context : Context) : Plan α → World σ → List Event
  | done _, _ => []
  | note n next, w => n.event?.toList ++ next.told s context (s.take n w)
  | call r next, w =>
    let (answer, w) := s.call context r w
    (next answer).told s context w
  | build stage freight next, w =>
    let p := Promotion.build stage freight (s.stamps w.built)
    (next p).told s context { w with built := w.built + 1 }
  | writes promotions next, w =>
    let (outcomes, w) := s.write context promotions w
    (next outcomes).told s context w

/-! ## Sinks as listeners -/

/-- Events that are collected are all kept. -/
theorem Sink.heard_collecting (kept events : List Event) :
    Listener.heard Sink.emit (.collecting kept) events = .collecting (kept ++ events) := by
  induction events generalizing kept with
  | nil => rw [List.append_nil]; rfl
  | cons e rest ih =>
      show Listener.heard Sink.emit (.collecting (kept ++ [e])) rest = _
      rw [ih, List.append_assoc]
      rfl

theorem Service.call_unheard (s : Service σ) (context : Context) (r : Request) (w : World σ)
    (logs : List LogLine) (sink : Sink) : s.call context r { w with logs, sink } =
      ((s.call context r w).1, { (s.call context r w).2 with logs, sink }) :=
  (World.unheard (s.call_recorded context r w) logs sink).1

theorem Service.write_unheard (s : Service σ) (context : Context) (promotions : List Promotion)
    (w : World σ) (logs : List LogLine) (sink : Sink) :
    s.write context promotions { w with logs, sink } =
      ((s.write context promotions w).1, { (s.write context promotions w).2 with logs, sink }) :=
  (World.unheard (Window.run_recorded (s.startWrite_recorded context) _ w) logs sink).1

/-- A plan is carried out with the sink of the world as its listener. -/
theorem Plan.run_eq_runWith (p : Plan α) (w : World σ) (sink : Sink) :
    p.run s context { w with sink } =
      ((p.runWith s context Sink.emit w sink).1,
        { (p.runWith s context Sink.emit w sink).2.1 with
          sink := (p.runWith s context Sink.emit w sink).2.2 }) := by
  induction p generalizing w sink with
  | done a => rfl
  | note n next ih =>
      have htake : s.take n { w with sink } =
          { (s.takeWith Sink.emit n w sink).1 with
            sink := (s.takeWith Sink.emit n w sink).2 } := by
        cases n with
        | line line => rfl
        | event e =>
            simp only [Service.take, Service.takeWith]
            split <;> rfl
      simp only [run, runWith, htake]
      exact ih _ _
  | call r next ih =>
      simp only [run, runWith, s.call_unheard context r w w.logs sink]
      rw [← (World.unheard (s.call_recorded context r w) w.logs sink).2.1]
      exact ih _ _ sink
  | build stage freight next ih => exact ih _ { w with built := w.built + 1 } sink
  | writes promotions next ih =>
      simp only [run, runWith, s.write_unheard context promotions w w.logs sink]
      rw [← (World.unheard (Window.run_recorded (s.startWrite_recorded context)
        ⟨s.config.maxConcurrentWrites, promotions, []⟩ w) w.logs sink).2.1]
      exact ih _ _ sink

/-! ## Listeners make no difference -/

/-- **Nobody who listens makes a difference.** Whether events are wanted or not, and whoever takes
them, a plan comes to the same value and to the same world but for the log, and the listener has
heard what the plan tells of. -/
theorem Plan.runWith_eq (s : Service σ) (context : Context) (wanted : Bool) (l : Listener τ)
    (p : Plan α) (w : World σ) (logs : List LogLine) (sink : Sink) (t : τ) :
    ∃ logs', p.runWith (s.withEvents wanted) context l { w with logs, sink } t =
      ((p.run s context w).1, { (p.run s context w).2 with logs := logs', sink },
        if wanted then l.heard t (p.told s context w) else t) := by
  induction p generalizing w logs t with
  | done a =>
      refine ⟨logs, ?_⟩
      cases wanted <;> rfl
  | note n next ih =>
      -- The note leaves the listener ahead of the world's own sink, and both worlds alike.
      obtain ⟨logs₁, htake⟩ : ∃ logs₁, (s.withEvents wanted).takeWith l n { w with logs, sink } t =
          ({ s.take n w with logs := logs₁, sink },
            if wanted then l.heard t n.event?.toList else t) := by
        obtain ⟨_, _, hnoted⟩ := s.noted_take n w
        rw [hnoted]
        cases n with
        | line line => exact ⟨logs ++ [line], by cases wanted <;> rfl⟩
        | event e =>
            cases wanted with
            | true => exact ⟨logs ++ (l t e).2, rfl⟩
            | false => exact ⟨logs, rfl⟩
      obtain ⟨logs₂, hnext⟩ :=
        ih (s.take n w) logs₁ (if wanted then l.heard t n.event?.toList else t)
      refine ⟨logs₂, ?_⟩
      simp only [runWith, htake, hnext, run, told]
      cases wanted with
      | true => simp [Listener.heard, List.foldl_append]
      | false => rfl
  | call r next ih =>
      have hcall := s.call_unheard context r w logs sink
      obtain ⟨logs', hnext⟩ := ih (s.call context r w).1 (s.call context r w).2 logs t
      refine ⟨logs', ?_⟩
      show Plan.runWith _ _ _ (next (s.call context r { w with logs, sink }).1)
        (s.call context r { w with logs, sink }).2 t = _
      rw [hcall]
      exact hnext
  | build stage freight next ih => exact ih _ { w with built := w.built + 1 } logs t
  | writes promotions next ih =>
      have hwrite := s.write_unheard context promotions w logs sink
      obtain ⟨logs', hnext⟩ :=
        ih (s.write context promotions w).1 (s.write context promotions w).2 logs t
      refine ⟨logs', ?_⟩
      show Plan.runWith _ _ _ (next (s.write context promotions { w with logs, sink }).1)
        (s.write context promotions { w with logs, sink }).2 t = _
      rw [hwrite]
      exact hnext

/-- A sink that collects has collected what the plan tells of. -/
theorem Plan.sink_run {kept : List Event} (hwanted : s.config.emitEvents = true)
    (context : Context) (p : Plan α) {w : World σ} (hsink : w.sink = .collecting kept) :
    (p.run s context w).2.sink = .collecting (kept ++ p.told s context w) := by
  have hs : s.withEvents true = s := by
    rw [← hwanted]
    rfl
  obtain ⟨logs, hrun⟩ := p.runWith_eq s context true Sink.emit w w.logs w.sink w.sink
  have hsame : p.run s context w = _ := p.run_eq_runWith w w.sink
  rw [hs] at hrun
  rw [hsame, show p.runWith s context Sink.emit w w.sink = _ from hrun, hsink]
  exact Sink.heard_collecting kept _

/-! ## What plans tell of -/

theorem Plan.told_bind (p : Plan α) (f : α → Plan β) (w : World σ) :
    (p.bind f).told s context w =
      p.told s context w ++ (f (p.run s context w).1).told s context (p.run s context w).2 := by
  induction p generalizing w with
  | done a => rfl
  | note n next ih => simp only [bind, told, run, ih, List.append_assoc]
  | call r next ih => exact ih _ _
  | build stage freight next ih => exact ih _ _
  | writes promotions next ih => exact ih _ _

/-- Asking tells of nothing. -/
theorem Plan.Inquires.told {p : Plan α} (hp : p.Inquires) (s : Service σ) (context : Context)
    (w : World σ) : p.told s context w = [] := by
  induction p generalizing w with
  | done a => rfl
  | note n next ih =>
      rw [Plan.told, hp.1, ih hp.2]
      rfl
  | call r next ih => exact ih _ (hp.2 _) _
  | build stage freight next => cases hp
  | writes promotions next => cases hp

namespace Operation

theorem told_bind (x : Operation α) (f : α → Operation β) (w : World σ) :
    (x >>= f).run.told s context w = x.run.told s context w ++
      match x.run.run s context w with
      | (.ok a, w') => (f a).run.told s context w'
      | (.error _, _) => [] := by
  rw [ExceptT.run_bind, Plan.bind_def, Plan.told_bind]
  rcases x.run.run s context w with ⟨_ | a, w'⟩ <;> rfl

theorem told_step (p : Plan α) (w : World σ) :
    (step p).run.told s context w = p.told s context w := by
  show (p.bind fun a => Plan.done (Except.ok a : Except PromotionError α)).told s context w = _
  rw [Plan.told_bind]
  exact List.append_nil _

end Operation

end Delivery
