import Delivery.Proofs.Calls

/-!
# Records make no difference

The record of the calls, the log and the sink are written and never read: in a world where other
calls were recorded, other lines logged and other events reported, a call comes to the same, and so
does a window of calls (`Window.run_recorded`).
-/

namespace Delivery

variable {σ α β : Type}

/-! ## One call -/

section Recorded

variable {calls : List CallRecord} {logs : List LogLine} {sink : Sink}

theorem Call.run_recorded (c : Call σ α) (token : TokenId) (w : World σ) :
    c.run token { w with calls, logs, sink } =
      ((c.run token w).1, { (c.run token w).2 with calls, logs, sink }) := by
  induction c generalizing w with
  | answer reply => rfl
  | cancel reason rest ih => exact ih (w.cancel token reason)
  | sleep d rest ih =>
      simp only [Call.run]
      by_cases hdue : (w.now.afterSleep d).dueTick ≤ w.now.ticks
      · rw [if_pos hdue, if_pos hdue]
        exact ih w
      · rw [if_neg hdue, if_neg hdue]

theorem Status.of_recorded (context : Context) (a : Progress σ (Except StoreError β))
    (w : World σ) : Status.of context (a, { w with calls, logs, sink }) =
      ((Status.of context (a, w)).1, { (Status.of context (a, w)).2 with calls, logs, sink }) := by
  cases a <;> rfl

theorem Flight.poll_recorded (f : Flight σ β) (w : World σ) :
    f.poll { w with calls, logs, sink } =
      ((f.poll w).1, { (f.poll w).2 with calls, logs, sink }) := by
  simp only [Flight.poll]
  cases w.tokens.state f.context.token with
  | cancelled reason => rfl
  | live =>
      cases f.context.deadline.filter fun d => decide (d.at_.dueTick ≤ w.now.ticks) with
      | some d => rfl
      | none =>
          dsimp only
          by_cases hdue : f.until_.dueTick ≤ w.now.ticks
          · rw [if_pos hdue, if_pos hdue, Call.run_recorded, Status.of_recorded]
          · rw [if_neg hdue, if_neg hdue]

theorem World.elapse_recorded (w : World σ) (timers : List Instant) :
    { w with calls, logs, sink }.elapse timers = { w.elapse timers with calls, logs, sink } := by
  have htick : { w with calls, logs, sink }.nextTick? timers = w.nextTick? timers := rfl
  unfold World.elapse
  rw [htick]
  cases w.nextTick? timers <;> rfl

theorem Flight.wait_recorded (f : Flight σ β) (w : World σ) :
    f.wait { w with calls, logs, sink } = { f.wait w with calls, logs, sink } := by
  have hready : f.ready { w with calls, logs, sink } = f.ready w := rfl
  simp only [Flight.wait, hready, World.elapse_recorded]
  split <;> rfl

theorem Flight.land_recorded (f : Flight σ β) (w : World σ) :
    f.land { w with calls, logs, sink } =
      ((f.land w).1, { (f.land w).2 with calls, logs, sink }) := by
  have hlook (f : Flight σ β) (w : World σ) :
      f.poll (f.wait { w with calls, logs, sink }) =
        ((f.poll (f.wait w)).1, { (f.poll (f.wait w)).2 with calls, logs, sink }) := by
    rw [Flight.wait_recorded, Flight.poll_recorded]
  fun_induction Flight.land f w with
  | case1 f w result w' hpoll =>
      have hrecorded := hlook f w
      rw [hpoll] at hrecorded
      rw [Flight.land]
      split
      · rename_i h
        rw [hrecorded] at h
        cases h
        rfl
      · rename_i h
        rw [hrecorded] at h
        cases h
  | case2 f w g w' hpoll ih =>
      have hrecorded := hlook f w
      rw [hpoll] at hrecorded
      rw [Flight.land]
      split
      · rename_i h
        rw [hrecorded] at h
        cases h
      · rename_i h
        rw [hrecorded] at h
        cases h
        exact ih

end Recorded

/-- What depends neither on the records nor on the log and the sink leaves the last two alone. -/
theorem World.unheard {γ : Type} {f : World σ → γ × World σ} {w : World σ}
    (h : ∃ new, ∀ calls logs sink, f { w with calls, logs, sink } =
      ((f w).1, { (f w).2 with calls := calls ++ new, logs, sink }))
    (logs : List LogLine) (sink : Sink) :
    f { w with logs, sink } = ((f w).1, { (f w).2 with logs, sink }) ∧
      (f w).2.logs = w.logs ∧ (f w).2.sink = w.sink := by
  obtain ⟨new, hf⟩ := h
  have hsame := hf w.calls w.logs w.sink
  have hcalls : (f w).2.calls = w.calls ++ new := congrArg (fun r => r.2.calls) hsame
  refine ⟨?_, congrArg (fun r => r.2.logs) hsame, congrArg (fun r => r.2.sink) hsame⟩
  have hother := hf w.calls logs sink
  rw [← hcalls] at hother
  exact hother

/-- Starting a job does not depend on what was recorded, logged and reported before it, and leaves
the log and the sink alone. -/
def Unrecorded (start : α → World σ → Status σ β × World σ) : Prop :=
  ∀ (job : α) (w : World σ), ∃ new, ∀ calls logs sink, start job { w with calls, logs, sink } =
    ((start job w).1, { (start job w).2 with calls := calls ++ new, logs, sink })

theorem Service.start_recorded (s : Service σ) (context : Context) (r : Request) (w : World σ) :
    ∃ new, ∀ calls logs sink, { w with calls, logs, sink }.start context (s.begin context r) =
      ((w.start context (s.begin context r)).1,
        { (w.start context (s.begin context r)).2 with calls := calls ++ new, logs, sink }) := by
  simp only [World.start]
  cases context.check w.tokens w.now with
  | error e => exact ⟨[], fun calls logs sink => by rw [List.append_nil]⟩
  | ok u =>
      refine ⟨s.recordsOf context r w, fun calls logs sink => ?_⟩
      have hbegun : s.begun context r { w with calls, logs, sink } =
          { s.begun context r w with
            calls := calls ++ s.recordsOf context r w, logs, sink } := rfl
      dsimp only
      rw [s.begin_eq, s.begin_eq _ _ { w with calls, logs, sink }, hbegun]
      dsimp only
      rw [Call.run_recorded, Status.of_recorded]

/-- What a call comes to does not depend on what was recorded, logged and reported before it. -/
theorem Service.call_recorded (s : Service σ) (context : Context) (r : Request) (w : World σ) :
    ∃ new, ∀ calls logs sink, s.call context r { w with calls, logs, sink } =
      ((s.call context r w).1,
        { (s.call context r w).2 with calls := calls ++ new, logs, sink }) := by
  obtain ⟨new, hstart⟩ := s.start_recorded (s.callContext context w.now) r w
  refine ⟨new, fun calls logs sink => ?_⟩
  simp only [call, World.call, hstart calls logs sink]
  rcases w.start (s.callContext context w.now) (s.begin (s.callContext context w.now) r) with
    ⟨result | f, w'⟩
  · rfl
  · exact f.land_recorded w'

/-- What a write comes to does not depend on what was recorded, logged and reported before it. -/
theorem Service.startWrite_recorded (s : Service σ) (context : Context) :
    Unrecorded (s.startWrite context) :=
  fun p w => s.start_recorded (s.callContext context w.now) (.create p) w

/-! ## A window of calls -/

namespace Window

variable {start : α → World σ → Status σ β × World σ} {v v' : Window σ α β} {w w' : World σ}

theorem run_take {o : α × Except StoreError β} (hne : v.refill.slots ≠ [])
    (ht : v.refill.take? = some (o, v')) :
    v.run start w = (o :: (v'.run start w).1, (v'.run start w).2) := by
  rw [run, dif_neg hne]
  split
  · rename_i h
    rw [ht] at h
    cases h
    rfl
  · rename_i h
    rw [ht] at h
    cases h

theorem run_advance (hne : v.refill.slots ≠ []) (ht : v.refill.take? = none)
    (ha : v.refill.advance start w = some (v', w')) : v.run start w = v'.run start w' := by
  rw [run, dif_neg hne]
  split
  · rename_i h
    rw [ht] at h
    cases h
  · split
    · rename_i h
      rw [ha] at h
      cases h
      rfl
    · rename_i h
      rw [ha] at h
      cases h

theorem run_elapse (hne : v.refill.slots ≠ []) (ht : v.refill.take? = none)
    (ha : v.refill.advance start w = none) :
    v.run start w = v.refill.run start (w.elapse v.refill.timers) := by
  rw [run, dif_neg hne]
  split
  · rename_i h
    rw [ht] at h
    cases h
  · split
    · rename_i h
      rw [ha] at h
      cases h
    · rfl

end Window

section Window

variable {start : α → World σ → Status σ β × World σ} (hstart : Unrecorded start)
include hstart

theorem Slot.advance_recorded (a : Slot σ α β) (w : World σ) :
    ∃ new, ∀ calls logs sink, a.advance start { w with calls, logs, sink } =
      (a.advance start w).map fun r =>
        (r.1, { r.2 with calls := calls ++ new, logs, sink }) := by
  cases a with
  | landed job outcome => exact ⟨[], fun _ _ _ => rfl⟩
  | fresh job =>
      obtain ⟨new, hjob⟩ := hstart job w
      refine ⟨new, fun calls logs sink => ?_⟩
      simp only [advance, hjob calls logs sink]
      rfl
  | flying job f =>
      refine ⟨[], fun calls logs sink => ?_⟩
      have hready : f.ready { w with calls, logs, sink } = f.ready w := rfl
      simp only [advance, hready, Flight.poll_recorded, List.append_nil]
      cases f.ready w <;> rfl

theorem Window.advanceFirst_recorded (slots : List (Slot σ α β)) (w : World σ) :
    ∃ new, ∀ calls logs sink, advanceFirst start { w with calls, logs, sink } slots =
      (advanceFirst start w slots).map fun r =>
        (r.1, { r.2 with calls := calls ++ new, logs, sink }) := by
  induction slots with
  | nil => exact ⟨[], fun _ _ _ => rfl⟩
  | cons a rest ih =>
      obtain ⟨new, ha⟩ := a.advance_recorded hstart w
      cases hadvance : a.advance start w with
      | some r =>
          refine ⟨new, fun calls logs sink => ?_⟩
          simp only [advanceFirst, ha calls logs sink, hadvance]
          rfl
      | none =>
          obtain ⟨new', hrest⟩ := ih
          refine ⟨new', fun calls logs sink => ?_⟩
          simp only [advanceFirst, ha calls logs sink, hadvance, hrest calls logs sink]
          cases advanceFirst start w rest <;> rfl

theorem Window.advance_recorded (v : Window σ α β) (w : World σ) :
    ∃ new, ∀ calls logs sink, v.advance start { w with calls, logs, sink } =
      (v.advance start w).map fun r =>
        (r.1, { r.2 with calls := calls ++ new, logs, sink }) := by
  obtain ⟨new, hfirst⟩ := advanceFirst_recorded hstart v.slots w
  refine ⟨new, fun calls logs sink => ?_⟩
  simp only [advance, hfirst calls logs sink]
  cases advanceFirst start w v.slots <;> rfl

/-- **What is recorded, logged and reported makes no difference to the jobs of a window.** -/
theorem Window.run_recorded (v : Window σ α β) (w : World σ) :
    ∃ new, ∀ calls logs sink, v.run start { w with calls, logs, sink } =
      ((v.run start w).1,
        { (v.run start w).2 with calls := calls ++ new, logs, sink }) := by
  fun_induction run start v w with
  | case1 v w hne =>
      refine ⟨[], fun calls logs sink => ?_⟩
      rw [run, dif_pos hne, List.append_nil]
  | case2 v w hne taken rest ht outcomes w' hrec ih =>
      obtain ⟨new, hrest⟩ := ih
      refine ⟨new, fun calls logs sink => ?_⟩
      rw [run_take hne ht, hrest, hrec]
  | case3 v w hne ht v' w' ha ih =>
      obtain ⟨recorded, hadvance⟩ := v.refill.advance_recorded hstart w
      obtain ⟨new, hrest⟩ := ih
      refine ⟨recorded ++ new, fun calls logs sink => ?_⟩
      have hadvance := hadvance calls logs sink
      rw [ha] at hadvance
      rw [run_advance hne ht hadvance, hrest, List.append_assoc]
  | case4 v w hne ht ha ih =>
      obtain ⟨recorded, hadvance⟩ := v.refill.advance_recorded hstart w
      obtain ⟨new, hrest⟩ := ih
      refine ⟨new, fun calls logs sink => ?_⟩
      have hadvance := hadvance calls logs sink
      rw [ha] at hadvance
      rw [run_elapse hne ht hadvance, World.elapse_recorded, hrest]

end Window

end Delivery
