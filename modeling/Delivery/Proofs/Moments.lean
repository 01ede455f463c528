import Mathlib.Logic.Relation
import Delivery.Proofs.Calls

/-!
# The moments of a window

`Window.run` is one function; what holds *while* jobs are worked off is said of its moments
(`Moment.Next`, `Moment.Reaches`). The view that makes them simple is the line of all jobs
(`Moment.line`): those that were taken, those in the window and those that wait, in the order of
the jobs. No moment moves a job in it. Letting a job go on changes the one place, and everything
else leaves the line as it is (`Moment.Next.line_cases`).

* `Moment.reaches_run` — the run of a window is its last moment;
* `Window.exists_landings` — an invariant of what jobs do, one after another in the order in which
  they come to their outcomes, holds at the end for a permutation of the outcomes.
-/

namespace Delivery

variable {σ α β : Type}

/-- True for a job whose call is running. -/
def Slot.isFlying : Slot σ α β → Bool
  | flying .. => true
  | _ => false

/-- One moment of a window at work: the outcomes taken so far, the window and the world. -/
structure Moment (σ α β : Type) where
  taken : List (α × Except StoreError β)
  window : Window σ α β
  world : World σ

namespace Moment

/-- What a window does from one moment to the next. -/
inductive Next (start : α → World σ → Status σ β × World σ) :
    Moment σ α β → Moment σ α β → Prop
  /-- Jobs enter while there is room. -/
  | enter (m) : Next start m { m with window := m.window.refill }
  /-- The oldest job's outcome is taken. -/
  | take {m o v} : m.window.take? = some (o, v) →
      Next start m { m with taken := m.taken ++ [o], window := v }
  /-- The oldest job that can go on does so. -/
  | advance {m v w} : m.window.take? = none → m.window.advance start m.world = some (v, w) →
      Next start m { m with window := v, world := w }
  /-- There are jobs, but none can go on, and time moves. -/
  | elapse {m} : m.window.slots ≠ [] → m.window.take? = none →
      m.window.advance start m.world = none →
      Next start m { m with world := m.world.elapse m.window.timers }

/-- Any number of moments later. -/
def Reaches (start : α → World σ → Status σ β × World σ) :
    Moment σ α β → Moment σ α β → Prop := Relation.ReflTransGen (Next start)

/-- What every step keeps holds at every moment that is reached. -/
theorem Reaches.invariant {start : α → World σ → Status σ β × World σ}
    {I : Moment σ α β → Prop} {m m' : Moment σ α β} (h : Reaches start m m')
    (hstep : ∀ m m', Next start m m' → I m → I m') (hm : I m) : I m' := by
  induction h with
  | refl => exact hm
  | tail _ hnext ih => exact hstep _ _ hnext ih

/-! ## The run of a window -/

/-- A window into which nothing enters is done with all its jobs. -/
theorem refill_eq_nil {v : Window σ α β} (h : v.refill.slots = []) :
    v.refill = ⟨v.limit, [], []⟩ := by
  obtain ⟨hslots, htake⟩ := List.append_eq_nil_iff.1 h
  have hlen : (v.waiting.take (max 1 v.limit - v.slots.length)).length = 0 := by
    simpa using congrArg List.length htake
  have hwaiting : v.waiting = [] := by
    rw [hslots, List.length_take] at hlen
    exact List.length_eq_zero_iff.1 (by simp only [List.length_nil] at hlen; omega)
  obtain ⟨limit, waiting, slots⟩ := v
  simp only at hslots hwaiting
  subst hslots hwaiting
  simp [Window.refill]

theorem limit_of_take? {v v' : Window σ α β} {o : α × Except StoreError β}
    (h : v.take? = some (o, v')) : v'.limit = v.limit := by
  unfold Window.take? at h
  split at h
  · cases h
    rfl
  · cases h

theorem limit_of_advance {start : α → World σ → Status σ β × World σ} {v v' : Window σ α β}
    {w w' : World σ} (h : v.advance start w = some (v', w')) : v'.limit = v.limit := by
  obtain ⟨p, -, he⟩ := Option.map_eq_some_iff.1 h
  cases he
  rfl

theorem refill_refill (v : Window σ α β) : v.refill.refill = v.refill := by
  have hroom : max 1 v.limit - v.refill.slots.length = 0 ∨ v.refill.waiting = [] := by
    simp only [Window.refill, List.length_append, List.length_map, List.length_take,
      List.drop_eq_nil_iff]
    omega
  rw [Window.refill]
  rcases hroom with hfull | hnone
  · have hlimit : v.refill.limit = v.limit := rfl
    rw [hlimit, hfull, List.take_zero, List.map_nil, List.append_nil, List.drop_zero, ← hlimit]
  · rw [hnone, List.take_nil, List.map_nil, List.append_nil, List.drop_nil, ← hnone]

/-- **The rule of a run.** What holds in the beginning, and is kept when jobs enter and by every step
of a window that is as full as it can be, holds in the end. -/
theorem invariant_run {start : α → World σ → Status σ β × World σ} {I : Moment σ α β → Prop}
    (henter : ∀ m, I m → I { m with window := m.window.refill })
    (hstep : ∀ m m', m.window.refill = m.window → Next start m m' → I m → I m')
    (v : Window σ α β) (w : World σ) (taken : List (α × Except StoreError β))
    (hfirst : I ⟨taken, v, w⟩) :
    I ⟨taken ++ (v.run start w).1, ⟨v.limit, [], []⟩, (v.run start w).2⟩ := by
  fun_induction Window.run start v w generalizing taken with
  | case1 v w hne =>
      rw [List.append_nil, ← refill_eq_nil hne]
      exact henter _ hfirst
  | case2 v w hne o rest ht outcomes w' hrec ih =>
      have hlimit : rest.limit = v.limit := (limit_of_take? ht).trans rfl
      have := ih (taken ++ [o]) (hstep _ _ (refill_refill v) (.take ht) (henter _ hfirst))
      rw [hrec, hlimit, List.append_assoc, List.singleton_append] at this
      exact this
  | case3 v w hne ht v' w' ha ih =>
      have hlimit : v'.limit = v.limit := (limit_of_advance ha).trans rfl
      have := ih taken (hstep _ _ (refill_refill v) (.advance ht ha) (henter _ hfirst))
      rw [hlimit] at this
      exact this
  | case4 v w hne ht ha ih =>
      have hlimit : v.refill.limit = v.limit := rfl
      have := ih taken (hstep _ _ (refill_refill v) (.elapse hne ht ha) (henter _ hfirst))
      rw [hlimit] at this
      exact this

/-- The run of a window is the last of its moments. -/
theorem reaches_run (start : α → World σ → Status σ β × World σ) (v : Window σ α β) (w : World σ)
    (taken : List (α × Except StoreError β)) :
    Reaches start ⟨taken, v, w⟩
      ⟨taken ++ (v.run start w).1, ⟨v.limit, [], []⟩, (v.run start w).2⟩ :=
  invariant_run (I := Reaches start ⟨taken, v, w⟩) (fun m h => h.tail (.enter m))
    (fun _ _ _ hnext h => h.tail hnext) v w taken .refl

/-! ## The line of jobs -/

/-- All jobs in their order: those whose outcomes were taken, those in the window, and those that
wait. -/
def line (m : Moment σ α β) : List (Slot σ α β) :=
  m.taken.map (fun o => .landed o.1 o.2) ++ m.window.slots ++ m.window.waiting.map .fresh

/-- The first job that can go on is behind jobs that cannot, and the only one that changes. -/
theorem advanceFirst_split {start : α → World σ → Status σ β × World σ} {w w' : World σ}
    {slots slots' : List (Slot σ α β)} (h : Window.advanceFirst start w slots = some (slots', w')) :
    ∃ pre s post t, slots = pre ++ s :: post ∧ slots' = pre ++ t :: post ∧
      s.advance start w = some (t, w') ∧ ∀ u ∈ pre, u.advance start w = none := by
  induction slots generalizing slots' with
  | nil => cases h
  | cons s rest ih =>
      simp only [Window.advanceFirst] at h
      split at h
      · rename_i t u hs
        cases h
        exact ⟨[], s, rest, t, rfl, rfl, hs, fun u hu => absurd hu List.not_mem_nil⟩
      · rename_i hs
        obtain ⟨⟨l, u⟩, hl, he⟩ := Option.map_eq_some_iff.1 h
        cases he
        obtain ⟨pre, r, post, t, rfl, rfl, hr, hpre⟩ := ih hl
        refine ⟨s :: pre, r, post, t, rfl, rfl, hr, fun u hu => ?_⟩
        rcases List.mem_cons.1 hu with rfl | hu
        · exact hs
        · exact hpre u hu

/-- A job that cannot go on was started before. -/
theorem not_isFresh_of_advance {start : α → World σ → Status σ β × World σ} {w : World σ}
    {s : Slot σ α β} (h : s.advance start w = none) : s.isFresh = false := by
  cases s with
  | fresh job => simp [Slot.advance] at h
  | flying job f => rfl
  | landed job outcome => rfl

/-- When no job can be taken or go on, the oldest one is running. -/
theorem flying_of_stuck {start : α → World σ → Status σ β × World σ} {v : Window σ α β}
    {w : World σ} (hne : v.slots ≠ []) (ht : v.take? = none) (ha : v.advance start w = none) :
    ∃ job f rest, v.slots = .flying job f :: rest := by
  obtain ⟨limit, waiting, slots⟩ := v
  cases slots with
  | nil => exact absurd rfl hne
  | cons slot rest =>
      cases slot with
      | fresh job => simp [Window.advance, Window.advanceFirst, Slot.advance] at ha
      | landed job outcome => simp [Window.take?] at ht
      | flying job f => exact ⟨job, f, rest, rfl⟩

/-- And whatever is in the window was started. -/
theorem not_isFresh_of_stuck {start : α → World σ → Status σ β × World σ} {v : Window σ α β}
    {w : World σ} (ha : v.advance start w = none) : ∀ s ∈ v.slots, s.isFresh = false := by
  have hnone (slots : List (Slot σ α β)) (h : Window.advanceFirst start w slots = none) :
      ∀ s ∈ slots, s.isFresh = false := by
    induction slots with
    | nil => exact fun s hs => absurd hs List.not_mem_nil
    | cons slot rest ih =>
        simp only [Window.advanceFirst] at h
        split at h
        · cases h
        · rename_i hslot
          intro s hs
          rcases List.mem_cons.1 hs with rfl | hs
          · exact not_isFresh_of_advance hslot
          · exact ih (Option.map_eq_none_iff.1 h) s hs
  exact hnone v.slots (Option.map_eq_none_iff.1 ha)

/-- Only the oldest job is taken, when it is over. -/
theorem slots_of_take? {v v' : Window σ α β} {o : α × Except StoreError β}
    (h : v.take? = some (o, v')) :
    v.slots = .landed o.1 o.2 :: v'.slots ∧ v'.waiting = v.waiting := by
  obtain ⟨limit, waiting, slots⟩ := v
  cases slots with
  | nil => cases h
  | cons slot rest =>
      cases slot with
      | fresh job => cases h
      | flying job f => cases h
      | landed job outcome =>
          cases h
          exact ⟨rfl, rfl⟩

/-- Entering the window is no move in the line. -/
theorem line_refill (m : Moment σ α β) :
    line { m with window := m.window.refill } = m.line := by
  have hwaiting : (m.window.waiting.take (max 1 m.window.limit - m.window.slots.length)).map
        (Slot.fresh : α → Slot σ α β) ++
      (m.window.waiting.drop (max 1 m.window.limit - m.window.slots.length)).map .fresh =
      m.window.waiting.map .fresh := by
    rw [← List.map_append, List.take_append_drop]
  simp only [line, Window.refill, List.append_assoc, hwaiting]

/-- Being taken is no move in the line either. -/
theorem line_take {m : Moment σ α β} {o : α × Except StoreError β} {v : Window σ α β}
    (h : m.window.take? = some (o, v)) :
    line { m with taken := m.taken ++ [o], window := v } = m.line := by
  obtain ⟨hslots, hwaiting⟩ := slots_of_take? h
  simp [line, hslots, hwaiting]

/-- One job goes on in its place in the window, behind jobs that cannot. -/
theorem line_advance {start : α → World σ → Status σ β × World σ} {m : Moment σ α β}
    {v : Window σ α β} {w : World σ} (h : m.window.advance start m.world = some (v, w)) :
    ∃ pre s post t, m.line = pre ++ s :: post ∧
      line { m with window := v, world := w } = pre ++ t :: post ∧
      s.advance start m.world = some (t, w) ∧ s ∈ m.window.slots ∧
      pre.length < m.taken.length + m.window.slots.length ∧ ∀ u ∈ pre, u.isFresh = false := by
  obtain ⟨⟨slots, u⟩, hs, he⟩ := Option.map_eq_some_iff.1 h
  cases he
  obtain ⟨pre, s, post, t, hslots, hslots', hadv, hpre⟩ := advanceFirst_split hs
  have hslots' : slots = pre ++ t :: post := hslots'
  refine ⟨m.taken.map (fun o => .landed o.1 o.2) ++ pre, s,
    post ++ m.window.waiting.map .fresh, t, ?_, ?_, hadv, ?_, ?_, ?_⟩
  · simp [line, hslots]
  · simp [line, hslots']
  · rw [hslots]
    exact List.mem_append_right _ List.mem_cons_self
  · rw [hslots, List.length_append, List.length_append, List.length_map, List.length_cons]
    omega
  · intro u hu
    rcases List.mem_append.1 hu with hu | hu
    · obtain ⟨o, -, rfl⟩ := List.mem_map.1 hu
      rfl
    · exact not_isFresh_of_advance (hpre u hu)

/-- **What a moment does to the line.** It leaves the line alone, and at most lets the world wait,
if there are jobs that do; or one job in it goes on, behind jobs that were all started before. -/
theorem Next.line_cases {start : α → World σ → Status σ β × World σ} {m m' : Moment σ α β}
    (h : Next start m m') :
    (m'.line = m.line ∧ m.world.Waits m'.world ∧
      ((∀ s ∈ m.line, s.isFlying = false) → m'.world = m.world)) ∨
    ∃ pre s post t, m.line = pre ++ s :: post ∧ m'.line = pre ++ t :: post ∧
      s.advance start m.world = some (t, m'.world) ∧ s ∈ m.window.slots ∧
      ∀ u ∈ pre, u.isFresh = false := by
  cases h with
  | enter => exact .inl ⟨m.line_refill, .refl _, fun _ => rfl⟩
  | take htake => exact .inl ⟨line_take htake, .refl _, fun _ => rfl⟩
  | advance _ ha =>
      obtain ⟨pre, s, post, t, hline, hline', hadv, hslot, -, hpre⟩ := line_advance ha
      exact .inr ⟨pre, s, post, t, hline, hline', hadv, hslot, hpre⟩
  | elapse hne ht ha =>
      refine .inl ⟨rfl, m.world.waits_elapse _, fun hnone => ?_⟩
      obtain ⟨job, f, rest, hslots⟩ := flying_of_stuck hne ht ha
      have hidle := hnone (.flying job f) (by simp [line, hslots])
      cases hidle

/-- When no job can go on, those that were not started wait for a place in the window. -/
theorem waiting_of_fresh {start : α → World σ → Status σ β × World σ} {m : Moment σ α β}
    (ha : m.window.advance start m.world = none) {i : Nat} {a : Slot σ α β}
    (hi : m.line[i]? = some a) (hfresh : a.isFresh = true) :
    m.taken.length + m.window.slots.length ≤ i ∧ m.window.waiting ≠ [] := by
  have hlen : (m.taken.map (fun o => (.landed o.1 o.2 : Slot σ α β)) ++ m.window.slots).length =
      m.taken.length + m.window.slots.length := by simp
  by_cases hlt : i < m.taken.length + m.window.slots.length
  · -- Whoever stands there was started.
    rw [line, List.getElem?_append_left (by rw [hlen]; exact hlt)] at hi
    rcases List.mem_append.1 (List.mem_of_getElem? hi) with hmem | hmem
    · obtain ⟨o, -, rfl⟩ := List.mem_map.1 hmem
      cases hfresh
    · rw [not_isFresh_of_stuck ha a hmem] at hfresh
      cases hfresh
  · refine ⟨Nat.le_of_not_lt hlt, fun hnone => ?_⟩
    rw [line, hnone, List.map_nil, List.append_nil,
      List.getElem?_eq_none (by rw [hlen]; exact Nat.le_of_not_lt hlt)] at hi
    cases hi

/-- A window into which nobody enters although jobs wait is full. -/
theorem full_of_refill {v : Window σ α β} (hfull : v.refill = v) (hwaiting : v.waiting ≠ []) :
    max 1 v.limit ≤ v.slots.length := by
  have hlen : v.waiting.length - (max 1 v.limit - v.slots.length) = v.waiting.length := by
    have := congrArg (fun v => v.waiting.length) hfull
    simpa [Window.refill] using this
  have hpos := List.length_pos_iff.2 hwaiting
  omega

@[simp] theorem line_mk (limit : Nat) (jobs : List α) (w : World σ) :
    (⟨[], ⟨limit, jobs, []⟩, w⟩ : Moment σ α β).line = jobs.map .fresh := by
  simp [line]

theorem line_done (taken : List (α × Except StoreError β)) (limit : Nat) (w : World σ) :
    (⟨taken, ⟨limit, [], []⟩, w⟩ : Moment σ α β).line = taken.map fun o => .landed o.1 o.2 := by
  simp [line]

theorem Next.limit {start : α → World σ → Status σ β × World σ} {m m' : Moment σ α β}
    (h : Next start m m') : m'.window.limit = m.window.limit := by
  cases h with
  | enter => rfl
  | take htake => exact limit_of_take? htake
  | advance _ hadv => exact limit_of_advance hadv
  | elapse => rfl

/-- There are never more jobs in the window than its limit allows. -/
theorem Next.room {start : α → World σ → Status σ β × World σ} {m m' : Moment σ α β}
    (h : Next start m m') (hm : m.window.slots.length ≤ max 1 m.window.limit) :
    m'.window.slots.length ≤ max 1 m'.window.limit := by
  rw [h.limit]
  cases h with
  | enter =>
      simp only [Window.refill, List.length_append, List.length_map, List.length_take]
      omega
  | @take o v htake =>
      rw [(slots_of_take? htake).1] at hm
      exact Nat.le_trans (Nat.le_succ _) hm
  | @advance v w _ hadv =>
      obtain ⟨⟨slots, u⟩, hs, he⟩ := Option.map_eq_some_iff.1 hadv
      cases he
      have hlen : slots.length = m.window.slots.length := by
        simpa using congrArg List.length (Window.advanceFirst_eq_some hs).1
      show slots.length ≤ _
      rw [hlen]
      exact hm
  | elapse => exact hm

/-- Jobs are started in their order: whoever was not started has only such jobs behind. -/
theorem Next.ordered {start : α → World σ → Status σ β × World σ} {m m' : Moment σ α β}
    (h : Next start m m')
    (hm : m.line.Pairwise fun a b => a.isFresh = true → b.isFresh = true) :
    m'.line.Pairwise fun a b => a.isFresh = true → b.isFresh = true := by
  rcases h.line_cases with ⟨hline, -⟩ | ⟨pre, s, post, t, hline, hline', hadv, -, hpre⟩
  · rw [hline]
    exact hm
  · rw [hline, List.pairwise_append] at hm
    rw [hline', List.pairwise_append]
    have ht : t.isFresh = false := (Window.Slot.advance_eq_some hadv).2.1
    refine ⟨hm.1, List.pairwise_cons.2 ⟨?_, (List.pairwise_cons.1 hm.2.1).2⟩, ?_⟩
    · intro b _ hfresh
      rw [ht] at hfresh
      cases hfresh
    · intro a ha b _ hfresh
      rw [hpre a ha] at hfresh
      cases hfresh

/-- A change in one place of a line is none in any other. -/
theorem getElem?_of_ne {pre post : List (Slot σ α β)} {i : Nat} (hi : i ≠ pre.length)
    (a b : Slot σ α β) : (pre ++ a :: post)[i]? = (pre ++ b :: post)[i]? := by
  rcases Nat.lt_or_gt_of_ne hi with hlt | hgt
  · rw [List.getElem?_append_left hlt, List.getElem?_append_left hlt]
  · obtain ⟨k, rfl⟩ : ∃ k, i = pre.length + (k + 1) := ⟨i - pre.length - 1, by omega⟩
    rw [List.getElem?_append_right (by omega), List.getElem?_append_right (by omega),
      Nat.add_sub_cancel_left, List.getElem?_cons_succ, List.getElem?_cons_succ]

/-- Whoever came to an outcome did so at some moment, in going on from its place in the line. -/
theorem Reaches.landed_origin {start : α → World σ → Status σ β × World σ} {m m' : Moment σ α β}
    (h : Reaches start m m') (hfirst : ∀ s ∈ m.line, s.isFresh = true) {i : Nat} {job : α}
    {o : Except StoreError β} (hi : m'.line[i]? = some (.landed job o)) :
    ∃ m₀ s w, Reaches start m m₀ ∧ m₀.line[i]? = some s ∧
      s.advance start m₀.world = some (.landed job o, w) := by
  induction h with
  | refl =>
      have := hfirst _ (List.mem_of_getElem? hi)
      cases this
  | @tail b c hreach hnext ih =>
      rcases hnext.line_cases with ⟨hline, -⟩ | ⟨pre, s, post, t, hline, hline', hadv, -, -⟩
      · rw [hline] at hi
        exact ih hi
      · by_cases hpos : i = pre.length
        · subst hpos
          have ht : t = .landed job o := by simpa [hline'] using hi
          exact ⟨b, s, c.world, hreach, by simp [hline], by rw [hadv, ht]⟩
        · -- Another place in the line: nothing has changed there.
          apply ih
          rw [hline, getElem?_of_ne hpos s t, ← hline']
          exact hi

end Moment

/-! ## Invariants of what jobs do -/

/-- The outcome of a job that came to one. -/
def Slot.outcome? : Slot σ α β → Option (α × Except StoreError β)
  | landed job outcome => some (job, outcome)
  | _ => none

theorem Slot.outcome?_of_advance {start : α → World σ → Status σ β × World σ}
    {a b : Slot σ α β} {w w' : World σ} (h : a.advance start w = some (b, w')) :
    a.outcome? = none := by
  cases a with
  | fresh job => rfl
  | flying job f => rfl
  | landed job outcome => cases h

/-- What is known of a job's flight, if it has one. -/
def Slot.Flies (Fly : α → Flight σ β → Prop) : Slot σ α β → Prop
  | flying job f => Fly job f
  | _ => True

/-- **The rule of a window.** Let `Inv` be an invariant of the outcomes so far, in the order in
which they came, and the world, and `Fly` what is known of jobs that wait. If every job that goes on
keeps it, and waiting does, then it holds at the end of the run, whose list of outcomes is in the
order of the jobs. -/
theorem Window.exists_landings {start : α → World σ → Status σ β × World σ}
    (Fly : α → Flight σ β → Prop) (Inv : List (α × Except StoreError β) → World σ → Prop)
    (hadvance : ∀ {L} {a b : Slot σ α β} {w w'}, a.Flies Fly → Inv L w →
      a.advance start w = some (b, w') → b.Flies Fly ∧ Inv (L ++ b.outcome?.toList) w')
    (hwait : ∀ {L w w'}, Inv L w → w.Waits w' → Inv L w') (limit : Nat) (jobs : List α)
    {w : World σ} (hw : Inv [] w) :
    ∃ L, L.Perm (Window.run start ⟨limit, jobs, []⟩ w).1 ∧
      Inv L (Window.run start ⟨limit, jobs, []⟩ w).2 := by
  let I : Moment σ α β → Prop := fun m => (∀ s ∈ m.line, s.Flies Fly) ∧
    ∃ L, L.Perm (m.line.filterMap Slot.outcome?) ∧ Inv L m.world
  have hstep : ∀ m m', Moment.Next start m m' → I m → I m' := by
    intro m m' hnext ⟨hfly, L, hperm, hinv⟩
    rcases hnext.line_cases with ⟨hline, hwaits, -⟩ | ⟨pre, s, post, t, hm, hm', hadv, -, -⟩
    · exact ⟨by rw [hline]; exact hfly, L, by rw [hline]; exact hperm, hwait hinv hwaits⟩
    · -- One job goes on, and its outcome, if it came to one, is the latest.
      rw [hm] at hfly hperm
      have hnone := Slot.outcome?_of_advance hadv
      obtain ⟨hflies, hinv'⟩ := hadvance (hfly s (by simp)) hinv hadv
      refine ⟨?_, L ++ t.outcome?.toList, ?_, hinv'⟩
      · rw [hm']
        intro u hu
        rcases List.mem_append.1 hu with hu | hu
        · exact hfly u (List.mem_append_left _ hu)
        · rcases List.mem_cons.1 hu with rfl | hu
          · exact hflies
          · exact hfly u (List.mem_append_right _ (List.mem_cons_of_mem _ hu))
      · have hnew : (pre ++ t :: post).filterMap Slot.outcome? =
            pre.filterMap Slot.outcome? ++ (t.outcome?.toList ++ post.filterMap Slot.outcome?) := by
          rw [List.filterMap_append, List.filterMap_cons]
          cases t.outcome? <;> rfl
        rw [List.filterMap_append, List.filterMap_cons_none hnone] at hperm
        rw [hm', hnew]
        refine (hperm.append_right _).trans ?_
        rw [List.append_assoc]
        exact List.Perm.append_left _ List.perm_append_comm
  have hfirst : I ⟨[], ⟨limit, jobs, []⟩, w⟩ := by
    refine ⟨?_, [], ?_, hw⟩
    · intro s hs
      rw [Moment.line_mk] at hs
      obtain ⟨job, -, rfl⟩ := List.mem_map.1 hs
      trivial
    · rw [Moment.line_mk, List.filterMap_map]
      simp [Function.comp_def, Slot.outcome?]
  obtain ⟨-, L, hperm, hinv⟩ :=
    (Moment.reaches_run start ⟨limit, jobs, []⟩ w []).invariant hstep hfirst
  refine ⟨L, ?_, hinv⟩
  rw [Moment.line_done, List.filterMap_map] at hperm
  simpa [Function.comp_def, Slot.outcome?] using hperm

end Delivery
