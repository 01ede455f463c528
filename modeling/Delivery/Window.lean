import Delivery.Flight

/-!
# A window of calls

Jobs are worked off through a window: at most `limit` of them are in it at a time, in their order.
Each is started once; the oldest job's outcome is taken as soon as it is there, and only then does
the next job enter. A younger job that is over keeps its place until its turn. Of the jobs that can
go on, the oldest goes first; when none can, time moves.

`Window.run` yields the outcomes in the order of the jobs, one for each (`Window.map_run`).
-/

namespace Delivery

variable {σ α β : Type}

/-- A job in the window. -/
inductive Slot (σ α β : Type) where
  /-- Not started yet. -/
  | fresh (job : α)
  | flying (job : α) (f : Flight σ β)
  | landed (job : α) (outcome : Except StoreError β)

namespace Slot

/-- The job itself. -/
def job : Slot σ α β → α
  | fresh job | flying job _ | landed job _ => job

/-- True for a job that was not started yet. -/
def isFresh : Slot σ α β → Bool
  | fresh _ => true
  | _ => false

/-- True for a running job that can go on. -/
def ready (w : World σ) : Slot σ α β → Bool
  | flying _ f => f.ready w
  | _ => false

/-- The steps that a running job may still take. -/
def work : Slot σ α β → Nat
  | flying _ f => f.rest.size
  | _ => 0

/-- The timers of a running job. -/
def timers : Slot σ α β → List Instant
  | flying _ f => f.timers
  | _ => []

/-- A job after its call was looked at. -/
def ofStatus (job : α) : Status σ β → Slot σ α β
  | .landed outcome => landed job outcome
  | .flying f => flying job f

/-- Starts a job, or lets it go on; none when it cannot. -/
def advance (start : α → World σ → Status σ β × World σ) (w : World σ) (s : Slot σ α β) :
    Option (Slot σ α β × World σ) :=
  match s with
  | fresh job =>
    let (status, w) := start job w
    some (ofStatus job status, w)
  | flying job f =>
    if f.ready w then
      let (status, w) := f.poll w
      some (ofStatus job status, w)
    else none
  | landed .. => none

end Slot

/-- Jobs that wait, and those in the window, oldest first. -/
structure Window (σ α β : Type) where
  limit : Nat
  waiting : List α
  slots : List (Slot σ α β) := []

namespace Window

/-- Lets jobs enter while there is room; there always is for one. -/
def refill (v : Window σ α β) : Window σ α β :=
  let room := max 1 v.limit - v.slots.length
  { v with
    waiting := v.waiting.drop room
    slots := v.slots ++ (v.waiting.take room).map .fresh }

/-- Takes the outcome of the oldest job, if it is there. -/
def take? (v : Window σ α β) : Option ((α × Except StoreError β) × Window σ α β) :=
  match v.slots with
  | .landed job outcome :: rest => some ((job, outcome), { v with slots := rest })
  | _ => none

/-- Lets the first of some jobs that can go on do so. -/
def advanceFirst (start : α → World σ → Status σ β × World σ) (w : World σ) :
    List (Slot σ α β) → Option (List (Slot σ α β) × World σ)
  | [] => none
  | s :: rest =>
    match s.advance start w with
    | some (s, w) => some (s :: rest, w)
    | none => (advanceFirst start w rest).map fun p => (s :: p.1, p.2)

/-- Lets the oldest job that can go on do so. -/
def advance (start : α → World σ → Status σ β × World σ) (v : Window σ α β) (w : World σ) :
    Option (Window σ α β × World σ) :=
  (advanceFirst start w v.slots).map fun p => ({ v with slots := p.1 }, p.2)

/-- The timers of the running jobs. -/
def timers (v : Window σ α β) : List Instant := v.slots.flatMap Slot.timers

/-- All jobs whose outcome was not taken yet. -/
def jobs (v : Window σ α β) : List α := v.slots.map Slot.job ++ v.waiting

/-! ## Progress -/

/-- How many jobs are not started yet. -/
def unstarted (v : Window σ α β) : Nat := v.waiting.length + v.slots.countP Slot.isFresh

/-- The steps that some running jobs may still take. -/
def workOf : List (Slot σ α β) → Nat
  | [] => 0
  | s :: rest => s.work + workOf rest

/-- The steps that the running jobs may still take. -/
def work (v : Window σ α β) : Nat := workOf v.slots

/-- True when a running job can go on. -/
def ready (v : Window σ α β) (w : World σ) : Bool := v.slots.any (Slot.ready w)

/-- What is left to do before the running jobs are over. -/
def effort (v : Window σ α β) (w : World σ) : Nat :=
  2 * (v.work + w.agenda.size) + if v.ready w then 0 else 1

section Progress

variable {start : α → World σ → Status σ β × World σ} {v v' : Window σ α β} {w w' : World σ}

@[simp] theorem jobs_refill (v : Window σ α β) : v.refill.jobs = v.jobs := by
  simp only [refill, jobs, List.map_append, List.map_map, List.append_assoc]
  congr 1
  rw [show Slot.job ∘ (Slot.fresh : α → Slot σ α β) = id from rfl, List.map_id]
  exact List.take_append_drop _ _

theorem unstarted_refill (v : Window σ α β) : v.refill.unstarted = v.unstarted := by
  have hfresh (l : List α) :
      (l.map (Slot.fresh : α → Slot σ α β)).countP Slot.isFresh = l.length := by
    simp [List.countP_map, Function.comp_def, Slot.isFresh]
  simp only [refill, unstarted, List.countP_append, hfresh, List.length_drop, List.length_take]
  omega

theorem work_refill (v : Window σ α β) : v.refill.work = v.work := by
  have hfresh (s : List (Slot σ α β)) (l : List α) : workOf (s ++ l.map .fresh) = workOf s := by
    induction s with
    | nil =>
      induction l with
      | nil => rfl
      | cons a l ih => simpa [workOf, Slot.work] using ih
    | cons t s ih => simp only [List.cons_append, workOf, ih]
  exact hfresh v.slots _

theorem ready_refill (v : Window σ α β) (w : World σ) : v.refill.ready w = v.ready w := by
  have hfresh (l : List α) : (l.map (Slot.fresh : α → Slot σ α β)).any (Slot.ready w) = false := by
    simp [Slot.ready]
  simp only [ready, refill, List.any_append, hfresh, Bool.or_false]

theorem effort_refill (v : Window σ α β) (w : World σ) : v.refill.effort w = v.effort w := by
  simp only [effort, work_refill, ready_refill]

theorem jobs_of_take? {taken : α × Except StoreError β} (h : v.take? = some (taken, v')) :
    v.jobs = taken.1 :: v'.jobs := by
  obtain ⟨limit, waiting, slots⟩ := v
  match slots with
  | [] => cases h
  | .fresh _ :: _ => cases h
  | .flying .. :: _ => cases h
  | .landed job outcome :: rest =>
    cases h
    rfl

/-- Going on keeps the job, and starts it or leaves fewer steps. -/
theorem Slot.advance_eq_some {s t : Slot σ α β} (h : s.advance start w = some (t, w')) :
    t.job = s.job ∧ t.isFresh = false ∧
      (s.isFresh = true ∨ s.isFresh = false ∧ t.work < s.work ∧ w'.agenda = w.agenda) := by
  cases s with
  | fresh job =>
    simp only [Slot.advance, Option.some.injEq, Prod.mk.injEq] at h
    obtain ⟨rfl, -⟩ := h
    cases (start job w).1 <;> simp [Slot.ofStatus, Slot.job, Slot.isFresh]
  | flying job f =>
    simp only [Slot.advance] at h
    split at h
    · rename_i hr
      generalize hp : f.poll w = p at h
      obtain ⟨status, u⟩ := p
      simp only [Option.some.injEq, Prod.mk.injEq] at h
      obtain ⟨rfl, rfl⟩ := h
      have hagenda : u.agenda = w.agenda := by rw [← Flight.poll_agenda f w, hp]
      cases status with
      | landed outcome => exact ⟨rfl, rfl, .inr ⟨rfl, f.rest.size_pos, hagenda⟩⟩
      | flying g => exact ⟨rfl, rfl, .inr ⟨rfl, Flight.size_lt_of_poll hr hp, hagenda⟩⟩
    · cases h
  | landed job outcome => cases h

theorem advanceFirst_eq_some {slots slots' : List (Slot σ α β)}
    (h : advanceFirst start w slots = some (slots', w')) :
    slots'.map Slot.job = slots.map Slot.job ∧
      (slots'.countP Slot.isFresh < slots.countP Slot.isFresh ∨
        slots'.countP Slot.isFresh = slots.countP Slot.isFresh ∧
          workOf slots' < workOf slots ∧ w'.agenda = w.agenda) := by
  induction slots generalizing slots' with
  | nil => cases h
  | cons s rest ih =>
    simp only [advanceFirst] at h
    split at h
    · -- The first job went on.
      rename_i t u hs
      cases h
      obtain ⟨hjob, hfresh, hcase⟩ := Slot.advance_eq_some hs
      refine ⟨by simp [hjob], ?_⟩
      rcases hcase with hnew | ⟨hold, hwork, hagenda⟩
      · left; simp [hfresh, hnew]
      · right
        refine ⟨by simp [hfresh, hold], ?_, hagenda⟩
        simp only [workOf]
        omega
    · -- One of the later jobs did.
      obtain ⟨⟨l, u⟩, hl, he⟩ := Option.map_eq_some_iff.1 h
      cases he
      obtain ⟨hjob, hcase⟩ := ih hl
      refine ⟨by simp [hjob], ?_⟩
      simp only [List.countP_cons, workOf]
      rcases hcase with hlt | ⟨heq, hwork, hagenda⟩
      · left; omega
      · exact .inr ⟨by omega, by omega, hagenda⟩

theorem advance_eq_some (h : v.advance start w = some (v', w')) :
    v'.jobs = v.jobs ∧
      (v'.unstarted < v.unstarted ∨ v'.unstarted = v.unstarted ∧ v'.effort w' < v.effort w) := by
  obtain ⟨⟨slots, u⟩, hs, he⟩ := Option.map_eq_some_iff.1 h
  cases he
  obtain ⟨hjob, hcase⟩ := advanceFirst_eq_some hs
  refine ⟨by simp [jobs, hjob], ?_⟩
  rcases hcase with hlt | ⟨heq, hwork, hagenda⟩
  · left; simpa [unstarted] using hlt
  · right
    refine ⟨by simp [unstarted, heq], ?_⟩
    simp only [effort, work, hagenda]
    split <;> split <;> omega

theorem ready_of_advanceFirst {slots : List (Slot σ α β)} (h : advanceFirst start w slots = none) :
    slots.any (Slot.ready w) = false := by
  induction slots with
  | nil => rfl
  | cons s rest ih =>
    simp only [advanceFirst] at h
    split at h
    · cases h
    · rename_i hs
      rw [List.any_cons, ih (by simpa using h), Bool.or_false]
      cases s with
      | flying job f =>
        simp only [Slot.advance] at hs
        split at hs
        · cases hs
        · rename_i hr; simpa [Slot.ready] using hr
      | _ => rfl

/-- When nothing can be taken and no job can go on, the oldest job waits for a timer. -/
theorem timers_ne_nil (hne : v.slots ≠ []) (ht : v.take? = none) (ha : v.advance start w = none) :
    v.timers ≠ [] := by
  obtain ⟨limit, waiting, slots⟩ := v
  match slots with
  | [] => exact absurd rfl hne
  | .fresh job :: _ => simp [advance, advanceFirst, Slot.advance] at ha
  | .landed .. :: _ => simp [take?] at ht
  | .flying job f :: rest => simp [timers, Slot.timers, Flight.timers]

/-- Letting time move brings a cancellation or lets a job go on. -/
theorem effort_elapse_lt (hne : v.slots ≠ []) (ht : v.take? = none)
    (ha : v.advance start w = none) : v.effort (w.elapse v.timers) < v.effort w := by
  have hstuck : v.ready w = false :=
    @ready_of_advanceFirst σ α β start w v.slots (by simpa [advance] using ha)
  have hle := w.size_agenda_elapse_le v.timers
  simp only [effort, hstuck]
  rcases w.elapse_progress v.timers (timers_ne_nil hne ht ha) with hlt | ⟨t, hmem, hdue⟩
  · split <;> simp <;> omega
  · have : v.ready (w.elapse v.timers) = true := by
      obtain ⟨s, hs, hst⟩ := List.mem_flatMap.1 hmem
      refine List.any_eq_true.2 ⟨s, hs, ?_⟩
      cases s with
      | flying job f => exact Flight.ready_of_timer hst hdue
      | _ => cases hst
    simp only [this]
    simp
    omega

end Progress

/-- Works off all jobs: their outcomes, in order. -/
def run (start : α → World σ → Status σ β × World σ) (v : Window σ α β) (w : World σ) :
    List (α × Except StoreError β) × World σ :=
  if _hne : v.refill.slots = [] then ([], w)
  else match _ht : v.refill.take? with
    -- The oldest job is over; its place goes to the next one.
    | some (taken, rest) =>
      let (outcomes, w) := run start rest w
      (taken :: outcomes, w)
    | none =>
      match _ha : v.refill.advance start w with
      | some (v', w') => run start v' w'
      -- All running jobs wait, the oldest among them.
      | none => run start v.refill (w.elapse v.refill.timers)
termination_by (v.jobs.length, v.unstarted, v.effort w)
decreasing_by
  -- A job was taken: there are fewer of them.
  · have := congrArg List.length (jobs_of_take? _ht)
    rw [jobs_refill, List.length_cons] at this
    exact Prod.Lex.left _ _ (by omega)
  -- A job went on: it was started, or it has fewer steps to take.
  · obtain ⟨hjobs, hcase⟩ := advance_eq_some _ha
    rw [jobs_refill] at hjobs
    rw [unstarted_refill, effort_refill] at hcase
    rw [hjobs]
    refine Prod.Lex.right _ ?_
    rcases hcase with hlt | ⟨heq, hlt⟩
    · exact Prod.Lex.left _ _ hlt
    · rw [heq]; exact Prod.Lex.right _ hlt
  -- Time moved: a cancellation came, or a job can go on now.
  · have := effort_elapse_lt _hne _ht _ha
    rw [effort_refill v w] at this
    rw [jobs_refill, unstarted_refill]
    exact Prod.Lex.right _ (Prod.Lex.right _ this)

/-- Every job has one outcome, and the outcomes come in the order of the jobs. -/
theorem map_run (start : α → World σ → Status σ β × World σ) (v : Window σ α β) (w : World σ) :
    (v.run start w).1.map Prod.fst = v.jobs := by
  fun_induction run start v w with
  | case1 v w hne =>
    -- Nothing entered although there is room, so nothing waits.
    obtain ⟨hslots, htake⟩ := List.append_eq_nil_iff.1 hne
    have hwaiting : v.waiting = [] := by
      have hlen : (v.waiting.take (max 1 v.limit - v.slots.length)).length = 0 := by
        simpa using congrArg List.length htake
      rw [hslots, List.length_take] at hlen
      exact List.length_eq_zero_iff.1 (by simp only [List.length_nil] at hlen; omega)
    simp [jobs, hslots, hwaiting]
  | case2 v w hne taken rest ht outcomes w' hrec ih =>
    rw [hrec] at ih
    rw [List.map_cons, ih, ← jobs_of_take? ht, jobs_refill]
  | case3 v w hne ht v' w' ha ih => rw [ih, (advance_eq_some ha).1, jobs_refill]
  | case4 v w hne ht ha ih => rw [ih, jobs_refill]

end Window

end Delivery
