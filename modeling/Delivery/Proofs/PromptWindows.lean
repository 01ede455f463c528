import Delivery.Proofs.Moments

/-!
# Windows of prompt jobs

When every job is over as soon as it is started, nothing is left of the window: its jobs are worked
off one after another, in their order and whatever the limit is (`Window.run_prompt`).
-/

namespace Delivery

variable {σ α β : Type}

/-- Waits for a call that was started to end. -/
def Status.land : Status σ β × World σ → Except StoreError β × World σ
  | (.landed outcome, w) => (outcome, w)
  | (.flying f, w) => f.land w

/-- Works jobs off one after another: each is started when the one before is over. -/
def Window.oneByOne (start : α → World σ → Status σ β × World σ) :
    List α → World σ → List (α × Except StoreError β) × World σ
  | [], w => ([], w)
  | job :: rest, w =>
    let (outcome, w) := Status.land (start job w)
    let (outcomes, w) := oneByOne start rest w
    ((job, outcome) :: outcomes, w)

/-- Every job is over as soon as it is started. -/
def Immediate (start : α → World σ → Status σ β × World σ) : Prop :=
  ∀ job w, ∃ outcome w', start job w = (.landed outcome, w')

variable {start : α → World σ → Status σ β × World σ}

theorem Window.oneByOne_append (jobs more : List α) (w : World σ) :
    oneByOne start (jobs ++ more) w =
      ((oneByOne start jobs w).1 ++ (oneByOne start more (oneByOne start jobs w).2).1,
        (oneByOne start more (oneByOne start jobs w).2).2) := by
  induction jobs generalizing w with
  | nil => rfl
  | cons job rest ih => simp only [List.cons_append, oneByOne, ih]

/-- Where a line of jobs that are over or not started can go on. -/
theorem Moment.eq_of_append_cons_eq {pre post : List (Slot σ α β)} {a : Slot σ α β}
    {done : List (α × Except StoreError β)} {todo : List α}
    (h : pre ++ a :: post = done.map (fun o => .landed o.1 o.2) ++ todo.map .fresh)
    (hpre : ∀ u ∈ pre, u.isFresh = false) (ha : a.outcome? = none) :
    ∃ job rest, todo = job :: rest ∧ a = .fresh job ∧ post = rest.map .fresh ∧
      pre = done.map fun o => .landed o.1 o.2 := by
  have hpost (l : List (Slot σ α β)) (ts : List α) (h : a :: l = ts.map .fresh) :
      ∃ job rest, ts = job :: rest ∧ a = .fresh job ∧ l = rest.map .fresh := by
    cases ts with
    | nil => cases h
    | cons job rest =>
        obtain ⟨rfl, rfl⟩ := List.cons.inj h
        exact ⟨job, rest, rfl, rfl, rfl⟩
  rcases List.append_eq_append_iff.1 h with ⟨as, hdone, hrest⟩ | ⟨bs, hpre', hrest⟩
  · cases as with
    | nil =>
        obtain ⟨job, rest, htodo, hjob, hpost⟩ := hpost post todo hrest
        exact ⟨job, rest, htodo, hjob, hpost, by rw [hdone, List.append_nil]⟩
    | cons b as =>
        -- What goes on is not over.
        obtain ⟨rfl, -⟩ := List.cons.inj hrest
        have hmem : a ∈ done.map fun o => (.landed o.1 o.2 : Slot σ α β) := by simp [hdone]
        obtain ⟨o, -, rfl⟩ := List.mem_map.1 hmem
        cases ha
  · cases bs with
    | nil =>
        obtain ⟨job, rest, htodo, hjob, hpost⟩ := hpost post todo hrest.symm
        exact ⟨job, rest, htodo, hjob, hpost, by rw [hpre', List.append_nil]⟩
    | cons b bs =>
        -- Whatever stands before it was started.
        have hmem : b ∈ todo.map (.fresh : α → Slot σ α β) := by simp [hrest]
        obtain ⟨job, -, rfl⟩ := List.mem_map.1 hmem
        have hfresh := hpre (.fresh job) (by simp [hpre'])
        cases hfresh

/-- At a moment the first jobs are over, with some outcomes, and the others were not started. -/
def Moment.Lined (m : Moment σ α β) (done : List (α × Except StoreError β)) (todo : List α) :
    Prop :=
  m.line = done.map (fun o => .landed o.1 o.2) ++ todo.map .fresh

/-- Either nothing happens to prompt jobs, or the next one is started and over. -/
theorem Moment.Lined.next (hstart : Immediate start) {m m' : Moment σ α β}
    {done : List (α × Except StoreError β)} {todo : List α} (hm : m.Lined done todo)
    (hnext : Next start m m') :
    m'.Lined done todo ∧ m'.world = m.world ∨
    ∃ job rest outcome, todo = job :: rest ∧
      start job m.world = (.landed outcome, m'.world) ∧
      m'.Lined (done ++ [(job, outcome)]) rest := by
  rcases hnext.line_cases with
    ⟨hline', -, hworld⟩ | ⟨pre, a, post, b, hline, hline', hadv, -, hpre⟩
  · have hidle : ∀ a ∈ m.line, a.isFlying = false := by
      intro a ha
      rw [hm] at ha
      rcases List.mem_append.1 ha with ha | ha
      · obtain ⟨o, -, rfl⟩ := List.mem_map.1 ha
        rfl
      · obtain ⟨job, -, rfl⟩ := List.mem_map.1 ha
        rfl
    exact .inl ⟨hline'.trans hm, hworld hidle⟩
  · obtain ⟨job, rest, rfl, rfl, rfl, rfl⟩ :=
      eq_of_append_cons_eq (hline.symm.trans hm) hpre (Slot.outcome?_of_advance hadv)
    obtain ⟨outcome, w', hjob⟩ := hstart job m.world
    rw [Slot.advance, hjob] at hadv
    obtain ⟨rfl, rfl⟩ := Prod.mk.inj (Option.some.inj hadv)
    refine .inr ⟨job, rest, outcome, rfl, hjob, ?_⟩
    rw [Lined, hline', List.map_append, List.append_assoc]
    rfl

/-- When all outcomes were taken, no job is left. -/
theorem Moment.Lined.eq_of_done {done outcomes : List (α × Except StoreError β)} {todo : List α}
    {limit : Nat} {w : World σ}
    (h : Moment.Lined ⟨outcomes, ⟨limit, [], []⟩, w⟩ done todo) : todo = [] ∧ done = outcomes := by
  rw [Lined, Moment.line_done] at h
  have htodo : todo = [] := by
    cases todo with
    | nil => rfl
    | cons job rest =>
        have hmem : (.fresh job : Slot σ α β) ∈
            outcomes.map fun o => (.landed o.1 o.2 : Slot σ α β) := by
          rw [h]
          simp
        obtain ⟨o, -, ho⟩ := List.mem_map.1 hmem
        cases ho
  subst htodo
  have houtcomes := congrArg (List.filterMap Slot.outcome?) h
  have houtcomes : outcomes = done := by
    simpa [List.filterMap_map, Function.comp_def, Slot.outcome?] using houtcomes
  exact ⟨rfl, houtcomes.symm⟩

/-- At a moment the first jobs are over, as they are one after another, and the others were not
started. -/
def Moment.OneByOne (start : α → World σ → Status σ β × World σ) (jobs : List α) (w : World σ)
    (m : Moment σ α β) : Prop :=
  ∃ (done : List (α × Except StoreError β)) (todo : List α),
    m.line = done.map (fun o => .landed o.1 o.2) ++ todo.map .fresh ∧
    done.map Prod.fst ++ todo = jobs ∧
    Window.oneByOne start (done.map Prod.fst) w = (done, m.world)

theorem Moment.OneByOne.next (hstart : Immediate start) {jobs : List α} {w : World σ}
    {m m' : Moment σ α β} (hm : m.OneByOne start jobs w) (hnext : Next start m m') :
    m'.OneByOne start jobs w := by
  obtain ⟨done, todo, hlined, hjobs, hdone⟩ := hm
  rcases Lined.next hstart hlined hnext with ⟨hlined', hworld⟩ | ⟨job, rest, outcome, rfl, hjob, h⟩
  · exact ⟨done, todo, hlined', hjobs, by rw [hworld]; exact hdone⟩
  · refine ⟨done ++ [(job, outcome)], rest, h, ?_, ?_⟩
    · rw [List.map_append, List.append_assoc]
      exact hjobs
    · rw [List.map_append, List.map_singleton, Window.oneByOne_append, hdone]
      simp only [Window.oneByOne, hjob, Status.land]

/-- When all outcomes are there, they are those of the jobs one after another. -/
theorem Moment.OneByOne.eq_of_done {jobs : List α} {w w' : World σ} {limit : Nat}
    {outcomes : List (α × Except StoreError β)}
    (h : Moment.OneByOne start jobs w ⟨outcomes, ⟨limit, [], []⟩, w'⟩) :
    Window.oneByOne start jobs w = (outcomes, w') := by
  obtain ⟨done, todo, hlined, hjobs, hdone⟩ := h
  obtain ⟨rfl, rfl⟩ := Lined.eq_of_done hlined
  rw [List.append_nil] at hjobs
  rw [← hjobs, hdone]

/-- **Prompt jobs are worked off one after another**, whatever the limit of the window is. -/
theorem Window.run_prompt (hstart : Immediate start) (limit : Nat) (jobs : List α)
    (w : World σ) : run start ⟨limit, jobs, []⟩ w = oneByOne start jobs w := by
  have hfirst : Moment.OneByOne start jobs w ⟨[], ⟨limit, jobs, []⟩, w⟩ :=
    ⟨[], jobs, Moment.line_mk _ _ _, rfl, rfl⟩
  have hlast := (Moment.reaches_run start ⟨limit, jobs, []⟩ w []).invariant
    (fun m m' hnext hm => hm.next hstart hnext) hfirst
  exact hlast.eq_of_done.symm

end Delivery
