import Mathlib.Data.List.Basic
import Delivery.Proofs.Accounting
import Delivery.Proofs.PromptStore
import Delivery.Proofs.VirtualClock

/-!
# Every write gets its whole timeout

When no write comes to an answer within the timeout of a call, the writes of a cascade follow a
timetable: as many as the window holds begin together, and the next ones when those are over. Each
has the whole timeout, however long it stood in line (`Timetable.begins`).

* `Timetable.OnTime.next` — no step of the window leaves the timetable;
* `Timetable.write_slow` — the writes of a cascade, from the first to the last.
-/

namespace Delivery

variable {σ : Type}

/-- When writes begin, how long each of them may take, and how many are under way at once. -/
structure Timetable where
  start : Instant
  timeout : Duration
  limit : Nat

namespace Timetable

variable {t : Timetable}

/-- When the write with a number begins, counted from zero. -/
def begins (t : Timetable) (i : Nat) : Instant := t.start + i / t.limit * t.timeout

/-- The deadline of the write with a number: the whole timeout after it begins. -/
def deadline (t : Timetable) (i : Nat) : Deadline := ⟨t.begins i + t.timeout, t.begins i⟩

/-- When a number of writes is over: after as many timeouts as there are windows full of them, the
last one perhaps not quite. -/
def ends (t : Timetable) (count : Nat) : Instant :=
  t.start + (count + t.limit - 1) / t.limit * t.timeout

theorem begins_of_lt {i : Nat} (hi : i < t.limit) : t.begins i = t.start := by
  rw [begins, Nat.div_eq_of_lt hi, Nat.zero_mul]
  rfl

theorem begins_add_limit (hlimit : 0 < t.limit) (i : Nat) :
    t.begins (i + t.limit) = t.begins i + t.timeout := by
  rw [begins, begins, Nat.add_div_right i hlimit, Nat.succ_mul]
  exact (Nat.add_assoc _ _ _).symm

theorem begins_mono {i j : Nat} (hij : i ≤ j) : t.begins i ≤ t.begins j :=
  Nat.add_le_add_left (Nat.mul_le_mul_right _ (Nat.div_le_div_right hij)) _

/-- The last write is the last to be over. -/
theorem ends_succ (hlimit : 0 < t.limit) (last : Nat) :
    t.ends (last + 1) = t.begins last + t.timeout := by
  have hsub : last + 1 + t.limit - 1 = last + t.limit := by omega
  rw [ends, hsub, ← begins_add_limit hlimit]
  rfl

/-! ## On time -/

/-- A timetable fits a service and a context that cannot end: it has the service's limit and
timeout, and the creator sleeps through all of it. -/
structure Fits (t : Timetable) (s : Service σ) (context : Context) : Prop where
  limit_pos : 0 < t.limit
  timeout_pos : 0 < t.timeout
  start_whole : t.start.Whole
  timeout_whole : Instant.Whole t.timeout
  limit : s.config.maxConcurrentWrites = t.limit
  timeout : s.config.callTimeout = some t.timeout
  endless : context.deadline = none
  slow : ∀ p state, t.timeout ≤ (s.creator p state).1.delay

/-- A write keeps to the timetable at an instant: it does not begin late, and it is ended by its
deadline and nothing else. -/
inductive Keeps (t : Timetable) (token : TokenId) (now : Instant) (i : Nat) :
    Slot σ Promotion Unit → Prop
  | fresh {p} : now ≤ t.begins i → Keeps t token now i (.fresh p)
  | flying {p f} : f.context.token = token → f.Slow (t.deadline i) now → t.begins i ≤ now →
      now ≤ t.begins i + t.timeout → Keeps t token now i (.flying p f)
  | landed {p} : t.begins i + t.timeout ≤ now →
      Keeps t token now i (.landed p (.error (.deadlineExceeded t.timeout)))

/-- What is recorded of a write that keeps to the timetable: the creation that was asked for, when
it began, and how much time it had. -/
def entry (t : Timetable) (e : Promotion × Nat) : Request × Instant × Option Duration :=
  (.create e.1, t.begins e.2, some t.timeout)

/-- At a moment of a window all writes keep to the timetable, up to the last one. -/
structure OnTime (t : Timetable) (s : Service σ) (context : Context) (base : World σ) (last : Nat)
    (m : Moment σ Promotion Unit) : Prop where
  ledger : s.Ledger context base m
  limit : m.window.limit = t.limit
  length : m.line.length = last + 1
  whole : m.world.now.Whole
  spares : m.world.Spares context.token
  keeps : ∀ i a, m.line[i]? = some a → t.Keeps context.token m.world.now i a
  bounded : m.world.now ≤ t.begins last + t.timeout
  calls : ∃ records : List CallRecord, m.world.calls = base.calls ++ records ∧
    records.map (fun r => (r.request, r.at_, r.remaining)) = m.begun.zipIdx.map t.entry

theorem begins_whole {s : Service σ} {context : Context} (ht : t.Fits s context) (i : Nat) :
    (t.begins i).Whole :=
  ht.start_whole.add (ht.timeout_whole.mul _)

/-- A write that begins on time waits, and has the whole timeout before it. -/
theorem Fits.start {s : Service σ} {context : Context} (ht : t.Fits s context) {w : World σ}
    {i : Nat} (p : Promotion) (hnow : w.now = t.begins i)
    (hlive : w.tokens.state context.token = .live)
    (hend : t.begins i + t.timeout < Context.endOfTime) :
    ∃ f, s.startWrite context p w =
        (.flying f, s.begun ⟨context.token, some (t.deadline i)⟩ (.create p) w) ∧
      f.context.token = context.token ∧ f.Slow (t.deadline i) w.now := by
  have hcontext : s.callContext context w.now = ⟨context.token, some (t.deadline i)⟩ := by
    simp only [Service.callContext, ht.timeout, Context.withTimeout, hnow, if_pos hend,
      Context.tighten, ht.endless]
    rfl
  have hlater : w.now < (t.deadline i).at_ := by
    rw [hnow]
    exact Nat.lt_add_of_pos_right ht.timeout_pos
  have hwhole : w.now.Whole := by
    rw [hnow]
    exact begins_whole ht i
  have hslow : (t.deadline i).at_ ≤ w.now + (s.creator p w.state).1.delay := by
    rw [hnow]
    exact Nat.add_le_add_left (ht.slow p w.state) _
  obtain ⟨f, hstart, hf, hf'⟩ : ∃ f, w.start ⟨context.token, some (t.deadline i)⟩
      (s.begin ⟨context.token, some (t.deadline i)⟩ (.create p)) = (.flying f, _) ∧
      f.context = ⟨context.token, some (t.deadline i)⟩ ∧ f.Slow (t.deadline i) w.now :=
    World.start_slow hwhole hlive rfl hlater (s.begin_eq _ (.create p) w) rfl hslow
  refine ⟨f, ?_, by rw [hf], hf'⟩
  unfold Service.startWrite
  dsimp only
  rw [hcontext]
  exact hstart

/-! ## One write -/

/-- A write that is over was ended by its deadline, when that had come. -/
theorem Keeps.over {token : TokenId} {now : Instant} {i : Nat} {p : Promotion} {o : WriteOutcome}
    (h : t.Keeps token now i (.landed p o : Slot σ Promotion Unit)) :
    o = .error (.deadlineExceeded t.timeout) ∧ t.begins i + t.timeout ≤ now := by
  cases h with
  | landed hover => exact ⟨rfl, hover⟩

/-- Time passes until a write that waits for its turn begins, or one under way wakes or is over. -/
theorem Keeps.later {token : TokenId} {now now' : Instant} {i : Nat} {a : Slot σ Promotion Unit}
    (h : t.Keeps token now i a) (hle : now ≤ now') (hfresh : a.isFresh = true → now' ≤ t.begins i)
    (hflying : ∀ p f, a = .flying p f →
      now' ≤ f.until_.fires ∧ now' ≤ t.begins i + t.timeout) : t.Keeps token now' i a := by
  cases h with
  | fresh => exact .fresh (hfresh rfl)
  | flying htoken hslow hbegan _ =>
      obtain ⟨hasleep, hover⟩ := hflying _ _ rfl
      exact .flying htoken ⟨hslow.deadline, hasleep, hslow.slow⟩ (Nat.le_trans hbegan hle) hover
  | landed hover => exact .landed (Nat.le_trans hover hle)

/-- A write whose turn has come begins, and is recorded; one under way is ended by its deadline, or
sleeps on. Either takes no time. -/
theorem Keeps.advance {s : Service σ} {context : Context} (ht : t.Fits s context) {w w' : World σ}
    {i : Nat} {a b : Slot σ Promotion Unit} (h : t.Keeps context.token w.now i a)
    (hwhole : w.now.Whole) (hlive : w.tokens.state context.token = .live)
    (hend : t.begins i + t.timeout < Context.endOfTime)
    (hturn : a.isFresh = true → t.begins i ≤ w.now)
    (hadv : a.advance (s.startWrite context) w = some (b, w')) :
    t.Keeps context.token w.now i b ∧
      (w'.now = w.now ∧ w'.tokens = w.tokens ∧ w'.agenda = w.agenda) ∧
      if a.isFresh then
        ∃ r, w'.calls = w.calls ++ [r] ∧ (r.request, r.at_, r.remaining) = t.entry (a.job, i)
      else w'.calls = w.calls := by
  cases h with
  | @fresh p hsoon =>
      have hnow : w.now = t.begins i := Nat.le_antisymm hsoon (hturn rfl)
      obtain ⟨f, hstart, htoken, hslow⟩ := ht.start p hnow hlive hend
      rw [Slot.advance, hstart] at hadv
      obtain ⟨rfl, rfl⟩ := Prod.mk.inj (Option.some.inj hadv)
      refine ⟨.flying htoken hslow (Nat.le_of_eq hnow.symm) ?_, ⟨rfl, rfl, rfl⟩, _, rfl, ?_⟩
      · rw [hnow]
        exact Nat.le_add_right _ _
      · show (Request.create p, w.now, some (t.begins i + t.timeout - w.now)) = _
        rw [hnow, Nat.add_sub_cancel_left]
        rfl
  | @flying p f htoken hslow hbegan hover =>
      simp only [Slot.advance] at hadv
      split at hadv
      · rename_i hready
        obtain ⟨rfl, rfl⟩ := Prod.mk.inj (Option.some.inj hadv)
        have hdeadline : (t.deadline i).at_.Whole := (begins_whole ht i).add ht.timeout_whole
        rw [← htoken] at hlive
        rcases f.poll_slow hslow hwhole hdeadline hlive hready with
          ⟨hdue, hpoll⟩ | ⟨-, g, hpoll, hcontext, hslow'⟩
        · rw [hpoll]
          have herror : (t.deadline i).error = .deadlineExceeded t.timeout := by
            rw [Deadline.error, Deadline.budget, deadline, Nat.add_sub_cancel_left]
          rw [herror]
          exact ⟨.landed hdue, ⟨rfl, rfl, rfl⟩, rfl⟩
        · rw [hpoll]
          refine ⟨.flying ?_ hslow' hbegan hover, ⟨rfl, rfl, rfl⟩, rfl⟩
          rw [hcontext, htoken]
      · cases hadv
  | landed => cases hadv

/-! ## All of them -/

section OnTime

variable {s : Service σ} {context : Context} {base : World σ} {last : Nat}
  {m m' : Moment σ Promotion Unit}

/-- When jobs enter or are taken the timetable is the same. -/
theorem OnTime.move (hm : t.OnTime s context base last m)
    (h : Moment.Next (s.startWrite context) m m') (hline : m'.line = m.line)
    (hworld : m'.world = m.world) : t.OnTime s context base last m' where
  ledger := hm.ledger.next h
  limit := h.limit.trans hm.limit
  length := by rw [hline, hm.length]
  whole := by rw [hworld]; exact hm.whole
  spares := by rw [hworld]; exact hm.spares
  keeps := by rw [hline, hworld]; exact hm.keeps
  bounded := by rw [hworld]; exact hm.bounded
  calls := by
    unfold Moment.begun
    rw [hworld, hline]
    exact hm.calls

/-- The timers of a write under way are among those of the window. -/
theorem timers_of_flying {i : Nat} {p : Promotion} {f : Flight σ Unit} {d : Deadline}
    (hi : m.line[i]? = some (.flying p f)) (hd : f.context.deadline = some d) :
    f.until_ ∈ m.window.timers ∧ d.at_ ∈ m.window.timers := by
  have hslot : (.flying p f : Slot σ Promotion Unit) ∈ m.window.slots := by
    have hmem := List.mem_of_getElem? hi
    simp only [Moment.line, List.mem_append, List.mem_map, reduceCtorEq, and_false, exists_false,
      false_or, or_false] at hmem
    exact hmem
  have htimers : f.timers = [f.until_, d.at_] := by
    rw [Flight.timers, hd]
    rfl
  have hmem (u : Instant) (hu : u ∈ f.timers) : u ∈ m.window.timers :=
    List.mem_flatMap.2 ⟨_, hslot, hu⟩
  exact ⟨hmem _ (by simp [htimers]), hmem _ (by simp [htimers])⟩

/-- When time moves, it moves at most to the next deadline: no write under way sleeps through its
own, and none that stands in line misses its turn. -/
theorem OnTime.elapse (ht : t.Fits s context) (hm : t.OnTime s context base last m)
    (hfull : m.window.refill = m.window) (hne : m.window.slots ≠ [])
    (htake : m.window.take? = none)
    (hadv : m.window.advance (s.startWrite context) m.world = none) :
    t.OnTime s context base last { m with world := m.world.elapse m.window.timers } := by
  obtain ⟨hwhole, htimers⟩ := World.now_elapse hm.whole m.window.timers
  have hwaits := m.world.waits_elapse m.window.timers
  -- A write under way wakes, or is over, before the clock goes on.
  have hflying {i : Nat} {p : Promotion} {f : Flight σ Unit}
      (hi : m.line[i]? = some (.flying p f)) :
      (m.world.elapse m.window.timers).now ≤ f.until_.fires ∧
        (m.world.elapse m.window.timers).now ≤ t.begins i + t.timeout := by
    cases hm.keeps i _ hi with
    | flying _ hslow _ hover =>
        obtain ⟨huntil, hdeadline⟩ := timers_of_flying hi hslow.deadline
        have hfires : (t.deadline i).at_.fires = t.begins i + t.timeout :=
          ((begins_whole ht i).add ht.timeout_whole).fires_eq
        have h₁ := htimers _ huntil
        have h₂ := htimers _ hdeadline
        rw [Nat.max_eq_right hslow.asleep] at h₁
        rw [hfires, Nat.max_eq_right hover] at h₂
        exact ⟨h₁, h₂⟩
  -- The oldest job in the window is such a write.
  obtain ⟨p, f, rest, hslots⟩ := Moment.flying_of_stuck hne htake hadv
  have holdest : m.line[m.taken.length]? = some (.flying p f) := by simp [Moment.line, hslots]
  have hnow := (hflying holdest).2
  have hlast : m.taken.length ≤ last := by
    obtain ⟨hlt, -⟩ := List.getElem?_eq_some_iff.1 holdest
    rw [hm.length] at hlt
    exact Nat.le_of_lt_succ hlt
  refine ⟨hm.ledger.next (.elapse hne htake hadv), hm.limit, hm.length, hwhole,
    hm.spares.elapse _, ?_, ?_, ?_⟩
  · intro i a hi
    refine (hm.keeps i a hi).later hwaits.now ?_ ?_
    · -- Whoever has not begun stands behind a full window.
      intro hfresh
      obtain ⟨hbehind, hwaiting⟩ := Moment.waiting_of_fresh hadv hi hfresh
      have hroom := Moment.full_of_refill hfull hwaiting
      rw [hm.limit] at hroom
      have hpos := ht.limit_pos
      have hturn : m.taken.length + t.limit ≤ i := by omega
      refine Nat.le_trans hnow ?_
      rw [← begins_add_limit hpos]
      exact begins_mono hturn
    · rintro q g rfl
      exact hflying hi
  · exact Nat.le_trans hnow (Nat.add_le_add_right (begins_mono hlast) _)
  · obtain ⟨records, hcalls, hrecords⟩ := hm.calls
    exact ⟨records, hwaits.calls.trans hcalls, hrecords⟩

/-- The turn of a job in the window has come: there was room for it from the start, or the job a
window before it is over. -/
theorem OnTime.turn (ht : t.Fits s context) (hbase : base.now = t.start)
    (hm : t.OnTime s context base last m) {i : Nat}
    (hi : i < m.taken.length + m.window.slots.length) : t.begins i ≤ m.world.now := by
  have hroom := hm.ledger.room
  have hpos := ht.limit_pos
  rw [hm.limit, Nat.max_eq_right hpos] at hroom
  by_cases hlt : i < t.limit
  · rw [begins_of_lt hlt, ← hbase]
    exact hm.ledger.after.now
  · obtain ⟨j, rfl⟩ : ∃ j, i = j + t.limit := ⟨i - t.limit, by omega⟩
    have hj : j < m.taken.length := by omega
    rw [begins_add_limit hpos]
    obtain ⟨o, ho⟩ : ∃ o, m.taken[j]? = some o := ⟨_, List.getElem?_eq_getElem hj⟩
    have hline : m.line[j]? = some (.landed o.1 o.2) := by
      rw [Moment.line, List.append_assoc,
        List.getElem?_append_left (by rw [List.length_map]; exact hj), List.getElem?_map, ho]
      rfl
    exact (hm.keeps j _ hline).over.2

/-- The jobs looked at before one that was not are all those that stand before it. -/
theorem begun_eq {pre post : List (Slot σ Promotion Unit)} {a : Slot σ Promotion Unit}
    (hm : t.OnTime s context base last m) (hline : m.line = pre ++ a :: post)
    (hfresh : a.isFresh = true) (hpre : ∀ u ∈ pre, u.isFresh = false) :
    m.begun = pre.map Slot.job := by
  have hordered := hm.ledger.ordered
  rw [hline] at hordered
  have hbehind := (List.pairwise_cons.1 (List.pairwise_append.1 hordered).2.1).1
  have hpost : post.filter (fun u => !u.isFresh) = [] := by
    rw [List.filter_eq_nil_iff]
    intro u hu
    simp [hbehind u hu hfresh]
  have hpre : pre.filter (fun u => !u.isFresh) = pre := by
    rw [List.filter_eq_self]
    intro u hu
    simp [hpre u hu]
  rw [Moment.begun, hline, List.filter_append, hpre, List.filter_cons_of_neg (by simp [hfresh]),
    hpost, List.append_nil]

/-- A job that goes on keeps to the timetable, and one that begins is recorded in its turn. -/
theorem OnTime.advance (ht : t.Fits s context) (hbase : base.now = t.start)
    (hend : t.begins last + t.timeout < Context.endOfTime) (hm : t.OnTime s context base last m)
    {v : Window σ Promotion Unit} {w : World σ} (htake : m.window.take? = none)
    (hadv : m.window.advance (s.startWrite context) m.world = some (v, w)) :
    t.OnTime s context base last { m with window := v, world := w } := by
  have hnext : Moment.Next (s.startWrite context) m { m with window := v, world := w } :=
    .advance htake hadv
  obtain ⟨pre, a, post, b, hline, hline', hgo, -, hplace, hpre⟩ := Moment.line_advance hadv
  have ha : m.line[pre.length]? = some a := by simp [hline]
  have hlast : pre.length ≤ last := by
    obtain ⟨hlt, -⟩ := List.getElem?_eq_some_iff.1 ha
    rw [hm.length] at hlt
    exact Nat.le_of_lt_succ hlt
  obtain ⟨hkeeps, ⟨hnow, htokens, hagenda⟩, hcalls⟩ := (hm.keeps _ a ha).advance ht hm.whole
    hm.spares.live (Nat.lt_of_le_of_lt (Nat.add_le_add_right (begins_mono hlast) _) hend)
    (fun _ => hm.turn ht hbase hplace) hgo
  obtain ⟨hjob, hb, -⟩ := Window.Slot.advance_eq_some hgo
  have hbegun := Moment.begun_advance hline hline' hjob hb hm.ledger.ordered
  obtain ⟨records, hrecorded, hrecords⟩ := hm.calls
  refine ⟨hm.ledger.next hnext, (Moment.limit_of_advance hadv).trans hm.limit, ?_, ?_, ?_, ?_, ?_,
    ?_⟩
  · rw [hline', ← hm.length, hline]
    simp
  · show w.now.Whole
    rw [hnow]
    exact hm.whole
  · exact ⟨by rw [htokens]; exact hm.spares.live, by rw [hagenda]; exact hm.spares.planned⟩
  · intro i c hi
    show t.Keeps context.token w.now i c
    rw [hnow]
    by_cases hplace : i = pre.length
    · subst hplace
      have hc : b = c := by simpa [hline'] using hi
      rw [← hc]
      exact hkeeps
    · rw [hline', ← Moment.getElem?_of_ne hplace a b, ← hline] at hi
      exact hm.keeps i c hi
  · show w.now ≤ _
    rw [hnow]
    exact hm.bounded
  · by_cases hfresh : a.isFresh = true
    · rw [if_pos hfresh] at hcalls hbegun
      obtain ⟨r, hr, hentry⟩ := hcalls
      have hcount : m.begun.length = pre.length := by
        rw [begun_eq hm hline hfresh hpre, List.length_map]
      refine ⟨records ++ [r], ?_, ?_⟩
      · show w.calls = _
        rw [hr, hrecorded, List.append_assoc]
      · rw [hbegun, List.zipIdx_append, List.map_append, List.map_append, hrecords, Nat.zero_add,
          hcount]
        exact congrArg (_ ++ [·]) hentry
    · rw [if_neg hfresh] at hcalls hbegun
      refine ⟨records, hcalls.trans hrecorded, ?_⟩
      rw [hbegun, hrecords]

/-- **No step of a full window leaves the timetable.** -/
theorem OnTime.next (ht : t.Fits s context) (hbase : base.now = t.start)
    (hend : t.begins last + t.timeout < Context.endOfTime) (hm : t.OnTime s context base last m)
    (hfull : m.window.refill = m.window) (h : Moment.Next (s.startWrite context) m m') :
    t.OnTime s context base last m' := by
  cases h with
  | enter => exact hm.move (.enter m) m.line_refill rfl
  | take htake => exact hm.move (.take htake) (Moment.line_take htake) rfl
  | advance htake hadv => exact hm.advance ht hbase hend htake hadv
  | elapse hne htake hadv => exact hm.elapse ht hfull hne htake hadv

/-- Before the first write all of them stand in line. -/
theorem onTime_first (ht : t.Fits s context) (hbase : base.now = t.start)
    (hspares : base.Spares context.token) {promotions : List Promotion}
    (hlast : promotions.length = last + 1) :
    t.OnTime s context base last
      ⟨[], ⟨s.config.maxConcurrentWrites, promotions, []⟩, base⟩ where
  ledger := Service.ledger_of_reaches .refl
  limit := ht.limit
  length := by rw [Moment.line_mk, List.length_map, hlast]
  whole := by
    show base.now.Whole
    rw [hbase]
    exact ht.start_whole
  spares := hspares
  keeps i a hi := by
    rw [Moment.line_mk, List.getElem?_map] at hi
    obtain ⟨p, -, rfl⟩ := Option.map_eq_some_iff.1 hi
    refine .fresh ?_
    show base.now ≤ _
    rw [hbase]
    exact Nat.le_add_right _ _
  bounded := by
    show base.now ≤ _
    rw [hbase, begins, Nat.add_assoc]
    exact Nat.le_add_right _ _
  calls := by
    refine ⟨[], (List.append_nil _).symm, ?_⟩
    have hbegun : (⟨[], ⟨s.config.maxConcurrentWrites, promotions, []⟩, base⟩ :
        Moment σ Promotion Unit).begun = [] := by
      rw [Moment.begun, Moment.line_mk, List.map_eq_nil_iff, List.filter_eq_nil_iff]
      intro a ha
      obtain ⟨p, -, rfl⟩ := List.mem_map.1 ha
      exact Bool.false_ne_true
    rw [hbegun]
    rfl

/-- **Writes that never answer in time keep to the timetable.** Each is asked for once, when the
window has room for it, with the whole timeout before it, and ended by its deadline. -/
theorem write_slow (ht : t.Fits s context) {w : World σ} (hnow : w.now = t.start)
    (hspares : w.Spares context.token) {promotions : List Promotion} (hne : promotions ≠ [])
    (hend : t.ends promotions.length < Context.endOfTime) :
    ∃ w', s.write context promotions w =
        (promotions.map fun p => (p, .error (.deadlineExceeded t.timeout)), w') ∧
      w'.now = t.ends promotions.length ∧
      ∃ records : List CallRecord, w'.calls = w.calls ++ records ∧
        records.map (fun r => (r.request, r.at_, r.remaining)) =
          promotions.zipIdx.map t.entry := by
  obtain ⟨last, hlast⟩ := Nat.exists_eq_succ_of_ne_zero fun h => hne (List.length_eq_zero_iff.1 h)
  rw [hlast, ends_succ ht.limit_pos] at hend ⊢
  have hdone := Moment.invariant_run (I := t.OnTime s context w last)
    (fun m hm => hm.move (.enter m) m.line_refill rfl)
    (fun m m' hfull hnext hm => hm.next ht hnow hend hfull hnext)
    ⟨s.config.maxConcurrentWrites, promotions, []⟩ w [] (onTime_first ht hnow hspares hlast)
  rcases hwrite : s.write context promotions w with ⟨outcomes, w'⟩
  have hrun : Window.run (s.startWrite context) ⟨s.config.maxConcurrentWrites, promotions, []⟩ w =
      (outcomes, w') := hwrite
  rw [hrun] at hdone
  have hjobs : outcomes.map Prod.fst = promotions := Service.map_fst_of_write hwrite
  have hover {i : Nat} {o : Promotion × WriteOutcome} (ho : outcomes[i]? = some o) :
      o.2 = .error (.deadlineExceeded t.timeout) ∧ t.begins i + t.timeout ≤ w'.now := by
    refine (hdone.keeps i (.landed o.1 o.2) ?_).over
    rw [Moment.line_done, List.nil_append, List.getElem?_map, ho]
    rfl
  have houtcomes : outcomes =
      promotions.map fun p => (p, .error (.deadlineExceeded t.timeout)) := by
    rw [← hjobs, List.map_map]
    refine (List.map_id outcomes).symm.trans (List.map_congr_left fun o ho => ?_)
    obtain ⟨i, hi⟩ := List.mem_iff_getElem?.1 ho
    exact Prod.ext rfl (hover hi).1
  refine ⟨w', by rw [houtcomes], ?_, ?_⟩
  · -- The last write is over, and the clock has not gone on since.
    have hlt : last < outcomes.length := by
      rw [houtcomes, List.length_map, hlast]
      exact Nat.lt_succ_self last
    have ho := List.getElem?_eq_getElem hlt
    exact Nat.le_antisymm hdone.bounded (hover ho).2
  · obtain ⟨records, hcalls, hrecords⟩ := hdone.calls
    have hbegun : (⟨outcomes, ⟨s.config.maxConcurrentWrites, [], []⟩, w'⟩ :
        Moment σ Promotion Unit).begun = promotions := by
      have hall : (outcomes.map fun o => (.landed o.1 o.2 : Slot σ Promotion Unit)).filter
          (fun a => !a.isFresh) = outcomes.map fun o => .landed o.1 o.2 := by
        rw [List.filter_eq_self]
        intro a ha
        obtain ⟨o, -, rfl⟩ := List.mem_map.1 ha
        rfl
      rw [Moment.begun, Moment.line_done, hall, List.map_map]
      exact hjobs
    exact ⟨records, hcalls, hrecords.trans (by rw [← hbegun]; rfl)⟩

end OnTime

end Timetable

/-! ## Cascades -/

/-- When all writes fail with one failure, that is all the result has: one line for each. -/
theorem Collector.finish_of_failed {promotions : List Promotion} (hne : promotions ≠ [])
    (e : StoreError) :
    (Collector.ofOutcomes (promotions.map fun p => (p, .error e))).finish =
      ⟨[], some (.partialFailure (promotions.map fun p => ⟨p.stage, e⟩))⟩ := by
  have hcreated : (promotions.map fun p => (p, (.error e : WriteOutcome))).filter
      (fun o => o.2.isOk) = [] := by
    rw [List.filter_eq_nil_iff]
    intro o ho
    obtain ⟨p, -, rfl⟩ := List.mem_map.1 ho
    exact Bool.false_ne_true
  have hfailures : (promotions.map fun p => (p, (.error e : WriteOutcome))).filterMap
      WriteFailure.of? = promotions.map fun p => ⟨p.stage, e⟩ := by
    rw [List.filterMap_map]
    exact congrFun List.filterMap_eq_map promotions
  rw [Collector.ofOutcomes_eq, hcreated, hfailures, Collector.finish, List.isEmpty_eq_false_iff.2]
  · rfl
  · exact fun h => hne (List.map_eq_nil_iff.1 h)

/-- **Every queued write gets its whole timeout.** Let the context of a cascade have no end, and let
no creation be answered within the timeout of a call. When the writes begin on a tick of the clock,
the creator is called once for each subscriber, in order; the `i`-th call comes `i / limit` timeouts
later and has a whole timeout left. Every subscriber is reported with the expiry of that timeout,
none is promoted, and the operation ends when the last window of writes is over. Deadlines have to
be instants that can be told. -/
theorem Service.queued_writes_full_timeout {s : Service σ} {context : Context} {m : Move}
    {w w₀ : World σ} {subscribers : List Stage} {timeout : Duration}
    (hresolved : (resolution s.resolver m).run.run s context w = (.ok subscribers, w₀))
    (hlimit : 1 ≤ s.config.maxConcurrentWrites)
    (htimeout : s.config.callTimeout = some timeout) (hpos : 0 < timeout)
    (hwhole : timeout % Duration.millisecond = 0) (hstart : w₀.now % Duration.millisecond = 0)
    (hendless : context.deadline = none) (hlive : w₀.tokens.state context.token = .live)
    (hplanned : ∀ item ∈ w₀.agenda.items, item.2.token ≠ context.token)
    (hslow : ∀ p state, timeout ≤ (s.creator p state).1.delay)
    (htold : w₀.now + (subscribers.length + s.config.maxConcurrentWrites - 1) /
      s.config.maxConcurrentWrites * timeout < Context.endOfTime) :
    ∃ result w', (promoteSubscribers s.resolver m).run s context w = (result, w') ∧
      result.promotions = [] ∧
      result.error = some (.partialFailure
        (subscribers.map fun b => ⟨b.name, .deadlineExceeded timeout⟩)) ∧
      w'.now = w₀.now + (subscribers.length + s.config.maxConcurrentWrites - 1) /
        s.config.maxConcurrentWrites * timeout ∧
      ∃ records : List CallRecord, w'.calls = w₀.calls ++ records ∧
        records.map (fun r => (r.request, r.at_, r.remaining)) =
          (s.promotionsOf subscribers m.freight w₀.built).zipIdx.map fun e =>
            (.create e.1, w₀.now + e.2 / s.config.maxConcurrentWrites * timeout, some timeout) := by
  let t : Timetable := ⟨w₀.now, timeout, s.config.maxConcurrentWrites⟩
  have ht : t.Fits s context :=
    ⟨hlimit, hpos, hstart, hwhole, rfl, htimeout, hendless, hslow⟩
  have hsome : subscribers ≠ [] := by
    obtain ⟨a, v, hrun, hresolves⟩ := s.resolution_cases context s.resolver m w
    rw [hresolved] at hrun
    cases hrun
    cases hresolves with
    | resolved _ _ hfound => exact hfound
  let promotions := s.promotionsOf subscribers m.freight w₀.built
  have hcount : promotions.length = subscribers.length := s.length_promotionsOf _ _ _
  have hpromotions : promotions ≠ [] := fun h =>
    hsome (List.length_eq_zero_iff.1 (hcount.symm.trans (List.length_eq_zero_iff.2 h)))
  have hstages : promotions.map (fun p => (⟨p.stage, .deadlineExceeded timeout⟩ : WriteFailure)) =
      subscribers.map fun b => ⟨b.name, .deadlineExceeded timeout⟩ := by
    have hnames := congrArg (List.map fun name =>
      (⟨name, .deadlineExceeded timeout⟩ : WriteFailure))
      (s.map_stage_promotionsOf subscribers m.freight w₀.built)
    rw [List.map_map, List.map_map] at hnames
    exact hnames
  have hends : t.ends promotions.length = w₀.now + (subscribers.length +
      s.config.maxConcurrentWrites - 1) / s.config.maxConcurrentWrites * timeout := by
    rw [hcount]
    rfl
  obtain ⟨v, hwrite, hnow, records, hcalls, hrecords⟩ :=
    Timetable.write_slow (w := { w₀ with built := w₀.built + subscribers.length }) ht rfl
      ⟨hlive, hplanned⟩ hpromotions (by rw [hends]; exact htold)
  obtain ⟨w', ⟨logs, sink, rfl⟩, hrun⟩ := run_cascadeTo s context m subscribers hwrite
  rw [run_promoteSubscribers, hresolved]
  refine ⟨_, _, hrun, ?_, ?_, hnow.trans hends, records, hcalls, hrecords⟩
  · rw [Collector.finish_of_failed hpromotions]
  · rw [Collector.finish_of_failed hpromotions]
    exact congrArg (some ∘ PromotionError.partialFailure) hstages

/-- A stage with three subscribers. -/
def fanned : World Store where
  state := Store.changed
    [.putStage (.named "proj" "dev"),
     .putStage ((Stage.named "proj" "qa").withSource "dev"),
     .putStage ((Stage.named "proj" "uat").withSource "dev"),
     .putStage ((Stage.named "proj" "zone").withSource "dev"),
     .putFreight ((Freight.named "proj" "f1").qualifiedFor "dev" default)] .empty

/-- A service that gives every call a second and writes two promotions at a time, and whose creator
takes an hour. -/
def sluggish : Service Store :=
  { Store.service true (fun n => ⟨.ofNat n, default⟩) .discarding
      ((Config.withCallTimeout {} Duration.second).withMaxConcurrentWrites 2) with
    creator := fun _ s => (.sleep (3600 * Duration.second) (.answer fun s => (.ok (), s)), s) }

theorem Service.queued_writes_full_timeout_fanned :
    ∃ result w', (promoteSubscribers sluggish.resolver ⟨"proj", "dev", "f1"⟩).run sluggish ⟨0, none⟩
        fanned = (result, w') ∧
      result.promotions = [] ∧
      result.error = some (.partialFailure
        [⟨"qa", .deadlineExceeded Duration.second⟩, ⟨"uat", .deadlineExceeded Duration.second⟩,
         ⟨"zone", .deadlineExceeded Duration.second⟩]) ∧
      w'.now = 2 * Duration.second ∧
      ∃ records : List CallRecord, w'.calls = ((resolution sluggish.resolver
          ⟨"proj", "dev", "f1"⟩).run.run sluggish ⟨0, none⟩ fanned).2.calls ++ records ∧
        records.map (fun r => (r.at_, r.remaining)) =
          [(0, some Duration.second), (0, some Duration.second),
           (Duration.second, some Duration.second)] := by
  have hslow : ∀ p state, Duration.second ≤ (sluggish.creator p state).1.delay := by
    intro p state
    show Duration.second ≤
      Instant.fires (min (3600 * Duration.second) Duration.longestSleep) + 0
    decide
  have hresolved : ((resolution sluggish.resolver ⟨"proj", "dev", "f1"⟩).run.run sluggish
      ⟨0, none⟩ fanned).1 = .ok [(Stage.named "proj" "qa").withSource "dev",
        (Stage.named "proj" "uat").withSource "dev",
        (Stage.named "proj" "zone").withSource "dev"] := by
    decide +kernel
  have hpair (r : Except PromotionError (List Stage) × World Store) {a}
      (h : r.1 = a) : r = (a, r.2) := Prod.ext h rfl
  obtain ⟨result, w', hrun, hpromotions, herror, hnow, records, hcalls, hrecords⟩ :=
    Service.queued_writes_full_timeout (hpair _ hresolved) (by decide) (by decide +kernel)
      (by decide) (by decide) (by decide +kernel) rfl (by decide +kernel) (by decide +kernel) hslow
      (by decide +kernel)
  refine ⟨result, w', hrun, hpromotions, herror, hnow.trans (by decide +kernel), records, hcalls,
    ?_⟩
  have htimes := congrArg (List.map Prod.snd) hrecords
  rw [List.map_map] at htimes
  exact htimes.trans (by decide +kernel)

end Delivery
