import Delivery.Cancellation.Watch

/-!
# The life of a token

A `Vigil` is a token as it is kept, with everyone who waits for its cancellation: a flag, the reason
apart from it, and a bell, rung by the cancellation that raises the flag. Whoever waits goes round:
draws a ticket, looks at the flag, and unless it is up waits for the bell to be rung after the
ticket was drawn (`Stand`). Cancellations, also by those who sleep before them, new waiters and
looks at waiters follow each other in any order (`Vigil.Act`); somebody who stops waiting is one who
is not looked at again.

* `Vigil.Kept` — what a vigil keeps, with the reasons of all cancellations so far;
* `Vigil.Kept.act`, `Vigil.Kept.run` — one act, and any number of them;
* `Vigil.Shows` — the watches that run are such vigils.
-/

namespace Delivery

/-- Where somebody who waits stands. -/
inductive Stand where
  | fresh
  /-- Waits for the bell to be rung once more than the ticket says. -/
  | waiting (ticket : Nat)
  | finished
  deriving DecidableEq

namespace Stand

/-- True when a look gets any further: for the new, and for those who were rung for. -/
def awake (rings : Nat) : Stand → Bool
  | fresh => true
  | waiting ticket => ticket < rings
  | finished => false

/-- Begins a round: draws a ticket, and then looks at the flag. -/
def enter (raised : Bool) (rings : Nat) : Stand := if raised then finished else waiting rings

/-- Somebody who waits, after a look. -/
def poll (raised : Bool) (rings : Nat) (s : Stand) : Stand :=
  if s.awake rings then enter raised rings else s

/-- How far somebody has come, without the ticket. -/
def phase (rings : Nat) : Stand → Waiter
  | fresh => .fresh
  | waiting ticket => if ticket < rings then .woken else .listening
  | finished => .finished

/-- A second look gets no further than the first. -/
theorem poll_poll (raised : Bool) (rings : Nat) (s : Stand) :
    (s.poll raised rings).poll raised rings = s.poll raised rings := by
  have henter : (enter raised rings).poll raised rings = enter raised rings := by
    unfold enter
    cases raised <;> simp [poll, awake]
  by_cases hawake : s.awake rings = true
  · have hs : s.poll raised rings = enter raised rings := if_pos hawake
    rw [hs, henter]
  · have hs : s.poll raised rings = s := if_neg hawake
    rw [hs, hs]

/-- Whoever listens does so on, and whoever is new or awake finishes if the flag is up. -/
theorem phase_poll (t : Token) (rings : Nat) (s : Stand) :
    (s.poll t.isCancelled rings).phase rings = (s.phase rings).poll t := by
  have henter : (enter t.isCancelled rings).phase rings =
      if t.isCancelled then .finished else .listening := by
    unfold enter
    cases t.isCancelled <;> simp [phase]
  cases s with
  | fresh => exact henter
  | finished => rfl
  | waiting ticket =>
      by_cases hrung : ticket < rings
      · simp only [poll, awake, phase, decide_eq_true hrung, if_pos hrung, if_true]
        exact henter
      · simp [poll, awake, phase, hrung, Waiter.poll]

/-- Ringing the bell wakes those who listen. -/
theorem phase_rung {s : Stand} {rings : Nat} (h : ∀ ticket, s = waiting ticket → ticket ≤ rings) :
    s.phase (rings + 1) = (s.phase rings).wake := by
  cases s with
  | fresh | finished => rfl
  | waiting ticket =>
      have hlt : ticket < rings + 1 := Nat.lt_succ_of_le (h ticket rfl)
      by_cases hrung : ticket < rings <;> simp [phase, hlt, hrung, Waiter.wake]

end Stand

/-- A token as it is kept, with everyone who waits, on a clock. -/
structure Vigil where
  now : Instant := 0
  raised : Bool := false
  reason : Option String := none
  /-- How often the bell was rung. -/
  rings : Nat := 0
  /-- The reasons of those who sleep before they cancel, by tick. -/
  agenda : Agenda String := {}
  waiters : List Stand := []

namespace Vigil

/-- The first cancellation raises the flag, leaves its reason and rings the bell. -/
def cancel (v : Vigil) (reason : String) : Vigil :=
  if v.raised then v else { v with raised := true, reason := some reason, rings := v.rings + 1 }

/-- The reason of somebody who has slept long enough. -/
def due? (v : Vigil) (i : Nat) : Option String :=
  (v.agenda.items[i]?.filter fun x => x.1 ≤ v.now.ticks).map Prod.snd

/-- Somebody who has slept long enough cancels. -/
def fire (v : Vigil) (i : Nat) : Vigil :=
  match v.due? i with
  | some reason => { v with agenda := ⟨v.agenda.items.eraseIdx i⟩ }.cancel reason
  | none => v

/-- Somebody who waits is looked at. -/
def poll (v : Vigil) (i : Nat) : Vigil :=
  { v with waiters := v.waiters.modify i (Stand.poll v.raised v.rings) }

/-- Something that happens to a token or around it. -/
inductive Act where
  /-- Somebody cancels. -/
  | cancel (reason : String)
  /-- Somebody goes to sleep, to cancel afterwards. -/
  | plan (d : Duration) (reason : String)
  | fire (i : Nat)
  /-- Somebody begins to wait. -/
  | wait
  | poll (i : Nat)
  /-- Time passes. -/
  | pass (d : Duration)

/-- The vigil after an act. -/
def act (v : Vigil) : Act → Vigil
  | .cancel reason => v.cancel reason
  | .plan d reason => { v with agenda := v.agenda.add (v.now.afterSleep d).dueTick reason }
  | .fire i => v.fire i
  | .wait => { v with waiters := v.waiters ++ [.fresh] }
  | .poll i => v.poll i
  | .pass d => { v with now := v.now + d }

/-- The vigil after one act and another. -/
def run (v : Vigil) (acts : List Act) : Vigil := acts.foldl act v

/-- The reason with which an act cancels, if it does. -/
def Act.reason? (v : Vigil) : Act → Option String
  | .cancel reason => some reason
  | .fire i => v.due? i
  | .plan .. | .wait | .poll _ | .pass _ => none

/-- The reasons of all cancellations among some acts, in order. -/
def reasons (v : Vigil) : List Act → List String
  | [] => []
  | a :: rest => (a.reason? v).toList ++ (v.act a).reasons rest

@[simp] theorem run_nil (v : Vigil) : v.run [] = v := rfl

@[simp] theorem run_cons (v : Vigil) (a : Act) (acts : List Act) :
    v.run (a :: acts) = (v.act a).run acts := rfl

theorem run_append (v : Vigil) (acts more : List Act) :
    v.run (acts ++ more) = (v.run acts).run more := List.foldl_append

theorem reasons_append (v : Vigil) (acts more : List Act) :
    v.reasons (acts ++ more) = v.reasons acts ++ (v.run acts).reasons more := by
  induction acts generalizing v with
  | nil => rfl
  | cons a rest ih => simp only [List.cons_append, reasons, ih, run_cons, List.append_assoc]

/-! ## What is kept -/

/-- The flag and the reason tell of the first cancellation. Whoever waits was rung for exactly when
the flag is up, and nobody has finished before. -/
structure Kept (v : Vigil) (past : List String) : Prop where
  raised : v.raised = past.head?.isSome
  reason : v.reason = past.head?
  drawn : ∀ ticket, .waiting ticket ∈ v.waiters → ticket ≤ v.rings
  heard : ∀ ticket, .waiting ticket ∈ v.waiters → (ticket < v.rings ↔ v.raised = true)
  patient : .finished ∈ v.waiters → v.raised = true

variable {v : Vigil} {past : List String}

theorem kept_fresh : ({} : Vigil).Kept [] where
  raised := rfl
  reason := rfl
  drawn _ h := nomatch h
  heard _ h := nomatch h
  patient h := nomatch h

/-- Only the first cancellation counts, and it rings for everyone who waits. -/
theorem Kept.cancel (h : v.Kept past) (reason : String) :
    (v.cancel reason).Kept (past ++ [reason]) := by
  unfold Vigil.cancel
  cases past with
  | nil =>
      have hdown : ¬ v.raised = true := by rw [h.raised]; exact Bool.false_ne_true
      rw [if_neg hdown]
      refine ⟨rfl, rfl, ?_, ?_, fun _ => rfl⟩
      · intro ticket hticket
        exact Nat.le_succ_of_le (h.drawn ticket hticket)
      · intro ticket hticket
        exact iff_of_true (Nat.lt_succ_of_le (h.drawn ticket hticket)) rfl
  | cons first rest =>
      have hup : v.raised = true := h.raised
      rw [if_pos hup]
      exact ⟨h.raised, h.reason, h.drawn, h.heard, h.patient⟩

/-- Where everyone stands, after a look at somebody. -/
theorem mem_modify_poll {i : Nat} {s : Stand}
    (hs : s ∈ v.waiters.modify i (Stand.poll v.raised v.rings)) :
    s ∈ v.waiters ∨ s = .enter v.raised v.rings := by
  obtain ⟨j, hj⟩ := List.mem_iff_getElem?.1 hs
  rw [List.getElem?_modify] at hj
  obtain ⟨r, hr, rfl⟩ := Option.map_eq_some_iff.1 hj
  have hmem : r ∈ v.waiters := List.mem_of_getElem? hr
  by_cases hij : i = j
  · rw [if_pos hij]
    unfold Stand.poll
    by_cases hawake : r.awake v.rings = true
    · exact .inr (if_pos hawake)
    · rw [if_neg hawake]
      exact .inl hmem
  · rw [if_neg hij]
    exact .inl hmem

/-- Who draws a ticket while the flag is down was not rung for. -/
theorem Kept.poll (h : v.Kept past) (i : Nat) : (v.poll i).Kept past := by
  have hwaiting {ticket : Nat}
      (hmem : .waiting ticket ∈ v.waiters.modify i (Stand.poll v.raised v.rings)) :
      .waiting ticket ∈ v.waiters ∨ v.raised = false ∧ ticket = v.rings := by
    refine (mem_modify_poll hmem).imp_right fun henter => ?_
    unfold Stand.enter at henter
    cases hraised : v.raised with
    | true => rw [hraised] at henter; cases henter
    | false => rw [hraised] at henter; cases henter; exact ⟨rfl, rfl⟩
  refine ⟨h.raised, h.reason, ?_, ?_, ?_⟩
  · intro ticket hticket
    rcases hwaiting hticket with hmem | ⟨-, rfl⟩
    · exact h.drawn ticket hmem
    · exact Nat.le_refl _
  · intro ticket hticket
    rcases hwaiting hticket with hmem | ⟨hdown, rfl⟩
    · exact h.heard ticket hmem
    · have hdown' : (v.poll i).raised = false := hdown
      exact iff_of_false (Nat.lt_irrefl _) (by simp [hdown'])
  · intro hfinished
    rcases mem_modify_poll hfinished with hmem | henter
    · exact h.patient hmem
    · unfold Stand.enter at henter
      cases hraised : v.raised with
      | true => exact hraised
      | false => rw [hraised] at henter; cases henter

theorem Kept.fire (h : v.Kept past) (i : Nat) :
    (v.fire i).Kept (past ++ (v.due? i).toList) := by
  unfold Vigil.fire
  cases v.due? i with
  | none =>
      rw [Option.toList_none, List.append_nil]
      exact h
  | some reason =>
      have hslept : { v with agenda := ⟨v.agenda.items.eraseIdx i⟩ }.Kept past :=
        ⟨h.raised, h.reason, h.drawn, h.heard, h.patient⟩
      exact hslept.cancel reason

/-- **One act** keeps what a vigil keeps. -/
theorem Kept.act (h : v.Kept past) (a : Act) : (v.act a).Kept (past ++ (a.reason? v).toList) := by
  cases a with
  | cancel reason => exact h.cancel reason
  | plan d reason =>
      rw [Act.reason?, Option.toList_none, List.append_nil]
      exact ⟨h.raised, h.reason, h.drawn, h.heard, h.patient⟩
  | fire i => exact h.fire i
  | wait =>
      rw [Act.reason?, Option.toList_none, List.append_nil]
      have hold {s : Stand} (hs : s ∈ v.waiters ++ [.fresh]) (hne : s ≠ .fresh) : s ∈ v.waiters :=
        (List.mem_append.1 hs).resolve_right fun hfresh => hne (List.mem_singleton.1 hfresh)
      exact ⟨h.raised, h.reason, fun ticket hticket => h.drawn ticket (hold hticket (by simp)),
        fun ticket hticket => h.heard ticket (hold hticket (by simp)),
        fun hfinished => h.patient (hold hfinished (by simp))⟩
  | poll i =>
      rw [Act.reason?, Option.toList_none, List.append_nil]
      exact h.poll i
  | pass d =>
      rw [Act.reason?, Option.toList_none, List.append_nil]
      exact ⟨h.raised, h.reason, h.drawn, h.heard, h.patient⟩

/-- **Any number of acts** do. -/
theorem Kept.run (h : v.Kept past) (acts : List Act) :
    (v.run acts).Kept (past ++ v.reasons acts) := by
  induction acts generalizing v past with
  | nil =>
      rw [reasons, List.append_nil]
      exact h
  | cons a rest ih =>
      rw [reasons, ← List.append_assoc]
      exact ih (h.act a)

/-- Once the flag is up, nobody is asleep who has not finished. -/
theorem Kept.awake (h : v.Kept past) (hup : v.raised = true) {s : Stand} (hs : s ∈ v.waiters)
    (hne : s ≠ .finished) : s.awake v.rings = true := by
  cases s with
  | fresh => rfl
  | waiting ticket => exact decide_eq_true ((h.heard ticket hs).2 hup)
  | finished => exact absurd rfl hne

/-- Once the flag is up, a look finishes. -/
theorem Kept.poll_eq (h : v.Kept past) (hup : v.raised = true) {s : Stand} (hs : s ∈ v.waiters) :
    s.poll v.raised v.rings = .finished := by
  by_cases hne : s = .finished
  · subst hne
    rfl
  · unfold Stand.poll
    rw [if_pos (h.awake hup hs hne), Stand.enter, if_pos hup]

/-! ## Looking at everyone -/

/-- Looking at some, one after another, is looking at each of them once. -/
theorem run_polls (v : Vigil) (order : List Nat) : v.run (order.map .poll) = { v with
    waiters := v.waiters.mapIdx fun j s => if j ∈ order then s.poll v.raised v.rings else s } := by
  induction order generalizing v with
  | nil =>
      have hsame : v.waiters.mapIdx (fun _ s => s) = v.waiters :=
        List.ext_getElem? fun j => by simp
      simp [hsame]
  | cons i rest ih =>
      rw [List.map_cons, run_cons, ih]
      simp only [act, poll, mk.injEq, true_and]
      refine List.ext_getElem? fun j => ?_
      simp only [List.getElem?_mapIdx, List.getElem?_modify, Option.map_eq_map, Option.map_map]
      refine Option.map_congr fun s _ => ?_
      by_cases hi : i = j
      · subst hi
        by_cases hrest : i ∈ rest <;> simp [hrest, Stand.poll_poll]
      · have hj : j ∈ i :: rest ↔ j ∈ rest := by simp [Ne.symm hi]
        simp [hi, hj]

theorem reasons_polls (v : Vigil) (order : List Nat) : v.reasons (order.map .poll) = [] := by
  induction order generalizing v with
  | nil => rfl
  | cons i rest ih => exact ih (v.poll i)

/-- Looks at everyone. -/
def everyone (v : Vigil) : List Act := (List.range v.waiters.length).map .poll

theorem run_everyone (v : Vigil) : v.run v.everyone =
    { v with waiters := v.waiters.map (Stand.poll v.raised v.rings) } := by
  rw [everyone, run_polls]
  congr 1
  refine List.ext_getElem? fun j => ?_
  rw [List.getElem?_mapIdx, List.getElem?_map]
  refine Option.map_congr fun s hs => if_pos ?_
  exact List.mem_range.2 (List.getElem?_eq_some_iff.1 hs).1

/-- Once the flag is up, everyone who is looked at has finished. -/
theorem Kept.finished_of_polls (h : v.Kept past) (hup : v.raised = true) {order : List Nat}
    (hall : ∀ i < v.waiters.length, i ∈ order) :
    ∀ s ∈ (v.run (order.map .poll)).waiters, s = .finished := by
  rw [run_polls]
  intro s hs
  obtain ⟨j, hj⟩ := List.mem_iff_getElem?.1 hs
  rw [List.getElem?_mapIdx] at hj
  obtain ⟨r, hr, rfl⟩ := Option.map_eq_some_iff.1 hj
  rw [if_pos (hall j (List.getElem?_eq_some_iff.1 hr).1)]
  exact h.poll_eq hup (List.mem_of_getElem? hr)

end Vigil

/-! ## Watches -/

namespace Watch

theorem agenda_cancel (w : Watch) (reason : String) : (w.cancel reason).agenda = w.agenda := by
  unfold cancel
  split <;> rfl

/-- What is still planned makes no difference to a cancellation. -/
theorem withAgenda_cancel (w : Watch) (agenda : Agenda String) (reason : String) :
    { w.cancel reason with agenda } = { w with agenda }.cancel reason := by
  unfold cancel
  split <;> rfl

/-- Something that is done with a watch. -/
inductive Step where
  | cancel (reason : String)
  | cancelLater (d : Duration) (reason : String)
  | wait
  | sleep (d : Duration)
  | settle
  | join

/-- The reasons of those who cancel by a tick. -/
def due (w : Watch) (tick : Nat) : List String := w.agenda.due (w.now.moveTo tick).ticks

/-- The reasons with which a step cancels, in order. -/
def reasons (w : Watch) : Step → List String
  | .cancel reason => [reason]
  | .cancelLater .. | .wait => []
  | .sleep d => w.due (w.now.afterSleep d).dueTick
  | .settle => w.due w.now.ticks
  | .join => if w.token.isCancelled then [] else (w.agenda.next?.map w.due).getD []

/-- The watch after a step. -/
def perform (w : Watch) : Step → Watch
  | .cancel reason => w.cancel reason
  | .cancelLater d reason => w.cancelLater d reason
  | .wait => w.wait
  | .sleep d => w.sleep d
  | .settle => w.settle
  | .join => w.join

/-- The watch after one step and another. -/
def performAll (w : Watch) (steps : List Step) : Watch := steps.foldl perform w

/-- The reasons of all cancellations in some steps, in order. -/
def past (w : Watch) : List Step → List String
  | [] => []
  | step :: rest => w.reasons step ++ (w.perform step).past rest

end Watch

namespace Vigil

variable {v : Vigil} {past : List String} {w : Watch}

/-- A watch shows a vigil: flag and reason tell the state of its token. -/
structure Shows (v : Vigil) (w : Watch) : Prop where
  now : v.now = w.now
  agenda : v.agenda = w.agenda
  raised : v.raised = w.token.isCancelled
  reason : v.reason = w.token.reason?
  waiters : v.waiters.map (Stand.phase v.rings) = w.waiters

theorem shows_fresh : ({} : Vigil).Shows {} := ⟨rfl, rfl, rfl, rfl, rfl⟩

theorem Shows.cancel (h : v.Shows w) (hkept : v.Kept past) (reason : String) :
    (v.cancel reason).Shows (w.cancel reason) := by
  unfold Vigil.cancel Watch.cancel
  rw [h.raised]
  cases htoken : w.token with
  | cancelled first =>
      simpa only [Token.isCancelled, if_true] using h
  | live =>
      simp only [Token.isCancelled, Bool.false_eq_true, if_false]
      refine ⟨h.now, h.agenda, rfl, rfl, ?_⟩
      rw [← h.waiters, List.map_map]
      refine List.map_congr_left fun s hs => Stand.phase_rung ?_
      rintro ticket rfl
      exact hkept.drawn ticket hs

theorem Shows.wait (h : v.Shows w) : (v.act .wait).Shows w.wait := by
  refine ⟨h.now, h.agenda, h.raised, h.reason, ?_⟩
  simp only [act, Watch.wait, List.map_append, h.waiters]
  rfl

theorem Shows.plan (h : v.Shows w) (d : Duration) (reason : String) :
    (v.act (.plan d reason)).Shows (w.cancelLater d reason) := by
  refine ⟨h.now, ?_, h.raised, h.reason, h.waiters⟩
  simp only [act, Watch.cancelLater, h.now, h.agenda]

theorem Shows.everyone (h : v.Shows w) : (v.run v.everyone).Shows w.pollAll := by
  rw [run_everyone]
  refine ⟨h.now, h.agenda, h.raised, h.reason, ?_⟩
  rw [List.map_map, Watch.pollAll, ← h.waiters, List.map_map]
  refine List.map_congr_left fun s _ => ?_
  rw [h.raised]
  exact Stand.phase_poll w.token v.rings s

theorem now_cancel (v : Vigil) (reason : String) : (v.cancel reason).now = v.now := by
  unfold cancel
  split <;> rfl

theorem agenda_cancel (v : Vigil) (reason : String) : (v.cancel reason).agenda = v.agenda := by
  unfold cancel
  split <;> rfl

/-- Those who have slept long enough cancel one after another. -/
theorem Shows.exists_fires {items : List (Nat × String)} (hitems : v.agenda = ⟨items⟩)
    (h : v.Shows w) (hkept : v.Kept past) :
    ∃ acts, v.reasons acts = w.agenda.due v.now.ticks ∧
      (v.run acts).Shows ((w.agenda.due v.now.ticks).foldl Watch.cancel
        { w with agenda := w.agenda.after v.now.ticks }) := by
  induction items generalizing v w past with
  | nil =>
      have hagenda : w.agenda = ⟨[]⟩ := h.agenda.symm.trans hitems
      have hsame : ({ w with agenda := ⟨[]⟩ } : Watch) = w := by rw [← hagenda]
      rw [hagenda]
      exact ⟨[], rfl, hsame.symm ▸ h⟩
  | cons x rest ih =>
      have hagenda : w.agenda = ⟨x :: rest⟩ := h.agenda.symm.trans hitems
      by_cases hdue : x.1 ≤ v.now.ticks
      · -- The first is due: it leaves the agenda and cancels.
        have hfirst : v.due? 0 = some x.2 := by
          unfold due?
          rw [hitems]
          simp [Option.filter, hdue]
        have hfire : v.act (.fire 0) = { v with agenda := ⟨rest⟩ }.cancel x.2 := by
          simp only [act, fire, hfirst, hitems, List.eraseIdx_cons_zero]
        have hslept : ({ v with agenda := ⟨rest⟩ } : Vigil).Kept past :=
          ⟨hkept.raised, hkept.reason, hkept.drawn, hkept.heard, hkept.patient⟩
        have hshows : ({ v with agenda := ⟨rest⟩ } : Vigil).Shows { w with agenda := ⟨rest⟩ } :=
          ⟨h.now, rfl, h.raised, h.reason, h.waiters⟩
        obtain ⟨acts, hreasons, hacts⟩ := ih (agenda_cancel _ _) (hshows.cancel hslept x.2)
          (hslept.cancel x.2)
        rw [now_cancel, Watch.agenda_cancel] at hreasons
        rw [now_cancel, Watch.withAgenda_cancel, Watch.agenda_cancel] at hacts
        have hdues : w.agenda.due v.now.ticks =
            x.2 :: (⟨rest⟩ : Agenda String).due v.now.ticks := by simp [hagenda, Agenda.due, hdue]
        have hafter : w.agenda.after v.now.ticks =
            (⟨rest⟩ : Agenda String).after v.now.ticks := by simp [hagenda, Agenda.after, hdue]
        refine ⟨.fire 0 :: acts, ?_, ?_⟩
        · rw [reasons, hfire, hreasons, Act.reason?, hfirst, hdues]
          rfl
        · rw [run_cons, hfire, hdues, hafter]
          exact hacts
      · have hnone : w.agenda.due v.now.ticks = [] := by
          simp [hagenda, Agenda.due, hdue]
        have hafter : w.agenda.after v.now.ticks = w.agenda := by
          simp [hagenda, Agenda.after, hdue]
        rw [hnone, hafter]
        exact ⟨[], rfl, h⟩

/-- The clock comes to a tick, with looks at everyone before and after. -/
theorem Shows.exists_reach (h : v.Shows w) (hkept : v.Kept past) (tick : Nat) :
    ∃ acts, v.reasons acts = w.due tick ∧ (v.run acts).Shows (w.reach tick) := by
  obtain ⟨d, hd⟩ : ∃ d, w.now.moveTo tick = w.now + d := ⟨_, rfl⟩
  have hpolled := h.everyone
  have hmoved : (v.run (v.everyone ++ [.pass d])).Shows
      { w.pollAll with now := w.now.moveTo tick } := by
    rw [run_append]
    refine ⟨?_, hpolled.agenda, hpolled.raised, hpolled.reason, hpolled.waiters⟩
    show (v.run v.everyone).now + d = w.now.moveTo tick
    rw [hpolled.now, hd]
    rfl
  obtain ⟨fires, hreasons, hfires⟩ := hmoved.exists_fires rfl (hkept.run _)
  rw [hmoved.now] at hreasons hfires
  refine ⟨v.everyone ++ [.pass d] ++ fires ++
    (((v.run (v.everyone ++ [.pass d])).run fires).everyone), ?_, ?_⟩
  · rw [reasons_append, reasons_append, reasons_append, hreasons, Vigil.everyone, Vigil.everyone,
      reasons_polls, reasons_polls]
    exact List.append_nil _
  · rw [run_append, run_append (v := v)]
    exact hfires.everyone

/-- **Whatever is done with a watch** is done with a vigil by acts, with the same cancellations. -/
theorem Shows.exists_perform (h : v.Shows w) (hkept : v.Kept past) (step : Watch.Step) :
    ∃ acts, v.reasons acts = w.reasons step ∧ (v.run acts).Shows (w.perform step) := by
  cases step with
  | cancel reason => exact ⟨[.cancel reason], rfl, h.cancel hkept reason⟩
  | cancelLater d reason => exact ⟨[.plan d reason], rfl, h.plan d reason⟩
  | wait => exact ⟨[.wait], rfl, h.wait⟩
  | sleep d => exact h.exists_reach hkept _
  | settle => exact h.exists_reach hkept _
  | join =>
      show ∃ acts, v.reasons acts = (if w.token.isCancelled then [] else _) ∧
        (v.run acts).Shows w.join
      unfold Watch.join
      by_cases hcancelled : w.token.isCancelled = true
      · rw [if_pos hcancelled, if_pos hcancelled]
        exact ⟨[], rfl, h⟩
      · rw [if_neg hcancelled, if_neg hcancelled]
        cases w.agenda.next? with
        | none => exact ⟨[], rfl, h⟩
        | some tick => exact h.exists_reach hkept tick

theorem Shows.exists_performAll (h : v.Shows w) (hkept : v.Kept past) (steps : List Watch.Step) :
    ∃ acts, v.reasons acts = w.past steps ∧ (v.run acts).Shows (w.performAll steps) := by
  induction steps generalizing v w past with
  | nil => exact ⟨[], rfl, h⟩
  | cons step rest ih =>
      obtain ⟨acts, hreasons, hacts⟩ := h.exists_perform hkept step
      obtain ⟨more, hmore, hrest⟩ := ih hacts (hkept.run acts)
      refine ⟨acts ++ more, ?_, ?_⟩
      · rw [reasons_append, hreasons, hmore, Watch.past]
      · rw [run_append]
        exact hrest

/-! ## Whole lives -/

/-- **A token is cancelled for good, and nobody misses it.** Whatever has happened, the flag is up if
there was a cancellation, the reason is that of the first, and neither changes again. Nobody who
waits has finished before. Those who wait are awake exactly when the flag is up, and once it is,
everyone who has not finished does so at the next look, those who come later at their first; so
nobody is left who waits when everyone has been looked at.

The watches that run are such vigils, with the same cancellations. -/
theorem cancelled_for_good :
    (∀ acts : List Act,
      let v := ({} : Vigil).run acts
      let past := ({} : Vigil).reasons acts
      (v.raised = true ↔ past ≠ []) ∧ v.reason = past.head? ∧
      (v.raised = true → ∀ more, (v.run more).raised = true ∧ (v.run more).reason = v.reason) ∧
      (v.raised = false → .finished ∉ v.waiters) ∧
      (∀ ticket, .waiting ticket ∈ v.waiters →
        (Stand.waiting ticket).awake v.rings = v.raised) ∧
      (v.raised = true →
        (∀ i < v.waiters.length, (v.poll i).waiters[i]? = some .finished) ∧
        ((v.act .wait).poll v.waiters.length).waiters[v.waiters.length]? = some .finished ∧
        ∀ order : List Nat, (∀ i < v.waiters.length, i ∈ order) →
          ∀ s ∈ (v.run (order.map .poll)).waiters, s = .finished)) ∧
    ∀ steps : List Watch.Step, ∃ acts,
      ({} : Vigil).reasons acts = ({} : Watch).past steps ∧
      (({} : Vigil).run acts).Shows (({} : Watch).performAll steps) := by
  refine ⟨?_, shows_fresh.exists_performAll kept_fresh⟩
  intro acts v past
  have hkept : v.Kept past := kept_fresh.run acts
  have hraised : v.raised = true ↔ past ≠ [] := by
    rw [hkept.raised]
    cases past <;> simp
  refine ⟨hraised, hkept.reason, ?_, ?_, ?_, ?_⟩
  · intro hup more
    have hmore := hkept.run more
    obtain ⟨first, rest, hpast⟩ := List.exists_cons_of_ne_nil (hraised.1 hup)
    rw [hpast] at hmore
    refine ⟨hmore.raised, ?_⟩
    rw [hmore.reason, hkept.reason, hpast]
    rfl
  · intro hdown hfinished
    rw [hkept.patient hfinished] at hdown
    cases hdown
  · intro ticket hticket
    rw [Bool.eq_iff_iff]
    exact decide_eq_true_iff.trans (hkept.heard ticket hticket)
  · intro hup
    refine ⟨?_, ?_, fun order => hkept.finished_of_polls hup⟩
    · intro i hi
      have hpoll := hkept.poll_eq hup (List.getElem_mem hi)
      simp [poll, List.getElem?_eq_getElem hi, hpoll]
    · simp [poll, act, Stand.poll, Stand.awake, Stand.enter, hup]

end Vigil

end Delivery
