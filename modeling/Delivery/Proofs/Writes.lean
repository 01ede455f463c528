import Delivery.Proofs.Deadlines
import Delivery.Proofs.Moments

/-!
# The writes of a cascade

What a service does while it works promotions off through its window, for any collaborators
whatever. `Service.Goes` says once what can come of looking at one write; from it follow

* `Service.ledger_of_reaches` — at every moment the calls that were started and those that are
  running are accounted for;
* `Service.comes_of_reaches` — an outcome is what the creator answered to the call made for the
  promotion, or the failure of a context that had ended by then;
* `Service.exists_landings` — an invariant of the collaborators' state, through all writes.
-/

namespace Delivery

variable {σ : Type}

/-- What can come of a write when it is looked at in a world: it is refused because its context has
ended, it begins and is answered at once or waits; a write that waits is ended by its context, is
answered, or waits on. -/
inductive Service.Goes (s : Service σ) (context : Context) (w : World σ) :
    Slot σ Promotion Unit → Slot σ Promotion Unit → World σ → Prop
  | refused {p e} : (s.callContext context w.now).check w.tokens w.now = .error e →
      Goes s context w (.fresh p) (.landed p (.error e)) w
  | answered {p w'} : s.Made (s.callContext context w.now) (.create p) w w' →
      w'.state = ((s.creator p w.state).1.reply (s.creator p w.state).2).2 →
      Goes s context w (.fresh p)
        (.landed p ((s.creator p w.state).1.reply (s.creator p w.state).2).1) w'
  | begun {p f w'} : (s.begun (s.callContext context w.now) (.create p) w).Waits w' →
      f.context = s.callContext context w.now → f.rest.reply = (s.creator p w.state).1.reply →
      Goes s context w (.fresh p) (.flying p f) w'
  | ended {p f e} : f.context.Ends w e →
      Goes s context w (.flying p f) (.landed p (.error e)) { w with running := w.running - 1 }
  | landed {p f w₁} : w.Waits w₁ →
      Goes s context w (.flying p f) (.landed p (f.rest.reply w.state).1)
        { w₁ with state := (f.rest.reply w.state).2, running := w.running - 1 }
  | waited {p f g w'} : w.Waits w' → g.context = f.context → g.rest.reply = f.rest.reply →
      Goes s context w (.flying p f) (.flying p g) w'

theorem Service.goes_of_advance {s : Service σ} {context : Context}
    {a b : Slot σ Promotion Unit} {w w' : World σ}
    (h : a.advance (s.startWrite context) w = some (b, w')) : s.Goes context w a b w' := by
  cases a with
  | fresh p =>
      simp only [Slot.advance, Option.some.injEq, Prod.mk.injEq] at h
      obtain ⟨rfl, rfl⟩ := h
      show s.Goes context w (.fresh p)
        (.ofStatus p (w.start (s.callContext context w.now) (s.begin _ (.create p))).1)
        (w.start (s.callContext context w.now) (s.begin _ (.create p))).2
      rcases s.start_cases (s.callContext context w.now) (.create p) w with
        ⟨e, hcheck, hstart⟩ | ⟨w₁, hcheck, hw, hdone | ⟨f, hflying, hcontext, hreply⟩⟩
      · rw [hstart]
        exact .refused hcheck
      · rw [hdone]
        exact .answered (s.made_of_begun hw _) rfl
      · rw [hflying]
        exact .begun hw hcontext hreply
  | flying p f =>
      simp only [Slot.advance] at h
      split at h
      · simp only [Option.some.injEq, Prod.mk.injEq] at h
        obtain ⟨rfl, rfl⟩ := h
        rcases f.poll_cases w with
          ⟨e, he, hpoll⟩ | ⟨w₁, hw, hpoll | ⟨g, hpoll, hcontext, hreply⟩⟩
        · rw [hpoll]
          exact .ended he
        · rw [hpoll]
          exact .landed hw
        · rw [hpoll]
          exact .waited hw hcontext hreply
      · cases h
  | landed p o => cases h

/-! ## Where outcomes come from -/

/-- A failure with which contexts end calls. -/
def StoreError.EndsRequest : StoreError → Prop
  | cancelled _ | deadlineExceeded _ => True
  | _ => False

theorem Context.Ends.endsRequest {c : Context} {w : World σ} {e : StoreError} (h : c.Ends w e) :
    e.EndsRequest := by
  cases h <;> trivial

theorem Context.endsRequest_of_check {c : Context} {w : World σ} {e : StoreError}
    (h : c.check w.tokens w.now = .error e) : e.EndsRequest :=
  (Context.ends_of_check h).endsRequest

/-- What the write of a promotion may come to in a world: the failure of its context, which has
ended by then, or an answer of the creator to the call that was made for the promotion. -/
def Service.Comes (s : Service σ) (context : Context) (p : Promotion) (w : World σ)
    (o : WriteOutcome) : Prop :=
  (∃ t e, (s.callContext context t).Ends w e ∧ o = .error e) ∨
  ∃ before state, o = ((s.creator p before).1.reply state).1

/-- What is known of a write that waits: when its context was made, and whose answer it will come
to. -/
def Service.Writing (s : Service σ) (context : Context) (p : Promotion)
    (f : Flight σ Unit) : Prop :=
  (∃ t, f.context = s.callContext context t) ∧
    ∃ before, f.rest.reply = (s.creator p before).1.reply

theorem Service.Goes.flies {s : Service σ} {context : Context} {a b : Slot σ Promotion Unit}
    {w w' : World σ} (h : s.Goes context w a b w') (ha : a.Flies (s.Writing context)) :
    b.Flies (s.Writing context) := by
  cases h with
  | begun _ hcontext hreply => exact ⟨⟨_, hcontext⟩, _, hreply⟩
  | waited _ hcontext hreply =>
      obtain ⟨⟨t, ht⟩, before, hbefore⟩ := ha
      exact ⟨⟨t, hcontext.trans ht⟩, before, hreply.trans hbefore⟩
  | _ => trivial

theorem Service.Goes.comes {s : Service σ} {context : Context} {a : Slot σ Promotion Unit}
    {p : Promotion} {o : WriteOutcome} {w w' : World σ}
    (h : s.Goes context w a (.landed p o) w') (ha : a.Flies (s.Writing context)) :
    s.Comes context p w o := by
  cases h with
  | refused hcheck => exact .inl ⟨_, _, Context.ends_of_check hcheck, rfl⟩
  | answered => exact .inr ⟨_, _, rfl⟩
  | ended he =>
      obtain ⟨⟨t, ht⟩, -⟩ := ha
      rw [ht] at he
      exact .inl ⟨t, _, he, rfl⟩
  | landed =>
      obtain ⟨-, before, hbefore⟩ := ha
      exact .inr ⟨before, w.state, by rw [hbefore]⟩

/-- The writes that wait at a moment are known, if those were with which the window began. -/
theorem Service.flies_of_reaches {s : Service σ} {context : Context}
    {m m' : Moment σ Promotion Unit} (h : Moment.Reaches (s.startWrite context) m m')
    (hm : ∀ a ∈ m.line, a.Flies (s.Writing context)) :
    ∀ a ∈ m'.line, a.Flies (s.Writing context) := by
  refine h.invariant (I := fun m => ∀ a ∈ m.line, a.Flies (s.Writing context)) ?_ hm
  intro m m' hnext hm
  rcases hnext.line_cases with ⟨hline, -⟩ | ⟨pre, a, post, b, hline, hline', hadv, -, -⟩
  · rw [hline]
    exact hm
  · rw [hline] at hm
    rw [hline']
    intro c hc
    rcases List.mem_append.1 hc with hc | hc
    · exact hm c (List.mem_append_left _ hc)
    · rcases List.mem_cons.1 hc with rfl | hc
      · exact (Service.goes_of_advance hadv).flies (hm a (by simp))
      · exact hm c (List.mem_append_right _ (List.mem_cons_of_mem _ hc))

/-- Every outcome in the line is one that the write of that promotion came to at some moment. -/
theorem Service.comes_of_reaches {s : Service σ} {context : Context}
    {m m' : Moment σ Promotion Unit} (h : Moment.Reaches (s.startWrite context) m m')
    (hfirst : ∀ a ∈ m.line, a.isFresh = true) {i : Nat} {p : Promotion} {o : WriteOutcome}
    (hi : m'.line[i]? = some (.landed p o)) :
    ∃ m₀ a w, Moment.Reaches (s.startWrite context) m m₀ ∧ m₀.line[i]? = some a ∧ a.job = p ∧
      a.advance (s.startWrite context) m₀.world = some (.landed p o, w) ∧
      s.Comes context p m₀.world o := by
  obtain ⟨m₀, a, w, hreach, ha, hadv⟩ := h.landed_origin hfirst hi
  have hfly : ∀ a ∈ m.line, a.Flies (s.Writing context) := by
    intro a ha
    cases a with
    | fresh => trivial
    | _ => cases hfirst _ ha
  exact ⟨m₀, a, w, hreach, ha, (Window.Slot.advance_eq_some hadv).1.symm, hadv,
    (Service.goes_of_advance hadv).comes
      (Service.flies_of_reaches hreach hfly a (List.mem_of_getElem? ha))⟩

/-! ## The books -/

/-- The jobs that were looked at so far, in their order. -/
def Moment.begun {α β : Type} (m : Moment σ α β) : List α :=
  (m.line.filter fun a => !a.isFresh).map Slot.job

/-- Only jobs in the window are running. -/
theorem Moment.countP_isFlying_line {α β : Type} (m : Moment σ α β) :
    m.line.countP Slot.isFlying = m.window.slots.countP Slot.isFlying := by
  have htaken (l : List (α × Except StoreError β)) :
      (l.map fun o => (.landed o.1 o.2 : Slot σ α β)).countP Slot.isFlying = 0 := by
    rw [List.countP_eq_zero]
    intro a ha
    obtain ⟨o, -, rfl⟩ := List.mem_map.1 ha
    exact Bool.false_ne_true
  have hwaiting (l : List α) : (l.map (Slot.fresh : α → Slot σ α β)).countP Slot.isFlying = 0 := by
    rw [List.countP_eq_zero]
    intro a ha
    obtain ⟨job, -, rfl⟩ := List.mem_map.1 ha
    exact Bool.false_ne_true
  simp only [Moment.line, List.countP_append, htaken, hwaiting]
  omega

theorem Service.Goes.after {s : Service σ} {context : Context} {a b : Slot σ Promotion Unit}
    {w w' : World σ} (h : s.Goes context w a b w') : w.After w' ∧ w'.built = w.built := by
  cases h with
  | refused => exact ⟨.refl w, rfl⟩
  | answered hmade => exact ⟨hmade.after, hmade.built⟩
  | begun hw => exact ⟨⟨hw.now, hw.cancelled⟩, hw.built⟩
  | ended => exact ⟨⟨Nat.le_refl _, fun _ _ h => h⟩, rfl⟩
  | landed hw => exact ⟨⟨hw.now, hw.cancelled⟩, hw.built⟩
  | waited hw => exact ⟨hw.toAfter, hw.built⟩

theorem Service.Goes.running {s : Service σ} {context : Context} {a b : Slot σ Promotion Unit}
    {w w' : World σ} (h : s.Goes context w a b w') (hpos : a.isFlying = true → 0 < w.running) :
    w'.running + a.isFlying.toNat = w.running + b.isFlying.toNat := by
  cases h with
  | refused => rfl
  | answered hmade => exact hmade.running
  | begun hw => exact hw.running
  | ended => exact Nat.sub_add_cancel (hpos rfl)
  | landed => exact Nat.sub_add_cancel (hpos rfl)
  | waited hw => exact congrArg (· + 1) hw.running

/-- A write is recorded when it begins, and not again. It does not begin only when its context has
ended. -/
theorem Service.Goes.calls {s : Service σ} {context : Context} {a b : Slot σ Promotion Unit}
    {w w' : World σ} (h : s.Goes context w a b w') :
    (w'.calls = w.calls ∧ (a.isFresh = true →
        (s.callContext context w.now).check w.tokens w.now ≠ .ok ())) ∨
      a.isFresh = true ∧ w'.calls =
        w.calls ++ s.recordsOf (s.callContext context w.now) (.create a.job) w := by
  cases h with
  | refused hcheck =>
      refine .inl ⟨rfl, fun _ hok => ?_⟩
      rw [hcheck] at hok
      cases hok
  | answered hmade => exact .inr ⟨rfl, hmade.calls⟩
  | begun hw => exact .inr ⟨rfl, hw.calls⟩
  | ended => exact .inl ⟨rfl, fun hfresh => by cases hfresh⟩
  | landed hw => exact .inl ⟨hw.calls, fun hfresh => by cases hfresh⟩
  | waited hw => exact .inl ⟨hw.calls, fun hfresh => by cases hfresh⟩

/-- The books of a window that began in a world: the clock and the count of running calls, and the
calls that were started since, each for one of the jobs looked at so far and in their order. While
the caller's context is good, and calls are given any time at all, none of them is left out. -/
structure Service.Ledger (s : Service σ) (context : Context) (base : World σ)
    (m : Moment σ Promotion Unit) : Prop where
  after : base.After m.world
  built : m.world.built = base.built
  room : m.window.slots.length ≤ max 1 m.window.limit
  ordered : m.line.Pairwise fun a b => a.isFresh = true → b.isFresh = true
  running : m.world.running = base.running + m.line.countP Slot.isFlying
  calls : ∃ records : List CallRecord, m.world.calls = base.calls ++ records ∧
    (records.map CallRecord.request).Sublist (m.begun.map Request.create) ∧
    (∀ r ∈ records, r.running ≤ base.running + max 1 m.window.limit) ∧
    (context.check m.world.tokens m.world.now = .ok () → s.config.callTimeout ≠ some 0 →
      records.map CallRecord.request = m.begun.map Request.create)

/-- The jobs looked at, after one more step. -/
theorem Moment.begun_advance {α β : Type} {m m' : Moment σ α β}
    {pre post : List (Slot σ α β)} {a b : Slot σ α β} (hline : m.line = pre ++ a :: post)
    (hline' : m'.line = pre ++ b :: post) (hjob : b.job = a.job) (hb : b.isFresh = false)
    (hordered : m.line.Pairwise fun a b => a.isFresh = true → b.isFresh = true) :
    m'.begun = if a.isFresh then m.begun ++ [a.job] else m.begun := by
  unfold Moment.begun
  rw [hline] at hordered ⊢
  rw [hline']
  by_cases ha : a.isFresh = true
  · -- Whoever stands behind was not looked at either.
    have hpost : post.filter (fun u => !u.isFresh) = [] := by
      rw [List.filter_eq_nil_iff]
      intro u hu
      have := (List.pairwise_cons.1 (List.pairwise_append.1 hordered).2.1).1 u hu ha
      simp [this]
    simp [List.filter_append, ha, hb, hpost, hjob]
  · simp [List.filter_append, ha, hb, hjob]

section Ledger

variable {s : Service σ} {context : Context} {base : World σ} {m m' : Moment σ Promotion Unit}
  {pre post : List (Slot σ Promotion Unit)} {a b : Slot σ Promotion Unit}

/-- When nothing goes on the line is the same, and so are the books. -/
theorem Service.Ledger.wait (hm : s.Ledger context base m)
    (h : Moment.Next (s.startWrite context) m m') (hline : m'.line = m.line)
    (hwaits : m.world.Waits m'.world) : s.Ledger context base m' := by
  obtain ⟨records, hcalls, hsub, hbound, hall⟩ := hm.calls
  have hbegun : m'.begun = m.begun := by
    unfold Moment.begun
    rw [hline]
  refine ⟨hm.after.trans hwaits.toAfter, hwaits.built.trans hm.built, h.room hm.room,
    h.ordered hm.ordered, ?_, records, ?_, ?_, ?_, ?_⟩
  · rw [hwaits.running, hm.running, hline]
  · rw [hwaits.calls, hcalls]
  · rw [hbegun]
    exact hsub
  · rw [h.limit]
    exact hbound
  · intro hcheck htimeout
    rw [hbegun]
    exact hall (Context.check_of_after hwaits.toAfter hcheck) htimeout

theorem Moment.countP_isFlying_of_line (hline : m.line = pre ++ a :: post) :
    m.line.countP Slot.isFlying =
      pre.countP Slot.isFlying + (a.isFlying.toNat + post.countP Slot.isFlying) := by
  rw [hline, List.countP_append, List.countP_cons]
  cases a.isFlying with
  | false => simp
  | true =>
      simp
      omega

theorem Service.Ledger.running_go (hm : s.Ledger context base m)
    (hline : m.line = pre ++ a :: post) (hline' : m'.line = pre ++ b :: post)
    (hgoes : s.Goes context m.world a b m'.world) :
    m'.world.running = base.running + m'.line.countP Slot.isFlying := by
  have hrunning := hm.running
  rw [Moment.countP_isFlying_of_line hline] at hrunning
  rw [Moment.countP_isFlying_of_line hline']
  have hpos : a.isFlying = true → 0 < m.world.running := by
    intro ha
    rw [ha] at hrunning
    have htrue : true.toNat = 1 := rfl
    omega
  have hstep := hgoes.running hpos
  omega

/-- A job in the window that is not running leaves room for its own call. -/
theorem Service.Ledger.running_lt (hm : s.Ledger context base m) (hslot : a ∈ m.window.slots)
    (hfresh : a.isFresh = true) : m.world.running + 1 ≤ base.running + max 1 m.window.limit := by
  have hidle : m.window.slots.countP Slot.isFlying < m.window.slots.length := by
    refine Nat.lt_of_le_of_ne List.countP_le_length fun heq => ?_
    have hflying := List.countP_eq_length.1 heq a hslot
    cases a with
    | fresh => cases hflying
    | _ => cases hfresh
  have hrunning := hm.running
  rw [m.countP_isFlying_line] at hrunning
  have hroom := hm.room
  omega

/-- When a job goes on, a call is recorded for it if it was not looked at before, unless its context
has ended. -/
theorem Service.Ledger.calls_go (hm : s.Ledger context base m)
    (hgoes : s.Goes context m.world a b m'.world) (hslot : a ∈ m.window.slots)
    (hbegun : m'.begun = if a.isFresh then m.begun ++ [a.job] else m.begun) :
    ∃ records : List CallRecord, m'.world.calls = base.calls ++ records ∧
      (records.map CallRecord.request).Sublist (m'.begun.map Request.create) ∧
      (∀ r ∈ records, r.running ≤ base.running + max 1 m.window.limit) ∧
      (context.check m'.world.tokens m'.world.now = .ok () → s.config.callTimeout ≠ some 0 →
        records.map CallRecord.request = m'.begun.map Request.create) := by
  obtain ⟨records, hcalls, hsub, hbound, hall⟩ := hm.calls
  have hafter := hgoes.after.1
  rcases hgoes.calls with ⟨hsame, hrefused⟩ | ⟨hfresh, hnew⟩
  · -- No call was started; for a job not looked at before, the context had ended.
    refine ⟨records, hsame.trans hcalls, ?_, hbound, ?_⟩
    · rw [hbegun]
      by_cases hfresh : a.isFresh = true
      · rw [if_pos hfresh, List.map_append]
        exact hsub.trans (List.sublist_append_left _ _)
      · rw [if_neg hfresh]
        exact hsub
    · intro hcheck htimeout
      have hbefore := Context.check_of_after hafter hcheck
      rw [hbegun, if_neg]
      · exact hall hbefore htimeout
      · intro hfresh
        exact hrefused hfresh (Service.check_callContext hbefore htimeout)
  · -- The call of a job not looked at before was started.
    obtain ⟨record, hrecord, hrequest, hcount⟩ : ∃ record : CallRecord,
        s.recordsOf (s.callContext context m.world.now) (.create a.job) m.world = [record] ∧
        record.request = .create a.job ∧ record.running = m.world.running + 1 :=
      ⟨_, rfl, rfl, rfl⟩
    rw [if_pos hfresh] at hbegun
    refine ⟨records ++ [record], ?_, ?_, ?_, ?_⟩
    · rw [hnew, hcalls, hrecord, List.append_assoc]
    · rw [hbegun, List.map_append, List.map_append, List.map_singleton, hrequest]
      exact hsub.append (List.Sublist.refl _)
    · intro r hr
      rcases List.mem_append.1 hr with hr | hr
      · exact hbound r hr
      · obtain rfl := List.mem_singleton.1 hr
        rw [hcount]
        exact hm.running_lt hslot hfresh
    · intro hcheck htimeout
      rw [hbegun, List.map_append, List.map_append, List.map_singleton, hrequest,
        hall (Context.check_of_after hafter hcheck) htimeout]
      rfl

/-- One step keeps the books right. -/
theorem Service.Ledger.next (hm : s.Ledger context base m)
    (h : Moment.Next (s.startWrite context) m m') : s.Ledger context base m' := by
  rcases h.line_cases with
    ⟨hline, hwaits, -⟩ | ⟨pre, a, post, b, hline, hline', hadv, hslot, -⟩
  · exact hm.wait h hline hwaits
  · obtain ⟨hjob, hb, -⟩ := Window.Slot.advance_eq_some hadv
    have hgoes := Service.goes_of_advance hadv
    obtain ⟨hafter, hbuilt⟩ := hgoes.after
    have hbegun := Moment.begun_advance hline hline' hjob hb hm.ordered
    refine ⟨hm.after.trans hafter, hbuilt.trans hm.built, h.room hm.room, h.ordered hm.ordered,
      hm.running_go hline hline' hgoes, ?_⟩
    rw [h.limit]
    exact hm.calls_go hgoes hslot hbegun

end Ledger

/-- **The books are right at every moment.** -/
theorem Service.ledger_of_reaches {s : Service σ} {context : Context} {promotions : List Promotion}
    {limit : Nat} {w : World σ} {m : Moment σ Promotion Unit}
    (h : Moment.Reaches (s.startWrite context) ⟨[], ⟨limit, promotions, []⟩, w⟩ m) :
    s.Ledger context w m := by
  refine h.invariant (fun m m' hnext hm => hm.next hnext) ?_
  have hfresh : ∀ a ∈ (promotions.map Slot.fresh : List (Slot σ Promotion Unit)),
      a.isFresh = true := by
    intro a ha
    obtain ⟨p, -, rfl⟩ := List.mem_map.1 ha
    rfl
  refine ⟨.refl w, rfl, Nat.zero_le _, ?_, ?_, [], by simp, by simp, by simp, ?_⟩
  · rw [Moment.line_mk]
    exact List.pairwise_iff_forall_sublist.2 fun hsub _ =>
      hfresh _ (hsub.subset (by simp))
  · rw [Moment.countP_isFlying_line]
    rfl
  · intro _ _
    have : (promotions.map Slot.fresh : List (Slot σ Promotion Unit)).filter
        (fun a => !a.isFresh) = [] := by
      rw [List.filter_eq_nil_iff]
      intro a ha
      simp [hfresh a ha]
    simp [Moment.begun, this]

/-! ## Invariants of the collaborators' state -/

/-- An invariant of the outcomes so far and the collaborators' state is kept by all writes, if
making a call keeps it, and so does every outcome: of a context that has ended, with nothing else
done, or of the creator, with what its answer does. The answer is one to a call that was made while
the invariant held. -/
theorem Service.exists_landings (s : Service σ) (context : Context)
    {J : List (Promotion × WriteOutcome) → σ → Prop}
    (hmake : ∀ {L state} p, J L state → J L (s.creator p state).2)
    (hend : ∀ {L state} p e, StoreError.EndsRequest e → J L state →
      J (L ++ [(p, .error e)]) state)
    (hanswer : ∀ {L₀ L before state} p, J L₀ before → J L state →
      J (L ++ [(p, ((s.creator p before).1.reply state).1)])
        ((s.creator p before).1.reply state).2)
    (promotions : List Promotion) {w : World σ} (hw : J [] w.state) :
    ∃ L, L.Perm (s.write context promotions w).1 ∧
      J L (s.write context promotions w).2.state := by
  let Fly : Promotion → Flight σ Unit → Prop := fun p f =>
    ∃ L before, J L before ∧ f.rest.reply = (s.creator p before).1.reply
  refine Window.exists_landings Fly (fun L w => J L w.state) ?_ ?_
    s.config.maxConcurrentWrites promotions hw
  · intro L a b w w' hfly hinv hadv
    cases Service.goes_of_advance hadv with
    | refused hcheck => exact ⟨trivial, hend _ _ (Context.endsRequest_of_check hcheck) hinv⟩
    | @answered p _ hmade hstate =>
        refine ⟨trivial, ?_⟩
        rw [hstate]
        exact hanswer p hinv (hmake p hinv)
    | @begun p f _ hw' _ hreply =>
        refine ⟨⟨L, w.state, hinv, hreply⟩, ?_⟩
        rw [hw'.state]
        show J (L ++ []) (s.creator p w.state).2
        rw [List.append_nil]
        exact hmake p hinv
    | ended he => exact ⟨trivial, hend _ _ he.endsRequest hinv⟩
    | @landed p f _ hw' =>
        obtain ⟨L₀, before, hbefore, hreply⟩ := hfly
        refine ⟨trivial, ?_⟩
        rw [hreply]
        exact hanswer p hbefore hinv
    | @waited p f g _ hw' _ hreply =>
        obtain ⟨L₀, before, hbefore, hreply₀⟩ := hfly
        refine ⟨⟨L₀, before, hbefore, hreply.trans hreply₀⟩, ?_⟩
        rw [hw'.state]
        show J (L ++ []) w.state
        rw [List.append_nil]
        exact hinv
  · intro L w w' hinv hwaits
    rw [hwaits.state]
    exact hinv

end Delivery
