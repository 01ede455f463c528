import Delivery.Proofs.Courses
import Delivery.Proofs.Independence
import Delivery.Proofs.Settlements

/-!
# What a store makes of an operation

A store answers questions from what its creations leave alone. So an operation on a store comes to
what is settled by the answers from the store as it is at first: on its own (`Deed.run_settle`), and
wherever others create something as well, step by step (`Course.Comes.next`). As long as its context
is good it can go on to its end (`Course.Comes.proceeds`).
-/

namespace Delivery

variable {α : Type} {validates : Bool} {stamps : Nat → Promotion.Stamp} {sink : Sink}
  {config : Config} {context : Context}

/-- The context of a request has not ended. -/
def Context.Live {σ : Type} (context : Context) (w : World σ) : Prop :=
  context.check w.tokens w.now = .ok ()

theorem World.Still.live {σ : Type} {w v : World σ} (h : w.Still v) (hlive : context.Live w) :
    context.Live v := by
  unfold Context.Live
  rw [h.now, h.tokens]
  exact hlive

/-- Under such a context calls are made. -/
theorem Context.Live.starts {σ : Type} {s : Service σ} {w : World σ} (h : context.Live w)
    (htimeout : s.config.callTimeout ≠ some 0) : s.Starts context w :=
  Service.check_callContext h htimeout

/-! ## Answers of a store -/

namespace Store

/-- The answers of a store as it is. -/
def answers (validates : Bool) (s : Store) : Answers := fun r => (response validates r s).1

/-- A question leaves a store as it is. -/
theorem response_snd {r : Request} (hr : ∀ p, r ≠ .create p) (s : Store) :
    (response validates r s).2 = s := by
  cases r with
  | create p => exact absurd rfl (hr p)
  | _ => rfl

/-- And its answer does not depend on what was created. -/
theorem answers_creating {r : Request} (hr : ∀ p, r ≠ .create p) (s : Store)
    (created : Table Identity Json) (attempts : Nat) :
    answers validates (s.creating created attempts) r = answers validates s r := by
  cases r with
  | create p => exact absurd rfl (hr p)
  | validate project => cases validates <;> rfl
  | _ => rfl

/-- Whether a promotion can be created does not depend on its time. -/
theorem create_untimed (s : Store) (p : Promotion) :
    (s.create (.promotion p.untimed)).1 = (s.create (.promotion p)).1 := by
  rw [create_fst, create_fst]
  rfl

theorem timeless_answers (validates : Bool) (s : Store) : (s.answers validates).Timeless := by
  intro p q h
  have hp : (s.create (.promotion p.untimed)).1 = (s.create (.promotion p)).1 := s.create_untimed p
  rw [h, s.create_untimed q] at hp
  exact hp.symm

/-- The identities under which something was created are those of the promotions without their
times. -/
theorem isSome_createAll {ps : List Promotion} (s : Store)
    (hdistinct : ps.Pairwise fun p q => p.identity ≠ q.identity) (id : Identity) :
    ((createAll ps s).2.created.get? id).isSome ↔ (s.created.get? id).isSome ∨
      ∃ q ∈ ps.map Promotion.untimed, (s.create (.promotion q)).1 = .ok () ∧ id = q.identity := by
  simp only [Option.isSome_iff_exists, (createAll_eq s hdistinct).2]
  constructor
  · rintro ⟨v, hold | ⟨p, hp, hok, hid, -⟩⟩
    · exact .inl ⟨v, hold⟩
    · exact .inr ⟨p.untimed, List.mem_map_of_mem hp, (s.create_untimed p).trans hok, hid⟩
  · rintro (⟨v, hold⟩ | ⟨q, hq, hok, hid⟩)
    · exact ⟨v, .inl hold⟩
    · obtain ⟨p, hp, rfl⟩ := List.mem_map.1 hq
      exact ⟨p.toJson, .inr ⟨p, hp, (s.create_untimed p).symm.trans hok, hid, rfl⟩⟩

end Store

/-! ## On its own -/

section Alone

variable {w : World Store}

/-- Asking a store finds what its answers settle, and leaves it alone. -/
theorem Plan.Inquires.run_store {p : Plan α} (hp : p.Inquires)
    (hstarts : (Store.service validates stamps sink config).Starts context w) :
    ∃ v, p.run (Store.service validates stamps sink config) context w =
        ((p.settle (w.state.answers validates) stamps w.built).value, v) ∧
      v.state = w.state ∧ w.Still v := by
  generalize hstate : w.state = s
  induction p generalizing w with
  | done a => exact ⟨w, rfl, hstate, .refl w⟩
  | note n next ih =>
      have hnoted : w.Noted ((Store.service validates stamps sink config).take n w) :=
        (Store.service validates stamps sink config).noted_take n w
      obtain ⟨v, hrun, hv, hstill⟩ :=
        ih hp.2 (hnoted.still.starts hstarts) (hnoted.state_eq.trans hstate)
      rw [hnoted.still.built] at hrun
      exact ⟨v, hrun, hv, hnoted.still.trans hstill⟩
  | call r next ih =>
      obtain ⟨calls, hcall⟩ := Service.call_prompt (Store.serve_eq r w.state) hstarts
      rw [Store.response_snd hp.1, hstate] at hcall
      have hstill : w.Still { w with calls, state := s } := ⟨rfl, rfl, rfl⟩
      obtain ⟨v, hrun, hv, hstill'⟩ := ih (s.answers validates r) (hp.2 _)
        (hstill.starts hstarts) rfl
      refine ⟨v, ?_, hv, hstill.trans hstill'⟩
      rw [Plan.run, hcall]
      exact hrun
  | build stage freight next => cases hp
  | writes ps next => cases hp

/-- **On its own an operation comes to what is settled**, and the store creates what is tried. -/
theorem Deed.run_settle (d : Deed) (resolver : Resolver)
    (hstarts : (Store.service validates stamps sink config).Starts context w) :
    let t := (d.plan resolver).settle (w.state.answers validates) stamps w.built
    ∃ report w', (d.plan resolver).run (Store.service validates stamps sink config) context w =
        (report, w') ∧
      w'.built = t.built ∧ w'.state = (Store.createAll t.tries w.state).2 ∧
      (t.tries.Pairwise (fun p q => p.identity ≠ q.identity) → report = t.value) := by
  intro t
  cases d with
  | stage m =>
      obtain ⟨found, hfound, hsettle⟩ := settle_promoteStage (w.state.answers validates) m
      have hnoted : w.Noted ((Store.service validates stamps sink config).take
        (.line ⟨.debug, "Promoting stage", m.fields⟩) w) := Service.noted_take ..
      obtain ⟨v, hrun, hv, hstill⟩ := (inquires_eligibleStage m promotionCandidates).run_store
        (hnoted.still.starts hstarts)
      replace hstill := hnoted.still.trans hstill
      rw [hnoted.state_eq, hfound] at hrun
      rw [hnoted.state_eq] at hv
      have ht : t = ⟨.promoted _, _, _⟩ := Plan.settle_map ..
      rw [hsettle] at ht
      rw [Deed.run_stage]
      cases found with
      | error e =>
          rw [run_promoteStage_error hrun, ht]
          exact ⟨_, v, rfl, hstill.built, hv, fun _ => rfl⟩
      | ok stage =>
          obtain ⟨calls, hcall⟩ := Service.call_prompt (w := { v with built := v.built + 1 })
            (Store.serve_eq (.create (.build stage m.freight (stamps v.built))) v.state)
            (hstill.starts hstarts)
          obtain ⟨w', hnoted', hpromote⟩ := run_promoteStage_ok hrun hcall
          rw [hpromote, ht, ← hv, ← hstill.built]
          exact ⟨_, w', rfl, hnoted'.still.built, hnoted'.state_eq, fun _ => rfl⟩
  | subscribers m =>
      obtain ⟨found, hfound, hsettle⟩ :=
        settle_promoteSubscribers (w.state.answers validates) resolver m
      obtain ⟨v, hrun, hv, hstill⟩ := (inquires_resolution resolver m).run_store hstarts
      rw [hfound] at hrun
      have hsettle : (promoteSubscribers resolver m).settle (w.state.answers validates) stamps
          w.built = _ := hsettle (Store.service validates stamps sink config) w.built
      have ht : t = ⟨.cascaded _, _, _⟩ := Plan.settle_map ..
      rw [hsettle] at ht
      rw [Deed.run_subscribers]
      cases found with
      | error e =>
          rw [run_promoteSubscribers, hrun, ht]
          exact ⟨_, v, rfl, hstill.built, hv, fun _ => rfl⟩
      | ok subscribers =>
          obtain ⟨w', hcascade, hstate, hbuilt⟩ :=
            Store.run_cascade_built hrun (hstill.starts hstarts)
          rw [hv, hstill.built] at hcascade hstate
          have hcascade : (promoteSubscribers resolver m).run
            (Store.service validates stamps sink config) context w = (_, w') := hcascade
          rw [hcascade, ht]
          refine ⟨_, w', rfl, hbuilt.trans (by rw [hstill.built]), hstate, fun hdistinct => ?_⟩
          exact congrArg (fun outcomes => Report.cascaded (Collector.ofOutcomes outcomes).finish)
            (Store.createAll_eq w.state hdistinct).1

end Alone

/-! ## Step by step -/

namespace Course

/-- From here an operation can only come to a settlement, if its requests have fixed answers and
none of them waits. -/
def Comes (answer : Answers) (stamps : Nat → Promotion.Stamp) (t : Settlement α) :
    Course Store α → Prop
  | plan p w => p.settle answer stamps w.built = t
  | call .. => False
  | writes m next => ∃ done todo, m.Lined done todo ∧
      ((next (done ++ todo.map fun p => (p, answer (.create p)))).settle answer stamps
        m.world.built).after todo = t

variable {answer : Answers} {t : Settlement α} {c c' : Course Store α}

/-- What is come to does not depend on anything but the stamps that were used up. -/
theorem Comes.within (hc : c.Comes answer stamps t) {w : World Store}
    (hbuilt : w.built = c.world.built) : (c.within w).Comes answer stamps t := by
  cases c with
  | plan p w' =>
      show p.settle answer stamps w.built = t
      rw [hbuilt]
      exact hc
  | call r f next w' => exact hc
  | writes m next =>
      obtain ⟨done, todo, hlined, ht⟩ := hc
      refine ⟨done, todo, hlined, ?_⟩
      rw [← ht]
      show Settlement.after (Plan.settle answer stamps _ w.built) todo = _
      rw [hbuilt]
      rfl

/-- A call is answered, or creates what is to be tried next. -/
theorem comes_start {r : Request} {next : Except StoreError r.Answer → Plan α} {w : World Store}
    (hc : (plan (.call r next) w).Comes answer stamps t)
    (hstarts : (Store.service validates stamps sink config).Starts context w)
    (hasked : (∀ p, r ≠ .create p) → w.state.answers validates r = answer r)
    (htried : ∀ p rest, t.tries = p :: rest →
      (w.state.create (.promotion p)).1 = answer (.create p)) :
    let d := looked r next
      (w.start ((Store.service validates stamps sink config).callContext context w.now)
        ((Store.service validates stamps sink config).begin
          ((Store.service validates stamps sink config).callContext context w.now) r))
    d.Comes answer stamps t ∧ d.world.state = w.state ∨
      ∃ p rest, t.tries = p :: rest ∧ d.Comes answer stamps { t with tries := rest } ∧
        d.world.state = (w.state.create (.promotion p)).2 := by
  obtain ⟨w', hstart, hstate, hstill⟩ := Store.start_eq validates stamps sink r hstarts
  rw [hstart]
  dsimp only [looked]
  by_cases hr : ∀ p, r ≠ .create p
  · refine .inl ⟨?_, hstate.trans (Store.response_snd hr _)⟩
    have hanswer : (Store.response validates r w.state).1 = answer r := hasked hr
    rw [Comes, Plan.settle, Request.created_eq_nil hr, Settlement.after_nil] at hc
    rw [hanswer, Comes, hstill.built]
    exact hc
  · obtain ⟨p, rfl⟩ : ∃ p, r = .create p := by simpa using hr
    rw [Comes, Plan.settle] at hc
    subst hc
    have hanswer : (Store.response validates (.create p) w.state).1 = answer (.create p) :=
      htried p _ rfl
    refine .inr ⟨p, _, rfl, ?_, hstate⟩
    rw [hanswer, Comes, hstill.built]
    rfl

/-- Among writes nothing happens, or the next promotion is created. -/
theorem moment_cases {m m' : Moment Store Promotion Unit} {done : List (Promotion × WriteOutcome)}
    {todo : List Promotion} (hlined : m.Lined done todo)
    (hmoment : Moment.Next ((Store.service validates stamps sink config).startWrite context) m m')
    (hstarts : (Store.service validates stamps sink config).Starts context m.world) :
    m'.Lined done todo ∧ m'.world = m.world ∨
    ∃ p rest, todo = p :: rest ∧
      m'.Lined (done ++ [(p, (m.world.state.create (.promotion p)).1)]) rest ∧
      m'.world.state = (m.world.state.create (.promotion p)).2 ∧ m.world.Still m'.world := by
  have hprompt : (Store.service validates stamps sink config).Prompt :=
    Store.service_prompt validates none stamps sink config
  rcases hlined.next (hprompt.immediate context) hmoment with
    hsame | ⟨p, rest, outcome, rfl, hjob, hlined'⟩
  · exact .inl hsame
  · obtain ⟨w', hstart, hstate, hstill⟩ :=
      Store.start_eq validates stamps sink (.create p) hstarts
    have hjob : (Status.landed (m.world.state.create (.promotion p)).1, w') =
        (Status.landed outcome, m'.world) := hstart.symm.trans hjob
    obtain ⟨hlanded, rfl⟩ := Prod.mk.inj hjob
    rw [← Status.landed.inj hlanded] at hlined'
    exact .inr ⟨p, rest, rfl, hlined', hstate, hstill⟩

/-- **What a step does to what an operation comes to.** Either nothing happens to the store, or the
promotion that is to be tried next is created there. Only the answers to questions and to that
creation have to be as they were fixed. -/
theorem Comes.next (hc : c.Comes answer stamps t)
    (hnext : Next (Store.service validates stamps sink config) context c c')
    (hstarts : (Store.service validates stamps sink config).Starts context c.world)
    (hasked : ∀ r, (∀ p, r ≠ .create p) → c.world.state.answers validates r = answer r)
    (htried : ∀ p rest, t.tries = p :: rest →
      (c.world.state.create (.promotion p)).1 = answer (.create p)) :
    c'.Comes answer stamps t ∧ c'.world.state = c.world.state ∨
    ∃ p rest, t.tries = p :: rest ∧ c'.Comes answer stamps { t with tries := rest } ∧
      c'.world.state = (c.world.state.create (.promotion p)).2 := by
  cases hnext with
  | @note n next w =>
      have hnoted : w.Noted ((Store.service validates stamps sink config).take n w) :=
        Service.noted_take ..
      refine .inl ⟨?_, hnoted.state_eq⟩
      rw [Comes, hnoted.still.built]
      exact hc
  | build => exact .inl ⟨hc, rfl⟩
  | start => exact comes_start hc hstarts (hasked _) htried
  | look => cases hc
  | @enter ps next w => exact .inl ⟨⟨[], ps, Moment.line_mk _ _ _, hc⟩, rfl⟩
  | @moment m m' next hmoment =>
      obtain ⟨done, todo, hlined, ht⟩ := hc
      rcases moment_cases hlined hmoment hstarts with
        ⟨hlined', hworld⟩ | ⟨p, rest, rfl, hlined', hstate, hstill⟩
      · refine .inl ⟨⟨done, todo, hlined', ?_⟩, congrArg World.state hworld⟩
        rw [hworld]
        exact ht
      · subst ht
        have hcreated : (m.world.state.create (.promotion p)).1 = answer (.create p) :=
          htried p _ rfl
        refine .inr ⟨p, _, rfl, ⟨_, rest, hlined', ?_⟩, hstate⟩
        rw [hstill.built, hcreated, List.append_assoc]
        rfl
  | @leave taken limit w next =>
      obtain ⟨done, todo, hlined, ht⟩ := hc
      obtain ⟨rfl, rfl⟩ := hlined.eq_of_done
      rw [List.map_nil, List.append_nil] at ht
      exact .inl ⟨ht, rfl⟩
  | @meanwhile c w hwaits =>
      refine .inl ⟨hc.within hwaits.built, ?_⟩
      rw [world_within]
      exact hwaits.state

/-! ## To the end -/

/-- Nothing waits for an answer here. -/
def Idle : Course Store α → Prop
  | plan .. => True
  | call .. => False
  | writes m _ => ∃ done todo, m.Lined done todo

theorem Comes.idle (hc : c.Comes answer stamps t) : c.Idle := by
  cases c with
  | plan => trivial
  | call => cases hc
  | writes m next =>
      obtain ⟨done, todo, hlined, -⟩ := hc
      exact ⟨done, todo, hlined⟩

/-- Any number of steps later, none of which ended the context. -/
def Proceeds (s : Service Store) (context : Context) : Course Store α → Course Store α → Prop :=
  Relation.ReflTransGen fun c c' => Next s context c c' ∧ context.Live c'.world

section Live

variable (htimeout : config.callTimeout ≠ some 0)
include htimeout

/-- All writes can be made. -/
theorem proceeds_moment {m m' : Moment Store Promotion Unit}
    {next : List (Promotion × WriteOutcome) → Plan α}
    (h : Moment.Reaches ((Store.service validates stamps sink config).startWrite context) m m')
    (hm : (writes m next).Idle) (hlive : context.Live m.world) :
    Proceeds (Store.service validates stamps sink config) context (writes m next)
        (writes m' next) ∧
      (writes m' next).Idle ∧ context.Live m'.world := by
  induction h with
  | refl => exact ⟨.refl, hm, hlive⟩
  | @tail m₁ m₂ _ hmoment ih =>
      obtain ⟨hproceeds, ⟨done, todo, hlined⟩, hlive₁⟩ := ih
      have hstep : (writes m₂ next).Idle ∧ context.Live m₂.world := by
        rcases moment_cases hlined hmoment (hlive₁.starts htimeout) with
          ⟨hlined', hworld⟩ | ⟨p, rest, -, hlined', -, hstill⟩
        · rw [hworld]
          exact ⟨⟨done, todo, hlined'⟩, hlive₁⟩
        · exact ⟨⟨_, rest, hlined'⟩, hstill.live hlive₁⟩
      exact ⟨hproceeds.tail ⟨.moment hmoment, hstep.2⟩, hstep⟩

theorem proceeds_writes (m : Moment Store Promotion Unit)
    (next : List (Promotion × WriteOutcome) → Plan α) (hm : (writes m next).Idle)
    (hlive : context.Live m.world) :
    ∃ outcomes w, Proceeds (Store.service validates stamps sink config) context (writes m next)
      (plan (next outcomes) w) ∧ context.Live w := by
  obtain ⟨hproceeds, -, hend⟩ :=
    proceeds_moment htimeout (Moment.reaches_run _ m.window m.world m.taken) hm hlive
  exact ⟨_, _, hproceeds.tail ⟨.leave, hend⟩, hend⟩

theorem proceeds_plan (p : Plan α) {w : World Store} (hlive : context.Live w) :
    ∃ a w', Proceeds (Store.service validates stamps sink config) context (plan p w)
      (plan (.done a) w') := by
  induction p generalizing w with
  | done a => exact ⟨a, w, .refl⟩
  | note n next ih =>
      have hnoted : w.Noted ((Store.service validates stamps sink config).take n w) :=
        Service.noted_take ..
      obtain ⟨a, w', h⟩ := ih (hnoted.still.live hlive)
      exact ⟨a, w', .head ⟨.note, hnoted.still.live hlive⟩ h⟩
  | build stage freight next ih =>
      have hbuilt : context.Live { w with built := w.built + 1 } := hlive
      obtain ⟨a, w', h⟩ := ih (.build stage freight (stamps w.built)) hbuilt
      exact ⟨a, w', .head ⟨.build, hbuilt⟩ h⟩
  | call r next ih =>
      obtain ⟨v, hstart, -, hstill⟩ :=
        Store.start_eq validates stamps sink r (hlive.starts htimeout)
      obtain ⟨a, w', h⟩ := ih _ (hstill.live hlive)
      refine ⟨a, w', .head ⟨.start, ?_⟩ ?_⟩
      · rw [hstart]
        exact hstill.live hlive
      · rw [hstart]
        exact h
  | writes ps next ih =>
      obtain ⟨outcomes, v, h, hv⟩ := proceeds_writes htimeout ⟨[], ⟨_, ps, []⟩, w⟩ next
        ⟨[], ps, Moment.line_mk _ _ _⟩ hlive
      obtain ⟨a, w', h'⟩ := ih outcomes hv
      exact ⟨a, w', .head ⟨.enter, hlive⟩ (h.trans h')⟩

/-- **As long as its context is good an operation can go on to its end.** -/
theorem Comes.proceeds (hc : c.Comes answer stamps t) (hlive : context.Live c.world) :
    ∃ a w, Proceeds (Store.service validates stamps sink config) context c (plan (.done a) w) := by
  cases c with
  | plan p w => exact proceeds_plan htimeout p hlive
  | call => cases hc
  | writes m next =>
      obtain ⟨outcomes, v, h, hv⟩ := proceeds_writes htimeout m next hc.idle hlive
      obtain ⟨a, w, h'⟩ := proceeds_plan htimeout (next outcomes) hv
      exact ⟨a, w, h.trans h'⟩

end Live

end Course

end Delivery
