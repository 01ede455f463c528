import Delivery.Proofs.Stopping

/-!
# The operations when they are stopped

Both operations are careful plans (`Plan.Careful`): a request that fails ends them with its failure,
and after the writes nothing is left to do but to report. That holds wherever they are
(`Course.Careful`), so where they are stopped decides what they return
(`Service.stopped_operations`).
-/

namespace Delivery

variable {σ α β : Type}

/-- Nothing is left of the plan but notes and a value. -/
inductive Plan.Yields (a : α) : Plan α → Prop
  | done : Yields a (.done a)
  | note {n next} : Yields a next → Yields a (.note n next)

/-- The plan ends with a value that tells of the failure, as soon as a request fails, and with one
that `W` allows after its writes. -/
def Plan.Careful (fail : StoreError → α)
    (W : List Promotion → List (Promotion × WriteOutcome) → α → Prop) : Plan α → Prop
  | .done _ => True
  | .note _ next => next.Careful fail W
  | .call _ next => (∀ e, (next (.error e)).Yields (fail e)) ∧ ∀ a, (next (.ok a)).Careful fail W
  | .build stage freight next => ∀ stamp, (next (.build stage freight stamp)).Careful fail W
  | .writes promotions next => ∀ os, ∃ a, W promotions os a ∧ (next os).Yields a

namespace Plan

variable {fail : StoreError → α} {fail' : StoreError → β}
  {W : List Promotion → List (Promotion × WriteOutcome) → α → Prop}
  {W' : List Promotion → List (Promotion × WriteOutcome) → β → Prop}

theorem Yields.bind {p : Plan α} {f : α → Plan β} {a : α} {b : β} (hp : p.Yields a)
    (hf : (f a).Yields b) : (p.bind f).Yields b := by
  induction hp with
  | done => exact hf
  | note _ ih => exact .note ih

theorem Yields.careful {p : Plan α} {a : α} (hp : p.Yields a) : p.Careful fail W := by
  induction hp with
  | done => trivial
  | note _ ih => exact ih

theorem Yields.eq_of_comesTo {p : Plan α} {a b : α} {E : StoreError → Prop} (hp : p.Yields a)
    (h : p.ComesTo E b) : b = a := by
  induction hp with
  | done => exact Eq.symm h
  | note _ ih => exact ih h

theorem Careful.mono {p : Plan α} {V : List Promotion → List (Promotion × WriteOutcome) → α → Prop}
    (hp : p.Careful fail W) (h : ∀ ps os a, W ps os a → V ps os a) : p.Careful fail V := by
  induction p with
  | done a => trivial
  | note n next ih => exact ih hp
  | call r next ih => exact ⟨hp.1, fun a => ih _ (hp.2 a)⟩
  | build stage freight next ih => exact fun stamp => ih _ (hp stamp)
  | writes promotions next =>
      intro os
      obtain ⟨a, ha, hyields⟩ := hp os
      exact ⟨a, h _ _ _ ha, hyields⟩

theorem yields_log (level : Level) (message : String) (fields : List (String × LogValue)) :
    (log level message fields).Yields () := .note .done

/-- No writes. -/
def Unwritten (_ : List Promotion) (_ : List (Promotion × WriteOutcome)) (_ : α) : Prop := False

theorem Careful.bind {p : Plan α} {f : α → Plan β} (hp : p.Careful fail Unwritten)
    (herror : ∀ e, (f (fail e)).Yields (fail' e)) (hok : ∀ a, (f a).Careful fail' W') :
    (p.bind f).Careful fail' W' := by
  induction p with
  | done a => exact hok a
  | note n next ih => exact ih hp
  | call r next ih => exact ⟨fun e => (hp.1 e).bind (herror e), fun a => ih _ (hp.2 a)⟩
  | build stage freight next ih => exact fun stamp => ih _ (hp stamp)
  | writes promotions next =>
      obtain ⟨a, hfalse, -⟩ := hp []
      cases hfalse

theorem Careful.notes_bind {p : Plan α} {f : α → Plan β} {a : α} (hp : p.Yields a)
    (hf : (f a).Careful fail' W') : (p.bind f).Careful fail' W' := by
  induction hp with
  | done => exact hf
  | note _ ih => exact ih

end Plan

/-! ## Queries -/

/-- A plan that passes on the failure of each of its requests, and writes nothing. -/
def Plan.Asks (p : Plan (Except StoreError α)) : Prop := p.Careful Except.error Plan.Unwritten

theorem Plan.asks_ask (r : Request) : (Plan.ask r).Asks := ⟨fun _ => .done, fun _ => trivial⟩

theorem Plan.Asks.bind {p : Plan (Except StoreError α)} {fail : StoreError → β}
    {W : List Promotion → List (Promotion × WriteOutcome) → β → Prop}
    {f : Except StoreError α → Plan β} (hp : p.Asks) (herror : ∀ e, (f (.error e)).Yields (fail e))
    (hok : ∀ a, (f (.ok a)).Careful fail W) : (p.bind f).Careful fail W := by
  refine Plan.Careful.bind hp herror fun a => ?_
  rcases a with e | a
  · exact (herror e).careful
  · exact hok a

theorem asks_fetchStage (key : Key) : (fetchStage key).Asks :=
  Plan.Careful.notes_bind (Plan.yields_log _ _ _) (Plan.asks_ask (.stage key))

theorem asks_listStages (project : String) : (listStages project).Asks :=
  (Plan.asks_ask _).bind (fun _ => .done) fun _ => trivial

theorem asks_qualifiedFreight (key : Key) (candidates : List String) :
    (qualifiedFreight key candidates).Asks :=
  (Plan.asks_ask _).bind (fun _ => .done) fun _ => trivial

theorem asks_subscribers (resolver : Resolver) (stage : Stage) :
    (resolver.subscribers stage).Asks := by
  cases resolver with
  | index => exact Plan.asks_ask _
  | scan => exact (asks_listStages _).bind (fun _ => .done) fun _ => trivial

/-! ## Operations -/

/-- The value of an operation that a failed request has ended. -/
def Operation.failed (e : StoreError) : Except PromotionError α := .error (.internal e)

namespace Operation

variable {W : List Promotion → List (Promotion × WriteOutcome) → β → Prop}

/-- An operation that is careful, and writes nothing. -/
def Careful (x : Operation α) : Prop := x.run.Careful failed Plan.Unwritten

theorem Careful.bind {x : Operation α} {f : α → Operation β} (hx : x.Careful)
    (hf : ∀ a, (f a).Careful) : (x >>= f).Careful := by
  unfold Careful
  rw [ExceptT.run_bind]
  refine Plan.Careful.bind hx (fun _ => .done) fun a => ?_
  rcases a with e | a
  · trivial
  · exact hf a

theorem run_step_bind (p : Plan α) (f : α → Operation β) :
    (step p >>= f).run = p.bind fun a => (f a).run := by
  rw [ExceptT.run_bind]
  exact Plan.bind_bind p _ _

theorem Careful.after_notes {p : Plan α} {a : α} (hp : p.Yields a) {f : α → Operation β}
    (hf : (f a).Careful) : (step p >>= f).Careful := by
  unfold Careful
  rw [run_step_bind]
  exact .notes_bind hp hf

theorem careful_query {p : Plan (Except StoreError α)} (hp : p.Asks) (m : Move)
    (action : String) : (query m action p).Careful := by
  unfold Careful query
  rw [run_step_bind]
  exact hp.bind (fun _ => .note .done) fun _ => trivial

theorem careful_eligibleStage (m : Move) (candidates : Stage → List String) :
    (eligibleStage m candidates).Careful := by
  unfold eligibleStage
  cases m.flaw? with
  | some e => trivial
  | none =>
      refine (careful_query (Plan.asks_ask _) m _).bind fun valid => ?_
      rcases valid with e | ⟨⟩
      · trivial
      refine (careful_query (asks_fetchStage _) m _).bind fun found => ?_
      rcases found with _ | stage
      · trivial
      refine (careful_query (asks_qualifiedFreight _ _) m _).bind fun freight => ?_
      cases freight <;> trivial

theorem careful_promoteStage (m : Move) : (promoteStage m).Careful := by
  unfold promoteStage
  refine .after_notes (Plan.yields_log _ _ _) ?_
  refine (careful_eligibleStage m _).bind fun stage => ?_
  unfold Careful
  rw [run_step_bind]
  intro stamp
  show Plan.Careful failed Plan.Unwritten
    (step (Plan.ask (.create (.build stage m.freight stamp))) >>= _).run
  rw [run_step_bind]
  exact (Plan.asks_ask _).bind (fun _ => .note (.note .done)) fun _ => trivial

theorem careful_resolution (resolver : Resolver) (m : Move) :
    (resolution resolver m).Careful := by
  unfold resolution
  refine .after_notes (Plan.yields_log _ _ _) ?_
  refine (careful_eligibleStage m _).bind fun stage => ?_
  refine (careful_query (asks_subscribers resolver stage) m _).bind fun subscribers => ?_
  split <;> trivial

end Operation

/-! ## Cascades -/

theorem yields_reportOutcomes (m : Move) (os : List (Promotion × WriteOutcome)) :
    (reportOutcomes m os).Yields () := by
  induction os with
  | nil => exact .done
  | cons o rest ih =>
      obtain ⟨p, outcome⟩ := o
      have hone : (reportOutcome m p outcome).Yields () := by
        rcases outcome with e | ⟨⟩
        · exact .note (.note .done)
        · exact .note (.note .done)
      exact hone.bind ih

theorem yields_reportCascade (m : Move) (total failed : Nat) (result : CascadeResult) :
    (reportCascade m total failed result).Yields () := .note (.note .done)

/-- Promotions are of some stages, one of each. -/
def BuiltFor (freight : String) (stages : List Stage) (promotions : List Promotion) : Prop :=
  List.Forall₂ (fun stage p => ∃ stamp, p = .build stage freight stamp) stages promotions

/-- What a cascade to some subscribers makes of its writes. -/
def CascadeResult.Tells (freight : String) (subscribers : List Stage) (promotions : List Promotion)
    (os : List (Promotion × WriteOutcome)) (result : CascadeResult) : Prop :=
  BuiltFor freight subscribers promotions ∧ result = (Collector.ofOutcomes os).finish

theorem Plan.Careful.promotions_bind {fail : StoreError → α}
    {W : List Promotion → List (Promotion × WriteOutcome) → α → Prop} {stages : List Stage}
    {freight : String} {f : List Promotion → Plan α}
    (hf : ∀ ps, BuiltFor freight stages ps → (f ps).Careful fail W) :
    ((Plan.promotions stages freight).bind f).Careful fail W := by
  induction stages generalizing f with
  | nil => exact hf [] .nil
  | cons stage rest ih =>
      intro stamp
      show (((Plan.promotions rest freight).bind fun ps =>
        .done (.build stage freight stamp :: ps)).bind f).Careful fail W
      rw [Plan.bind_bind]
      exact ih fun ps hps => hf _ (.cons ⟨stamp, rfl⟩ hps)

/-- The value of a cascade that a failed request has ended. -/
def CascadeResult.failed (e : StoreError) : CascadeResult := .rejected (.internal e)

theorem careful_cascadeTo (m : Move) (subscribers : List Stage) :
    (cascadeTo m subscribers).Careful CascadeResult.failed
      (CascadeResult.Tells m.freight subscribers) := by
  refine Plan.Careful.promotions_bind fun ps hps => ?_
  intro os
  refine ⟨_, ⟨hps, rfl⟩, ?_⟩
  exact (yields_reportOutcomes m os).bind ((yields_reportCascade m _ _ _).bind .done)

/-- A cascade is its resolution, followed by the writes. -/
theorem promoteSubscribers_eq (resolver : Resolver) (m : Move) :
    promoteSubscribers resolver m = (resolution resolver m).run.bind fun a =>
      match a with
      | .ok subscribers => cascadeTo m subscribers
      | .error e => .done (.rejected e) := by
  rw [promoteSubscribers, cascade_eq, ExceptT.run_bind, Plan.bind_def, Plan.bind_def,
    Plan.bind_bind]
  congr 1
  funext a
  rcases a with e | subscribers
  · rfl
  · show (((cascadeTo m subscribers).bind fun r =>
      .done (Except.ok r : Except PromotionError CascadeResult)).bind _) = _
    rw [Plan.bind_bind]
    exact Plan.bind_done _

theorem careful_promoteSubscribers (resolver : Resolver) (m : Move) :
    (promoteSubscribers resolver m).Careful CascadeResult.failed
      fun ps os result => ∃ subscribers, CascadeResult.Tells m.freight subscribers ps os result := by
  rw [promoteSubscribers_eq]
  refine Plan.Careful.bind (Operation.careful_resolution resolver m) (fun _ => .done) fun a => ?_
  rcases a with e | subscribers
  · trivial
  · exact (careful_cascadeTo m subscribers).mono fun _ _ _ htells => ⟨subscribers, htells⟩

/-! ## On their course -/

/-- What a plan does next is to make a request. -/
def Plan.CallDue : Plan α → Prop
  | .note _ next => next.CallDue
  | .build stage freight next => ∀ stamp, (next (.build stage freight stamp)).CallDue
  | .call .. => True
  | _ => False

/-- What a plan does next is to write. -/
def Plan.WritesDue : Plan α → Prop
  | .note _ next => next.WritesDue
  | .build stage freight next => ∀ stamp, (next (.build stage freight stamp)).WritesDue
  | .writes .. => True
  | _ => False

namespace Course

/-- The operation is careful in all that is left of it. -/
def Careful (fail : StoreError → α)
    (W : List Promotion → List (Promotion × WriteOutcome) → α → Prop) : Course σ α → Prop
  | plan p _ => p.Careful fail W
  | call _ _ next _ => (∀ e, (next (.error e)).Yields (fail e)) ∧
      ∀ a, (next (.ok a)).Careful fail W
  | writes m next => ∀ os, ∃ a, W (m.line.map Slot.job) os a ∧ (next os).Yields a

/-- A call waits, or is due next. -/
def CallDue : Course σ α → Prop
  | plan p _ => p.CallDue
  | call .. => True
  | writes .. => False

/-- The deadline of the call that waits or is due. -/
def deadline (context : Context) : Course σ α → Option Deadline
  | call _ f _ _ => f.context.deadline
  | _ => context.deadline

/-- The writes are due next. -/
def WritesDue : Course σ α → Prop
  | plan p _ => p.WritesDue
  | _ => False

variable {fail : StoreError → α} {W : List Promotion → List (Promotion × WriteOutcome) → α → Prop}
  {s : Service σ} {context : Context} {c c' : Course σ α}

theorem careful_looked {r : Request} {next : Except StoreError r.Answer → Plan α}
    (herror : ∀ e, (next (.error e)).Yields (fail e))
    (hok : ∀ a, (next (.ok a)).Careful fail W) (p : Status σ r.Answer × World σ) :
    (looked r next p).Careful fail W := by
  obtain ⟨status, w⟩ := p
  rcases status with (e | a) | f
  · exact (herror e).careful
  · exact hok a
  · exact ⟨herror, hok⟩

theorem jobs_moment {m m' : Moment σ Promotion Unit}
    (h : Moment.Next (s.startWrite context) m m') :
    m'.line.map Slot.job = m.line.map Slot.job := by
  rcases h.line_cases with ⟨hline, -, -⟩ | ⟨pre, a, post, b, hline, hline', hadv, -, -⟩
  · rw [hline]
  · rw [hline, hline', List.map_append, List.map_append, List.map_cons, List.map_cons,
      (Window.Slot.advance_eq_some hadv).1]

theorem Next.careful (h : Next s context c c') (hc : c.Careful fail W) : c'.Careful fail W := by
  cases h with
  | note => exact hc
  | build => exact hc _
  | start => exact careful_looked hc.1 hc.2 _
  | look => exact careful_looked hc.1 hc.2 _
  | enter =>
      intro os
      obtain ⟨a, ha, hyields⟩ := hc os
      refine ⟨a, ?_, hyields⟩
      rw [Moment.line_mk, List.map_map]
      show W (List.map id _) os a
      rw [List.map_id]
      exact ha
  | moment hnext =>
      intro os
      rw [jobs_moment hnext]
      exact hc os
  | @leave taken =>
      obtain ⟨a, -, hyields⟩ := hc taken
      exact hyields.careful
  | @meanwhile c w _ => cases c <;> exact hc

end Course

theorem Plan.Careful.fails {fail : StoreError → α}
    {W : List Promotion → List (Promotion × WriteOutcome) → α → Prop} {p : Plan α}
    {E : StoreError → Prop} {a : α} (hp : p.Careful fail W) (hdue : p.CallDue)
    (h : p.ComesTo E a) : ∃ e, E e ∧ a = fail e := by
  induction p with
  | done c => cases hdue
  | note n next ih => exact ih hp hdue h
  | build stage freight next ih =>
      obtain ⟨stamp, h⟩ := h
      exact ih _ (hp stamp) (hdue stamp) h
  | call r next =>
      obtain ⟨e, he, h⟩ := h
      exact ⟨e, he, (hp.1 e).eq_of_comesTo h⟩
  | writes promotions next => cases hdue

theorem Plan.Careful.writes {fail : StoreError → α}
    {W : List Promotion → List (Promotion × WriteOutcome) → α → Prop} {p : Plan α}
    {E : StoreError → Prop} {a : α} (hp : p.Careful fail W) (hdue : p.WritesDue)
    (h : p.ComesTo E a) : ∃ promotions os, List.Forall₂
      (fun p o => o.1 = p ∧ ∃ e, E e ∧ o.2 = .error e) promotions os ∧ W promotions os a := by
  induction p with
  | done c => cases hdue
  | note n next ih => exact ih hp hdue h
  | build stage freight next ih =>
      obtain ⟨stamp, h⟩ := h
      exact ih _ (hp stamp) (hdue stamp) h
  | call r next => cases hdue
  | writes promotions next =>
      obtain ⟨os, hos, h⟩ := h
      obtain ⟨b, hb, hyields⟩ := hp os
      rw [hyields.eq_of_comesTo h]
      exact ⟨promotions, os, hos, hb⟩

/-- What is said of an operation that is stopped where it is. -/
structure Service.Stopped (s : Service σ) (context : Context) (stop : Stop)
    (fail : StoreError → α) (W : List Promotion → List (Promotion × WriteOutcome) → α → Prop)
    (c : Course σ α) : Prop where
  /-- It comes to an end. -/
  ends : ∃ a w, Course.Reaches s context c (.plan (.done a) w)
  /-- No call is started any more. -/
  silent : ∀ c', Course.Reaches s context c c' → c'.world.calls = c.world.calls
  /-- If a call waits or is due, the operation fails with the failure of that call's context. -/
  fails : c.CallDue → ∀ a w, Course.Reaches s context c (.plan (.done a) w) →
    ∃ e, stop.Fails context (c.deadline context) w e ∧ a = fail e
  /-- If writes are under way, those that are over keep their outcomes, and all others fail. -/
  writing : ∀ m next, c = .writes m next → ∀ a w, Course.Reaches s context c (.plan (.done a) w) →
    ∃ os, List.Forall₂ (Slot.EndsAs stop context w) m.line os ∧ W (m.line.map Slot.job) os a
  /-- If the writes are due, all of them fail. -/
  unwritten : c.WritesDue → ∀ a w, Course.Reaches s context c (.plan (.done a) w) →
    ∃ promotions os, List.Forall₂
      (fun p o => o.1 = p ∧ ∃ e, stop.Fails context context.deadline w e ∧ o.2 = .error e)
      promotions os ∧ W promotions os a

theorem Service.stopped_of_careful {s : Service σ} {context : Context} {stop : Stop}
    {fail : StoreError → α} {W : List Promotion → List (Promotion × WriteOutcome) → α → Prop}
    {p : Plan α} {w : World σ} {c : Course σ α} (hp : p.Careful fail W)
    (hc : Course.Reaches s context (.plan p w) c) (hstop : stop.Holds context c.world) :
    s.Stopped context stop fail W c := by
  have hown : c.Own s context := hc.keeps (fun _ _ hnext h => hnext.own h) trivial
  have hcareful : c.Careful fail W := hc.keeps (fun _ _ hnext h => hnext.careful h) hp
  refine ⟨Course.exists_end s context c, fun c' h => h.stopped_calls hstop hown, ?_, ?_, ?_⟩
  · intro hdue a v h
    have hends := h.stopped_end hstop hown
    cases c with
    | plan p w => exact Plan.Careful.fails hcareful hdue hends
    | call r f next w =>
        obtain ⟨e, he, hends⟩ := hends
        exact ⟨e, he, (hcareful.1 e).eq_of_comesTo hends⟩
    | writes m next => cases hdue
  · rintro m next rfl a v h
    obtain ⟨os, hos, hends⟩ := h.stopped_end hstop hown
    obtain ⟨b, hb, hyields⟩ := hcareful os
    rw [hyields.eq_of_comesTo hends]
    exact ⟨os, hos, hb⟩
  · intro hdue a v h
    cases c with
    | plan p w => exact Plan.Careful.writes hcareful hdue (h.stopped_end hstop hown)
    | call r f next w => cases hdue
    | writes m next => cases hdue

/-- The writes of a cascade are those to the subscribers that were found. -/
theorem Course.Reaches.writes_found {s : Service σ} {context : Context} {m : Move} {w : World σ}
    {m' : Moment σ Promotion Unit} {next : List (Promotion × WriteOutcome) → Plan CascadeResult}
    (h : Reaches s context (plan (promoteSubscribers s.resolver m) w) (writes m' next)) :
    ∃ subscribers v,
      Reaches s context (plan (resolution s.resolver m).run w) (plan (.done (.ok subscribers)) v) ∧
      BuiltFor m.freight subscribers (m'.line.map Slot.job) := by
  rw [promoteSubscribers_eq] at h
  rcases Reaches.of_bind (c := plan (resolution s.resolver m).run w) h with
    ⟨c, hc, heq⟩ | ⟨a, v, hfirst, hsecond⟩
  · -- The resolution itself writes nothing.
    have hcareful : c.Careful Operation.failed Plan.Unwritten :=
      hc.keeps (fun _ _ hnext h => hnext.careful h) (Operation.careful_resolution _ m)
    cases c with
    | plan p w => cases heq
    | call r f next w => cases heq
    | writes m next =>
        obtain ⟨a, hfalse, -⟩ := hcareful []
        cases hfalse
  · rcases a with e | subscribers
    · have hcareful : (writes m' next).Careful CascadeResult.failed Plan.Unwritten :=
        hsecond.keeps (fun _ _ hnext h => hnext.careful h) trivial
      obtain ⟨a, hfalse, -⟩ := hcareful []
      cases hfalse
    · have hcareful : (writes m' next).Careful CascadeResult.failed
          (CascadeResult.Tells m.freight subscribers) :=
        hsecond.keeps (fun _ _ hnext h => hnext.careful h) (careful_cascadeTo m subscribers)
      obtain ⟨result, ⟨hbuilt, -⟩, -⟩ := hcareful []
      exact ⟨subscribers, v, hfirst, hbuilt⟩

/-- **A stop settles everything that has not happened yet.** Wherever the two operations are when
the caller's token is cancelled or the caller's deadline has passed: they end, and start no call any
more. With a call that waits or is due they fail as a whole, with the reason of the cancellation or
the expiry of the deadline; with writes under way, one for each subscriber that was found, the
outcomes that are there are kept, and every other subscriber has such a failure for its outcome. -/
theorem Service.stopped_operations {σ : Type} (s : Service σ) (context : Context) (m : Move)
    (w : World σ) (stop : Stop) :
    (∀ c, Course.Reaches s context (.plan (promoteStage m).run w) c →
      stop.Holds context c.world →
      s.Stopped context stop (fun e => .error (.internal e)) Plan.Unwritten c) ∧
    (∀ c, Course.Reaches s context (.plan (promoteSubscribers s.resolver m) w) c →
      stop.Holds context c.world →
      s.Stopped context stop (fun e => .rejected (.internal e))
        (fun ps os result => ∃ subscribers, CascadeResult.Tells m.freight subscribers ps os result)
        c ∧
      ∀ m' next, c = .writes m' next → ∃ subscribers v,
        Course.Reaches s context (.plan (resolution s.resolver m).run w)
          (.plan (.done (.ok subscribers)) v) ∧
        BuiltFor m.freight subscribers (m'.line.map Slot.job)) := by
  refine ⟨fun c hc hstop => ?_, fun c hc hstop => ⟨?_, ?_⟩⟩
  · exact stopped_of_careful (Operation.careful_promoteStage m) hc hstop
  · exact stopped_of_careful (careful_promoteSubscribers s.resolver m) hc hstop
  · rintro m' next rfl
    exact hc.writes_found

/-- Three stages subscribe to `dev`, and writes take no time but for the one of `b`. -/
def staggered : Service Unit where
  validator := none
  reader := .prompt fun key _ => (.ok (some (.named key.project key.name)), ())
  lister := .prompt fun project _ =>
    (.ok (["a", "b", "c"].map fun name => (Stage.named project name).withSource "dev"), ())
  freight := .prompt fun r _ => (.ok (some (.named r.1.project r.1.name)), ())
  creator := fun p _ =>
    (if p.stage = "b" then .sleep Duration.second (.answer fun _ => (.ok (), ()))
      else .answer fun _ => (.ok (), ()), ())
  index := none
  stamps n := ⟨.ofNat n, default⟩
  sink := .discarding
  config := { maxConcurrentWrites := 2 }

theorem staggered_reaches :
    ∃ m next a b c f, Course.Reaches staggered ⟨0, none⟩
        (.plan (promoteSubscribers .scan ⟨"proj", "dev", "f1"⟩) { state := () })
        (.writes m next) ∧
      (Stop.cancelled "stop").Holds ⟨0, none⟩ m.world ∧
      m.line = [.landed a (.ok ()), .flying b f, .fresh c] ∧
      a.stage = "a" ∧ b.stage = "b" ∧ c.stage = "c" := by
  refine ⟨?m, ?next, ?a, ?b, ?c, ?f, ?hreach, ?hholds, ?hline, ?ha, ?hb, ?hc⟩
  case hreach =>
    refine .head .note <| .head .start <| .head .note <| .head .start <| .head .start <|
      .head .note <| .head .start <| .head .note <| .head .note <|
      .head .build <| .head .build <| .head .build <| .head .enter <| ?_
    refine .head (.moment (.enter _)) <| .head (.moment (.advance rfl rfl)) <|
      .head (.moment (.take rfl)) <| .head (.moment (.enter _)) <|
      .head (.moment (.advance rfl rfl)) <| .single ?_
    exact .meanwhile (World.waits_cancel _ 0 "stop")
  case hholds => rfl
  case hline => rfl
  case ha => rfl
  case hb => rfl
  case hc => rfl

/-- One operation is cancelled before it begins, the other one while a write is done, another waits
and a third was not started yet. -/
theorem Service.stopped_operations_staggered :
    (∀ result w, Course.Reaches staggered ⟨0, none⟩
        (.plan (promoteStage ⟨"proj", "a", "f1"⟩).run (World.cancel { state := () } 0 "stop"))
        (.plan (.done result) w) →
      w.calls = [] ∧ result = .error (.internal (.cancelled "stop"))) ∧
    ∃ m next, Course.Reaches staggered ⟨0, none⟩
        (.plan (promoteSubscribers .scan ⟨"proj", "dev", "f1"⟩) { state := () })
        (.writes m next) ∧
      (Stop.cancelled "stop").Holds ⟨0, none⟩ m.world ∧
      ∀ result w, Course.Reaches staggered ⟨0, none⟩ (.writes m next) (.plan (.done result) w) →
        w.calls = m.world.calls ∧ result.promotions.map Promotion.stage = ["a"] ∧
          result.error = some (.partialFailure
            [⟨"b", .cancelled "stop"⟩, ⟨"c", .cancelled "stop"⟩]) := by
  obtain ⟨m, next, a, b, c, f, hreach, hholds, hline, ha, hb, hc⟩ := staggered_reaches
  refine ⟨fun result w hend => ?_, m, next, hreach, hholds, fun result w hend => ?_⟩
  · have hstopped := (stopped_operations staggered ⟨0, none⟩ ⟨"proj", "a", "f1"⟩
      (World.cancel { state := () } 0 "stop") (.cancelled "stop")).1 _ .refl rfl
    obtain ⟨e, he, rfl⟩ := hstopped.fails trivial result w hend
    obtain rfl : e = .cancelled "stop" := he
    exact ⟨hstopped.silent _ hend, rfl⟩
  · obtain ⟨hstopped, -⟩ := (stopped_operations staggered ⟨0, none⟩ ⟨"proj", "dev", "f1"⟩
      { state := () } (.cancelled "stop")).2 _ hreach hholds
    refine ⟨hstopped.silent _ hend, ?_⟩
    obtain ⟨os, hos, subscribers, -, rfl⟩ := hstopped.writing m next rfl result w hend
    rw [hline] at hos
    obtain _ | @⟨-, o, -, os, hdone, hos⟩ := hos
    obtain _ | @⟨-, o', -, os, ⟨hwaits, e, he, herror⟩, hos⟩ := hos
    obtain _ | @⟨-, o'', -, os, ⟨hfresh, e', he', herror'⟩, hos⟩ := hos
    cases hos
    obtain rfl : o = (a, .ok ()) := hdone
    obtain rfl : e = .cancelled "stop" := he
    obtain rfl : e' = .cancelled "stop" := he'
    obtain rfl : o' = (b, .error (.cancelled "stop")) := Prod.ext hwaits herror
    obtain rfl : o'' = (c, .error (.cancelled "stop")) := Prod.ext hfresh herror'
    rw [← ha, ← hb, ← hc]
    exact ⟨rfl, rfl⟩

end Delivery
