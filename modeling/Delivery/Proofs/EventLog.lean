import Mathlib.Data.List.Forall2
import Delivery.Proofs.Deeds
import Delivery.Proofs.Listeners

/-!
# The log of events

What a sink collects in a session of a service is an account of it. Promoting a stage adds one event
if it gets as far as its write, and promoting subscribers one event for each of them and then one
for the whole; a request that is rejected adds nothing (`Service.Exact`). So the promotions that are
told of as created are those that the store has more in the end, each once; and who listens, if
anybody does, makes no difference to the session (`Shared.event_log_exact`).
-/

namespace Delivery

variable {σ τ : Type}

/-! ## Payloads -/

theorem Json.lookup_cons (name k : String) (v : Json) (rest : List (String × Json)) :
    ((k, v) :: rest).lookup name = if name = k then some v else rest.lookup name := by
  by_cases h : name = k
  · subst h
    simp
  · have hne : (name == k) = false := beq_eq_false_iff_ne.2 h
    simp only [List.lookup_cons, hne, h, if_false]

/-- What is placed among the members of an object is found under its name. -/
theorem Json.lookup_place (name k : String) (v : Json) (members : List (String × Json)) :
    (Table.place k v members).lookup name = if name = k then some v else members.lookup name := by
  induction members with
  | nil => exact lookup_cons name k v []
  | cons m rest ih =>
      obtain ⟨k', v'⟩ := m
      rw [Table.place]
      split
      · rw [lookup_cons]
      · rename_i heq
        obtain rfl := Std.LawfulEqCmp.eq_of_compare heq
        by_cases h : name = k <;> simp [lookup_cons, h]
      · rename_i hgt
        rw [lookup_cons, lookup_cons, ih]
        -- The entry that comes first has another name.
        have hne : k ≠ k' := by
          intro h
          have hself : compare k k = .eq := Std.ReflCmp.compare_self
          rw [← h, hself] at hgt
          cases hgt
        by_cases h : name = k
        · simp [h, hne]
        · rw [if_neg h, if_neg h]

namespace CascadeResult

/-- The writes that failed. -/
def failures (r : CascadeResult) : List WriteFailure :=
  match r.error with
  | some (.partialFailure failures) => failures
  | _ => []

end CascadeResult

theorem Collector.failures_finish (c : Collector) : c.finish.failures = c.failures := by
  obtain ⟨created, failures⟩ := c
  cases failures <;> rfl

namespace Event

/-- The event that a promotion was created. -/
def created (p : Promotion) : Event where
  type := promotionCreated
  data := some (.record [("project", .text p.project), ("stage", .text p.stage),
    ("freight", .text p.freight), ("promotion", .text p.name)])

/-- The event that a promotion was not created. -/
def failed (p : Promotion) (e : StoreError) : Event where
  type := promotionFailed
  data := some (.record [("project", .text p.project), ("stage", .text p.stage),
    ("freight", .text p.freight), ("error", .text e.message), ("error_type", .text e.typeName)])

/-- The event that tells of the outcome of a write. -/
def ofOutcome : Promotion × WriteOutcome → Event
  | (p, .ok ()) => created p
  | (p, .error e) => failed p e

/-- The event that a cascade is over. -/
def completed (m : Move) (r : CascadeResult) : Event where
  type := cascadeCompleted
  data := some (.record [("project", .text m.project), ("stage", .text m.stage),
    ("freight", .text m.freight), ("status", .text r.status.text),
    ("created", .int r.promotions.length), ("failed", .int r.failures.length)])

/-- True for the events that a promotion was created. -/
def isCreated (e : Event) : Bool := e.type == promotionCreated

/-- The identity of the promotion that an event tells of. -/
def subject (e : Event) : Identity := ⟨⟨e.field "project", e.field "promotion"⟩, .promotion⟩

theorem subject_created (p : Promotion) : (created p).subject = p.identity := by
  simp [subject, created, field, Json.record, Json.member?, Json.lookup_place, Json.text?]
  rfl

/-- Of the events of some writes, those that a promotion was created are of the successful ones. -/
theorem filter_ofOutcome (outcomes : List (Promotion × WriteOutcome)) :
    (outcomes.map ofOutcome).filter isCreated = (Shared.successes outcomes).map created := by
  have hcreated (p : Promotion) : (created p).isCreated = true :=
    (by decide : (promotionCreated == promotionCreated) = true)
  have hfailed (p : Promotion) (e : StoreError) : (failed p e).isCreated ≠ true :=
    (by decide : (promotionFailed == promotionCreated) ≠ true)
  induction outcomes with
  | nil => rfl
  | cons o rest ih =>
      obtain ⟨p, e | ⟨⟩⟩ := o
      · exact (List.filter_cons_of_neg (hfailed p e)).trans ih
      · exact (List.filter_cons_of_pos (hcreated p)).trans (congrArg (created p :: ·) ih)

end Event

/-! ## What operations tell of -/

/-- The write that promoting a stage makes, and what it comes to; none when the request is rejected
before. -/
def Service.promotionWrite (s : Service σ) (context : Context) (m : Move) (w : World σ) :
    Option (Promotion × WriteOutcome) :=
  let begun := s.take (.line ⟨.debug, "Promoting stage", m.fields⟩) w
  match (eligibleStage m promotionCandidates).run.run s context begun with
  | (.error _, _) => none
  | (.ok stage, v) =>
    let p := Promotion.build stage m.freight (s.stamps v.built)
    some (p, (s.call context (.create p) { v with built := v.built + 1 }).1)

/-- The subscribers that a cascade finds, and the writes that it makes with what they come to; none
when the request is rejected before. -/
def Service.cascadeWrites (s : Service σ) (context : Context) (m : Move) (w : World σ) :
    Option (List Stage × List (Promotion × WriteOutcome)) :=
  match (resolution s.resolver m).run.run s context w with
  | (.error _, _) => none
  | (.ok subscribers, v) =>
    some (subscribers, (s.write context (s.promotionsOf subscribers m.freight v.built)
      { v with built := v.built + subscribers.length }).1)

/-- What an operation reports to its caller, and the events that it tells of, fit what became of its
writes. -/
inductive Service.Exact (s : Service σ) (context : Context) (w : World σ) :
    Deed → Report → List Event → Prop
  /-- A stage that is not admitted makes no event. -/
  | rejected {m e} : s.promotionWrite context m w = none →
      Exact s context w (.stage m) (.promoted (.error e)) []
  | created {m p} : s.promotionWrite context m w = some (p, .ok ()) →
      Exact s context w (.stage m) (.promoted (.ok p)) [.created p]
  | failed {m p e} : s.promotionWrite context m w = some (p, .error e) →
      Exact s context w (.stage m) (.promoted (.error (.internal e))) [.failed p e]
  /-- Nor does a cascade that has nothing to write. -/
  | declined {m e} : s.cascadeWrites context m w = none →
      Exact s context w (.subscribers m) (.cascaded (.rejected e)) []
  /-- There is one event for each subscriber, in their order, and then one for the whole. -/
  | cascaded {m subscribers outcomes result} :
      s.cascadeWrites context m w = some (subscribers, outcomes) →
      outcomes.map (fun o => o.1.stage) = subscribers.map Stage.name →
      result.promotions = Shared.successes outcomes →
      result.failures = outcomes.filterMap WriteFailure.of? →
      result.promotions.length + result.failures.length = subscribers.length →
      Exact s context w (.subscribers m) (.cascaded result)
        (outcomes.map Event.ofOutcome ++ [.completed m result])

section Told

variable (s : Service σ) (context : Context) (m : Move)

open Operation in
theorem Service.exact_promoteStage (w : World σ) :
    s.Exact context w (.stage m) (.promoted ((promoteStage m).run.run s context w).1)
      ((promoteStage m).run.told s context w) := by
  let begun := s.take (.line ⟨.debug, "Promoting stage", m.fields⟩) w
  unfold promoteStage
  rw [run_bind, told_bind, run_step, told_step, Plan.run_log,
    (Plan.inquires_log _ _ _).told]
  dsimp only
  rw [run_bind, told_bind, (inquires_eligibleStage m promotionCandidates).told]
  rcases hrun : (eligibleStage m promotionCandidates).run.run s context begun with ⟨e | stage, v⟩
  · apply Exact.rejected
    simp only [promotionWrite, begun, hrun]
  · dsimp only
    rw [run_bind, told_bind, run_step, told_step, Plan.run_promotion]
    dsimp only
    rw [run_bind, told_bind, run_step, told_step, Plan.run_ask]
    dsimp only
    rcases hcall : s.call context (.create (.build stage m.freight (s.stamps v.built)))
      { v with built := v.built + 1 } with ⟨e | ⟨⟩, v'⟩
    · apply Exact.failed
      simp only [promotionWrite, begun, hrun, hcall]
    · apply Exact.created
      simp only [promotionWrite, begun, hrun, hcall]

theorem told_reportOutcomes (outcomes : List (Promotion × WriteOutcome)) (w : World σ) :
    (reportOutcomes m outcomes).told s context w = outcomes.map Event.ofOutcome := by
  induction outcomes generalizing w with
  | nil => rfl
  | cons o rest ih =>
      obtain ⟨p, e | ⟨⟩⟩ := o
      · rw [reportOutcomes, Plan.bind_def, Plan.told_bind, ih]
        rfl
      · rw [reportOutcomes, Plan.bind_def, Plan.told_bind, ih]
        rfl

theorem told_reportCascade (total : Nat) (r : CascadeResult) (w : World σ) :
    (reportCascade m total r.failures.length r).told s context w = [.completed m r] := rfl

theorem told_promotions (stages : List Stage) (freight : String) (w : World σ) :
    (Plan.promotions stages freight).told s context w = [] := by
  induction stages generalizing w with
  | nil => rfl
  | cons stage rest ih =>
      rw [Plan.promotions, Plan.told, Plan.told_bind, ih]
      rfl

theorem told_cascadeTo (subscribers : List Stage) {w v : World σ}
    {outcomes : List (Promotion × WriteOutcome)}
    (hwrite : s.write context (s.promotionsOf subscribers m.freight w.built)
      { w with built := w.built + subscribers.length } = (outcomes, v)) :
    (cascadeTo m subscribers).told s context w =
      outcomes.map Event.ofOutcome ++ [.completed m (Collector.ofOutcomes outcomes).finish] := by
  have hfailed : (Collector.ofOutcomes outcomes).failed =
      (Collector.ofOutcomes outcomes).finish.failures.length := by
    rw [Collector.failures_finish]
    rfl
  simp only [cascadeTo, Plan.bind_def, Plan.told_bind, told_promotions, Plan.run_promotions,
    Plan.run, Plan.told, hwrite, told_reportOutcomes, hfailed, told_reportCascade]
  rfl

/-- A write succeeds or fails. -/
theorem length_successes_add (outcomes : List (Promotion × WriteOutcome)) :
    (Shared.successes outcomes).length + (outcomes.filterMap WriteFailure.of?).length =
      outcomes.length := by
  induction outcomes with
  | nil => rfl
  | cons o rest ih =>
      obtain ⟨p, e | ⟨⟩⟩ := o
      · show (Shared.successes rest).length + (rest.filterMap WriteFailure.of?).length.succ = _
        rw [List.length_cons]
        omega
      · show (Shared.successes rest).length.succ + (rest.filterMap WriteFailure.of?).length = _
        rw [List.length_cons]
        omega

theorem Service.exact_promoteSubscribers (w : World σ) :
    s.Exact context w (.subscribers m)
      (.cascaded ((promoteSubscribers s.resolver m).run s context w).1)
      ((promoteSubscribers s.resolver m).told s context w) := by
  rw [run_promoteSubscribers, promoteSubscribers, Plan.bind_def, Plan.told_bind, cascade_eq,
    Operation.told_bind, Operation.run_bind, (inquires_resolution s.resolver m).told]
  rcases hrun : (resolution s.resolver m).run.run s context w with ⟨e | subscribers, v⟩
  · apply Exact.declined
    simp only [cascadeWrites, hrun]
  · dsimp only
    rcases hwrite : s.write context (s.promotionsOf subscribers m.freight v.built)
      { v with built := v.built + subscribers.length } with ⟨outcomes, v'⟩
    obtain ⟨w', -, hcascade⟩ := run_cascadeTo s context m subscribers hwrite
    rw [hcascade, Operation.told_step, told_cascadeTo s context m subscribers hwrite,
      Operation.run_step]
    have hwrites : s.cascadeWrites context m w = some (subscribers, outcomes) := by
      simp only [cascadeWrites, hrun, hwrite]
    have heach := Service.map_fst_of_write hwrite
    show s.Exact context w _ _ (outcomes.map _ ++ [_] ++ [])
    rw [List.append_nil]
    apply Exact.cascaded hwrites
    · have hstages := congrArg (List.map Promotion.stage) heach
      rw [List.map_map, Service.map_stage_promotionsOf] at hstages
      exact hstages
    · rw [Collector.ofOutcomes_eq]
      rfl
    · rw [Collector.failures_finish, Collector.ofOutcomes_eq]
    · have hlength := congrArg List.length heach
      rw [List.length_map, Service.length_promotionsOf] at hlength
      rw [Collector.failures_finish, Collector.ofOutcomes_eq, ← hlength]
      exact length_successes_add outcomes

/-- What was asked for is reported, and told of, as it went. -/
theorem Service.exact_deed (d : Deed) (w : World σ) :
    s.Exact context w d ((d.plan s.resolver).run s context w).1
      ((d.plan s.resolver).told s context w) := by
  cases d with
  | stage m =>
      rw [Deed.run_stage, Deed.plan, Plan.told_bind]
      show s.Exact context w _ _ (_ ++ [])
      rw [List.append_nil]
      exact s.exact_promoteStage context m w
  | subscribers m =>
      rw [Deed.run_subscribers, Deed.plan, Plan.told_bind]
      show s.Exact context w _ _ (_ ++ [])
      rw [List.append_nil]
      exact s.exact_promoteSubscribers context m w

end Told

/-- The promotions that are told of as created are those that are reported. -/
theorem Service.Exact.filter_isCreated {s : Service σ} {context : Context} {w : World σ} {d : Deed}
    {report : Report} {events : List Event} (h : s.Exact context w d report events) :
    events.filter Event.isCreated = report.created.map Event.created := by
  cases h with
  | rejected _ => rfl
  | @created m p _ => exact Event.filter_ofOutcome [(p, .ok ())]
  | @failed m p e _ => exact Event.filter_ofOutcome [(p, .error e)]
  | declined _ => rfl
  | @cascaded m subscribers outcomes result _ _ hpromotions _ _ =>
      have hcompleted : (Event.completed m result).isCreated ≠ true :=
        (by decide : (Event.cascadeCompleted == Event.promotionCreated) ≠ true)
      rw [List.filter_append, Event.filter_ofOutcome, List.filter_cons_of_neg hcompleted,
        List.filter_nil, List.append_nil, ← hpromotions]
      rfl

/-- How many events an operation tells of. -/
def Service.eventCount (s : Service σ) (context : Context) (w : World σ) : Deed → Nat
  | .stage m => if (s.promotionWrite context m w).isSome then 1 else 0
  | .subscribers m => ((s.cascadeWrites context m w).map fun found => found.1.length + 1).getD 0

theorem Service.Exact.length {s : Service σ} {context : Context} {w : World σ} {d : Deed}
    {report : Report} {events : List Event} (h : s.Exact context w d report events) :
    events.length = s.eventCount context w d := by
  cases h with
  | rejected hwrite => simp [eventCount, hwrite]
  | created hwrite => simp [eventCount, hwrite]
  | failed hwrite => simp [eventCount, hwrite]
  | declined hwrites => simp [eventCount, hwrites]
  | cascaded hwrites hstages =>
      have hlength := congrArg List.length hstages
      rw [List.length_map, List.length_map] at hlength
      simp [eventCount, hwrites, hlength]

/-! ## Sessions -/

namespace Shared

variable {validates : Bool} {index : Option (Shared → Stage → List Stage)}
  {stamps : Nat → Promotion.Stamp} {sink : Sink} {config : Config}


/-- What comes between two operations: time passes, requests are begun and cancelled, and others
change the store and will do so during the next calls. -/
structure Interlude where
  now : Instant
  tokens : Tokens
  agenda : Agenda Cancellation
  changes : List Store.Change
  turns : List Turn

/-- The world after an interlude. -/
def Interlude.after (i : Interlude) (w : World Shared) : World Shared :=
  { w with
    now := i.now
    tokens := i.tokens
    agenda := i.agenda
    state := { w.state with store := w.state.store.changed i.changes, turns := i.turns } }

/-- What happens in a session. -/
inductive Act where
  | deed (d : Deed) (context : Context)
  | interlude (i : Interlude)

/-- An operation of a session: what was asked for, the world in which it began, and what it
reported. -/
structure Episode where
  deed : Deed
  context : Context
  world : World Shared
  report : Report

/-- A session of a service: its operations, and the world after it. -/
def session (s : Service Shared) : List Act → World Shared → List Episode × World Shared
  | [], w => ([], w)
  | .interlude i :: rest, w => session s rest (i.after w)
  | .deed d context :: rest, w =>
    let done := (d.plan s.resolver).run s context w
    let later := session s rest done.2
    (⟨d, context, w, done.1⟩ :: later.1, later.2)

/-- A session of a service with a listener for its events: the reports, the world after it, and what
has become of the listener. -/
def sessionWith (s : Service Shared) (l : Listener τ) :
    List Act → World Shared → τ → List Report × World Shared × τ
  | [], w, t => ([], w, t)
  | .interlude i :: rest, w, t => sessionWith s l rest (i.after w) t
  | .deed d context :: rest, w, t =>
    let done := (d.plan s.resolver).runWith s context l w t
    let later := sessionWith s l rest done.2.1 done.2.2
    (done.1 :: later.1, later.2)

/-- The promotions that a session reports as created. -/
def createdIn (episodes : List Episode) : List Promotion :=
  episodes.flatMap fun e => e.report.created

/-- The events that an operation of a session tells of. -/
def Episode.told (s : Service Shared) (e : Episode) : List Event :=
  (e.deed.plan s.resolver).told s e.context e.world

/-- An operation reports, and tells of, what it did. -/
theorem exact_of_mem_session (s : Service Shared) (acts : List Act) (u : World Shared) :
    ∀ e ∈ (session s acts u).1, s.Exact e.context e.world e.deed e.report (e.told s) := by
  induction acts generalizing u with
  | nil => exact fun e he => absurd he List.not_mem_nil
  | cons act rest ih =>
      cases act with
      | interlude i => exact ih _
      | deed d context =>
          intro e he
          rcases List.mem_cons.1 he with rfl | he
          · exact s.exact_deed context d u
          · exact ih _ e he

/-- The sink has collected what was told, in order. -/
theorem sink_session {s : Service Shared} (hwanted : s.config.emitEvents = true) (acts : List Act)
    {u : World Shared} {kept : List Event} (hsink : u.sink = .collecting kept) :
    (session s acts u).2.sink =
      .collecting (kept ++ (session s acts u).1.flatMap (Episode.told s)) := by
  induction acts generalizing u kept with
  | nil =>
      rw [show (session s [] u).1.flatMap (Episode.told s) = [] from rfl, List.append_nil]
      exact hsink
  | cons act rest ih =>
      cases act with
      | interlude i => exact ih (u := i.after u) hsink
      | deed d context =>
          have hdeed := (d.plan s.resolver).sink_run hwanted context hsink
          have hrest := ih hdeed
          rw [List.append_assoc] at hrest
          exact hrest

/-- The store gains what the operations report as created. -/
theorem gains_session (acts : List Act) (u : World Shared) :
    let done := session (service validates index stamps sink config) acts u
    u.state.store.Gains (createdIn done.1) done.2.state.store := by
  induction acts generalizing u with
  | nil => exact .refl _
  | cons act rest ih =>
      cases act with
      | interlude i => exact (Store.Gains.changed _ i.changes).trans (ih (i.after u))
      | deed d context => exact (gains_deed d context u).trans (ih _)

/-- Nobody who listens makes a difference to a session. -/
theorem sessionWith_eq (s : Service Shared) (wanted : Bool) (l : Listener τ) (acts : List Act)
    (u : World Shared) (logs : List LogLine) (sink : Sink) (t : τ) :
    ∃ logs', sessionWith (s.withEvents wanted) l acts { u with logs, sink } t =
      ((session s acts u).1.map Episode.report,
        { (session s acts u).2 with logs := logs', sink },
        if wanted then l.heard t ((session s acts u).1.flatMap (Episode.told s)) else t) := by
  induction acts generalizing u logs t with
  | nil =>
      refine ⟨logs, ?_⟩
      cases wanted <;> rfl
  | cons act rest ih =>
      cases act with
      | interlude i => exact ih (i.after u) logs t
      | deed d context =>
          obtain ⟨logs₁, hdeed⟩ :=
            (d.plan s.resolver).runWith_eq s context wanted l u logs sink t
          obtain ⟨logs₂, hrest⟩ := ih ((d.plan s.resolver).run s context u).2 logs₁
            (if wanted then l.heard t ((d.plan s.resolver).told s context u) else t)
          refine ⟨logs₂, ?_⟩
          have hresolver : (s.withEvents wanted).resolver = s.resolver := rfl
          simp only [sessionWith, hresolver, hdeed, hrest, session, List.map_cons,
            List.flatMap_cons]
          cases wanted with
          | true => simp [Listener.heard, List.foldl_append, Episode.told]
          | false => rfl

/-- A session is one with the sink of the world as its listener. -/
theorem session_eq_sessionWith (s : Service Shared) (acts : List Act) (u : World Shared)
    (sink : Sink) :
    (session s acts { u with sink }).1.map Episode.report =
        (sessionWith s Sink.emit acts u sink).1 ∧
      (session s acts { u with sink }).2 =
        { (sessionWith s Sink.emit acts u sink).2.1 with
          sink := (sessionWith s Sink.emit acts u sink).2.2 } := by
  induction acts generalizing u sink with
  | nil => exact ⟨rfl, rfl⟩
  | cons act rest ih =>
      cases act with
      | interlude i => exact ih (i.after u) sink
      | deed d context =>
          have hdeed : (d.plan s.resolver).run s context { u with sink } = _ :=
            (d.plan s.resolver).run_eq_runWith u sink
          obtain ⟨hreports, hworld⟩ :=
            ih ((d.plan s.resolver).runWith s context Sink.emit u sink).2.1
              ((d.plan s.resolver).runWith s context Sink.emit u sink).2.2
          simp only [session, sessionWith, hdeed, List.map_cons]
          exact ⟨congrArg _ hreports, hworld⟩

/-- The promotions that were told of as created are those that were reported. -/
theorem filter_told (s : Service Shared) (acts : List Act) (u : World Shared) :
    ((session s acts u).1.flatMap (Episode.told s)).filter Event.isCreated =
      (createdIn (session s acts u).1).map Event.created := by
  rw [createdIn, List.filter_flatMap, List.map_flatMap]
  apply List.flatMap_congr
  intro e he
  exact (exact_of_mem_session s acts u e he).filter_isCreated

/-- With another sink, or with no events wanted, a session is the same. -/
theorem session_unread (s : Service Shared) (acts : List Act) (u : World Shared) (wanted : Bool)
    (other : Sink) : ∃ logs sink,
      (session (s.withEvents wanted) acts { u with sink := other }).1.map Episode.report =
        (session s acts u).1.map Episode.report ∧
      (session (s.withEvents wanted) acts { u with sink := other }).2 =
        { (session s acts u).2 with logs, sink } := by
  obtain ⟨logs, hwith⟩ := sessionWith_eq s wanted Sink.emit acts u u.logs u.sink other
  obtain ⟨hreports, hworld⟩ := session_eq_sessionWith (s.withEvents wanted) acts u other
  have hwith : sessionWith (s.withEvents wanted) Sink.emit acts u other = _ := hwith
  rw [hwith] at hreports hworld
  exact ⟨logs, _, hreports, hworld⟩

/-- The account that a sink gives of a session which it began with `kept`: what it was told in each
operation, in order. -/
structure EventLog (s : Service Shared) (acts : List Act) (u : World Shared) (kept : List Event)
    (told : List (List Event)) : Prop where
  /-- It has everything that it was told, besides what it had, and nothing else. -/
  collected : (session s acts u).2.sink = .collecting (kept ++ told.flatten)
  /-- What it was told in an operation is what the operation did. -/
  each : List.Forall₂ (fun (e : Episode) events =>
    s.Exact e.context e.world e.deed e.report events) (session s acts u).1 told
  /-- The promotions of which it was told that they were created are those that were reported, -/
  created : told.flatten.filter Event.isCreated =
    (createdIn (session s acts u).1).map Event.created
  /-- and the store has stored these and nothing else besides what it had, -/
  stored : (session s acts u).2.state.store.created.toList.Perm (u.state.store.created.toList ++
    (createdIn (session s acts u).1).map fun p => (p.identity, p.toJson))
  /-- each of them under the identity that the event tells of, which no other event does. -/
  subjects : ((session s acts u).2.state.store.created.toList.map Prod.fst).Perm
    (u.state.store.created.toList.map Prod.fst ++
      (told.flatten.filter Event.isCreated).map Event.subject)
  distinct : ((told.flatten.filter Event.isCreated).map Event.subject).Nodup
  /-- With another sink, or with no events wanted, the session is the same. -/
  unread : ∀ (wanted : Bool) (other : Sink), ∃ logs sink,
    (session (s.withEvents wanted) acts { u with sink := other }).1.map Episode.report =
      (session s acts u).1.map Episode.report ∧
    (session (s.withEvents wanted) acts { u with sink := other }).2 =
      { (session s acts u).2 with logs, sink }
  /-- It is the same with any listener, who has heard what the sink was told if that was wanted. -/
  unheard : ∀ (wanted : Bool) (τ : Type) (l : Listener τ) (t : τ), ∃ logs,
    sessionWith (s.withEvents wanted) l acts u t =
      ((session s acts u).1.map Episode.report,
        { (session s acts u).2 with logs, sink := u.sink },
        if wanted then l.heard t told.flatten else t)

/-- How long the account of each operation is. -/
theorem EventLog.lengths {s : Service Shared} {acts : List Act} {u : World Shared}
    {kept : List Event} {told : List (List Event)} (h : EventLog s acts u kept told) :
    told.map List.length =
      (session s acts u).1.map fun e => s.eventCount e.context e.world e.deed := by
  rw [← List.forall₂_eq_eq_eq, List.forall₂_map_left_iff, List.forall₂_map_right_iff]
  exact (h.each.imp fun _ _ hexact => hexact.length).flip

/-- **The log of events is exact, and keeping it does not interfere.** In a session of a service
whose events are wanted, over a store that others use too, the sink is told of every write, by the
operation that makes it and in the order of the subscribers, and of every cascade that comes to its
writes, and of nothing else. -/
theorem event_log_exact {validates : Bool} {index : Option (Shared → Stage → List Stage)}
    {stamps : Nat → Promotion.Stamp} {sink : Sink} {config : Config}
    (hwanted : config.emitEvents = true) (acts : List Act) {u : World Shared} {kept : List Event}
    (hsink : u.sink = .collecting kept) :
    ∃ told, EventLog (service validates index stamps sink config) acts u kept told := by
  let s := service validates index stamps sink config
  have hgains : u.state.store.Gains (createdIn (session s acts u).1)
      (session s acts u).2.state.store := gains_session acts u
  have hflatten : ((session s acts u).1.map (Episode.told s)).flatten =
      (session s acts u).1.flatMap (Episode.told s) := List.flatMap_def.symm
  have hcreated := filter_told s acts u
  rw [← hflatten] at hcreated
  have hsubjects : (((session s acts u).1.map (Episode.told s)).flatten.filter
      Event.isCreated).map Event.subject =
        (createdIn (session s acts u).1).map Promotion.identity := by
    rw [hcreated, List.map_map]
    exact List.map_congr_left fun p _ => Event.subject_created p
  refine ⟨(session s acts u).1.map (Episode.told s), ?_, ?_, hcreated, hgains.perm, ?_, ?_,
    session_unread s acts u, ?_⟩
  · rw [hflatten]
    exact sink_session hwanted acts hsink
  · rw [List.forall₂_map_right_iff, List.forall₂_same]
    exact exact_of_mem_session s acts u
  · have hkeys := hgains.perm.map Prod.fst
    rw [List.map_append, List.map_map] at hkeys
    rw [hsubjects]
    exact hkeys
  · rw [hsubjects]
    exact List.pairwise_map.2 hgains.distinct
  · intro wanted τ l t
    rw [hflatten]
    exact sessionWith_eq s wanted l acts u u.logs u.sink t

/-- A stage with two subscribers, and a freight that is qualified for it. -/
def branching : World Shared where
  sink := .collecting []
  state :=
    { store := Store.changed
        [.putStage (.named "proj" "dev"), .putStage ((Stage.named "proj" "qa").withSource "dev"),
         .putStage ((Stage.named "proj" "uat").withSource "dev"),
         .putFreight ((Freight.named "proj" "f1").qualifiedFor "dev" default)] .empty }

theorem event_log_exact_branching :
    let s := service true none (fun n => ⟨.ofNat n, default⟩) .discarding {}
    ∃ told, EventLog s
        [.deed (.stage ⟨"proj", "dev", "f1"⟩) ⟨0, none⟩,
          .deed (.stage ⟨"proj", "prod", "f1"⟩) ⟨0, none⟩,
          .deed (.subscribers ⟨"proj", "dev", "f1"⟩) ⟨0, none⟩] branching [] told ∧
      told.map List.length = [1, 0, 3] := by
  intro s
  obtain ⟨told, hlog⟩ : ∃ told, EventLog s
      [.deed (.stage ⟨"proj", "dev", "f1"⟩) ⟨0, none⟩,
        .deed (.stage ⟨"proj", "prod", "f1"⟩) ⟨0, none⟩,
        .deed (.subscribers ⟨"proj", "dev", "f1"⟩) ⟨0, none⟩] branching [] told :=
    event_log_exact rfl _ rfl
  refine ⟨told, hlog, ?_⟩
  rw [hlog.lengths]
  decide +kernel

end Shared

end Delivery
