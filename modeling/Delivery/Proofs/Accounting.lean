import Delivery.Proofs.Operations

/-!
# The account of a cascade

A cascade that has resolved its subscribers gives account of every one of them: one promotion is
built, one outcome recorded, one line of the result written, whatever the creator does and whenever
the request is cancelled or its deadline comes (`Service.Accounted`).
-/

namespace Delivery

variable {σ : Type}

/-! ## What is made of the outcomes -/

/-- The failure that is listed for an outcome, if it is one. -/
def WriteFailure.of? : Promotion × WriteOutcome → Option WriteFailure
  | (_, .ok ()) => none
  | (p, .error e) => some ⟨p.stage, e⟩

theorem Collector.foldl_record (c : Collector) (outcomes : List (Promotion × WriteOutcome)) :
    outcomes.foldl (fun c o => c.record o.1 o.2) c =
      ⟨c.created ++ (outcomes.filter fun o => o.2.isOk).map Prod.fst,
        c.failures ++ outcomes.filterMap WriteFailure.of?⟩ := by
  induction outcomes generalizing c with
  | nil => simp
  | cons o rest ih =>
      obtain ⟨p, outcome⟩ := o
      rw [List.foldl_cons, ih]
      rcases outcome with e | ⟨⟩
      · simp [Collector.record, WriteFailure.of?, Except.isOk, Except.toBool]
      · rw [List.filterMap_cons_none (f := WriteFailure.of?) rfl]
        simp [Collector.record, Except.isOk, Except.toBool]

/-- What was created and what failed, each in the order of the outcomes. -/
theorem Collector.ofOutcomes_eq (outcomes : List (Promotion × WriteOutcome)) :
    Collector.ofOutcomes outcomes =
      ⟨(outcomes.filter fun o => o.2.isOk).map Prod.fst,
        outcomes.filterMap WriteFailure.of?⟩ := by
  rw [Collector.ofOutcomes, Collector.foldl_record, List.nil_append, List.nil_append]

/-- The status of a finished cascade tells whether anything failed and whether anything was
created. -/
theorem Collector.status_finish (c : Collector) :
    c.finish.status =
      if c.failures = [] then .succeeded else if c.created = [] then .failed
      else .partiallyFailed := by
  obtain ⟨created, failures⟩ := c
  cases failures with
  | nil => rfl
  | cons f rest => cases created <;> rfl

/-! ## The account -/

/-- The moment at which the promotions of a cascade are built and none is written yet. -/
def Service.cascadeStart (s : Service σ) (subscribers : List Stage) (freight : String)
    (w : World σ) : Moment σ Promotion Unit :=
  ⟨[], ⟨s.config.maxConcurrentWrites, s.promotionsOf subscribers freight w.built, []⟩,
    { w with built := w.built + subscribers.length }⟩

/-- The account of a cascade over some subscribers, which begins in a world `w` and ends with a
result in a world `w'`. -/
structure Service.Accounted (s : Service σ) (context : Context) (subscribers : List Stage)
    (freight : String) (w : World σ) (outcomes : List (Promotion × WriteOutcome))
    (result : CascadeResult) (w' : World σ) : Prop where
  /-- No more promotions are built than there are subscribers. -/
  built : w'.built = w.built + subscribers.length
  /-- For every subscriber one promotion is built, with a stamp of its own, and one outcome is
  recorded. -/
  promotion_each : outcomes.map Prod.fst = s.promotionsOf subscribers freight w.built
  /-- The result has the promotions whose writes succeeded, in order. -/
  created : result.promotions = (outcomes.filter fun o => o.2.isOk).map Prod.fst
  /-- The error lists every write that failed, in order; there is none when there is no such. -/
  failed : result.error = if outcomes.filterMap WriteFailure.of? = [] then none
    else some (.partialFailure (outcomes.filterMap WriteFailure.of?))
  status : result.status = if result.error = none then .succeeded
    else if result.promotions = [] then .failed else .partiallyFailed
  /-- The creator was called once at most for each promotion, in order, and never for anything else;
  and for every single one if in the end the request is neither cancelled nor expired, and calls
  are given any time at all. -/
  calls : ∃ records : List CallRecord, w'.calls = w.calls ++ records ∧
    (records.map CallRecord.request).Sublist
      ((s.promotionsOf subscribers freight w.built).map Request.create) ∧
    (∀ r ∈ records, r.running ≤ w.running + max 1 s.config.maxConcurrentWrites) ∧
    (context.check w'.tokens w'.now = .ok () → s.config.callTimeout ≠ some 0 →
      records.map CallRecord.request =
        (s.promotionsOf subscribers freight w.built).map Request.create)
  /-- At no moment are more writes under way than are allowed, and no other calls are. -/
  flying : ∀ moment : Moment σ Promotion Unit,
    Moment.Reaches (s.startWrite context) (s.cascadeStart subscribers freight w) moment →
    moment.line.countP Slot.isFlying ≤ max 1 s.config.maxConcurrentWrites ∧
      moment.world.running = w.running + moment.line.countP Slot.isFlying
  /-- The moments end with these outcomes, after which only notes are taken. -/
  ends : ∃ v, v.Noted w' ∧ Moment.Reaches (s.startWrite context)
    (s.cascadeStart subscribers freight w) ⟨outcomes, ⟨s.config.maxConcurrentWrites, [], []⟩, v⟩
  /-- Every outcome is what that very write came to when it was looked at: an answer to the call
  made for its promotion, or the failure of a context that had ended. -/
  comes : ∀ (i : Nat) (p : Promotion) (o : WriteOutcome), outcomes[i]? = some (p, o) →
    ∃ (moment : Moment σ Promotion Unit) (slot : Slot σ Promotion Unit) (v : World σ),
      Moment.Reaches (s.startWrite context) (s.cascadeStart subscribers freight w) moment ∧
      moment.line[i]? = some slot ∧ slot.job = p ∧
      slot.advance (s.startWrite context) moment.world = some (.landed p o, v) ∧
      s.Comes context p moment.world o

/-- The moments of a cascade's writes, from their start to their outcomes. -/
theorem Service.reaches_cascade (s : Service σ) (context : Context) (subscribers : List Stage)
    (freight : String) {w v : World σ} {outcomes : List (Promotion × WriteOutcome)}
    (hwrite : s.write context (s.promotionsOf subscribers freight w.built)
      { w with built := w.built + subscribers.length } = (outcomes, v)) :
    Moment.Reaches (s.startWrite context) (s.cascadeStart subscribers freight w)
      ⟨outcomes, ⟨s.config.maxConcurrentWrites, [], []⟩, v⟩ := by
  have h := Moment.reaches_run (s.startWrite context)
    ⟨s.config.maxConcurrentWrites, s.promotionsOf subscribers freight w.built, []⟩
    { w with built := w.built + subscribers.length } []
  have hrun : Window.run (s.startWrite context)
      ⟨s.config.maxConcurrentWrites, s.promotionsOf subscribers freight w.built, []⟩
      { w with built := w.built + subscribers.length } = (outcomes, v) := hwrite
  rw [hrun] at h
  exact h

/-- Every promotion to be written has its outcome, in order. -/
theorem Service.map_fst_of_write {s : Service σ} {context : Context} {promotions : List Promotion}
    {w v : World σ} {outcomes : List (Promotion × WriteOutcome)}
    (hwrite : s.write context promotions w = (outcomes, v)) :
    outcomes.map Prod.fst = promotions := by
  have h := Window.map_run (s.startWrite context) ⟨s.config.maxConcurrentWrites, promotions, []⟩ w
  have hout : (Window.run (s.startWrite context)
      ⟨s.config.maxConcurrentWrites, promotions, []⟩ w).1 = outcomes := congrArg Prod.fst hwrite
  rw [hout] at h
  exact h

/-- An outcome is that of a subscriber's promotion. -/
theorem Service.exists_subscriber {s : Service σ} {context : Context} {subscribers : List Stage}
    {freight : String} {n : Nat} {w v : World σ} {outcomes : List (Promotion × WriteOutcome)}
    (hwrite : s.write context (s.promotionsOf subscribers freight n) w = (outcomes, v))
    {p : Promotion} {o : WriteOutcome} (h : (p, o) ∈ outcomes) :
    ∃ b ∈ subscribers, ∃ stamp, p = .build b freight stamp := by
  have hmem : p ∈ outcomes.map Prod.fst := List.mem_map.2 ⟨_, h, rfl⟩
  rw [Service.map_fst_of_write hwrite] at hmem
  obtain ⟨i, b, hi, rfl⟩ := Service.mem_promotionsOf.1 hmem
  exact ⟨b, List.mem_of_getElem? hi, _, rfl⟩

theorem Service.accounted_of_write {s : Service σ} {context : Context} {subscribers : List Stage}
    {freight : String} {w v w' : World σ} {outcomes : List (Promotion × WriteOutcome)}
    (hwrite : s.write context (s.promotionsOf subscribers freight w.built)
      { w with built := w.built + subscribers.length } = (outcomes, v)) (hnoted : v.Noted w') :
    s.Accounted context subscribers freight w outcomes (Collector.ofOutcomes outcomes).finish
      w' := by
  have hreach := s.reaches_cascade context subscribers freight hwrite
  have hledger := Service.ledger_of_reaches hreach
  have heach := Service.map_fst_of_write hwrite
  -- In the end every write was looked at.
  have hbegun : (⟨outcomes, ⟨s.config.maxConcurrentWrites, [], []⟩, v⟩ :
      Moment σ Promotion Unit).begun = s.promotionsOf subscribers freight w.built := by
    rw [← heach, Moment.begun, Moment.line_done, List.filter_eq_self.2, List.map_map]
    · rfl
    · intro a ha
      obtain ⟨o, -, rfl⟩ := List.mem_map.1 ha
      rfl
  obtain ⟨logs, sink, rfl⟩ := id hnoted
  refine ⟨hledger.built, heach, ?_, ?_, ?_, ?_, ?_, ⟨v, hnoted, hreach⟩, ?_⟩
  · rw [Collector.ofOutcomes_eq]
    rfl
  · rw [Collector.ofOutcomes_eq]
    simp only [Collector.finish, List.isEmpty_iff]
  · rw [Collector.status_finish]
    simp only [Collector.finish, List.isEmpty_iff]
    split <;> simp_all
  · obtain ⟨records, hcalls, hsub, hbound, hall⟩ := hledger.calls
    rw [hbegun] at hsub hall
    exact ⟨records, hcalls, hsub, hbound, hall⟩
  · intro moment hmoment
    have hm := Service.ledger_of_reaches hmoment
    have hlimit : moment.window.limit = s.config.maxConcurrentWrites :=
      hmoment.invariant (I := fun m => m.window.limit = s.config.maxConcurrentWrites)
        (fun _ _ hnext h => hnext.limit.trans h) rfl
    have hroom := hm.room
    rw [hlimit] at hroom
    refine ⟨?_, hm.running⟩
    rw [moment.countP_isFlying_line]
    exact Nat.le_trans List.countP_le_length hroom
  · intro i p o hi
    have hfresh : ∀ a ∈ (s.cascadeStart subscribers freight w).line, a.isFresh = true := by
      intro a ha
      rw [Service.cascadeStart, Moment.line_mk] at ha
      obtain ⟨p, -, rfl⟩ := List.mem_map.1 ha
      rfl
    have hlanded : (⟨outcomes, ⟨s.config.maxConcurrentWrites, [], []⟩, v⟩ :
        Moment σ Promotion Unit).line[i]? = some (.landed p o) := by
      rw [Moment.line_done, List.getElem?_map, hi]
      rfl
    obtain ⟨moment, slot, u, hmoment, hslot, hjob, hadv, hcomes⟩ :=
      Service.comes_of_reaches hreach hfresh hlanded
    exact ⟨moment, slot, u, hmoment, hslot, hjob, hadv, hcomes⟩

/-- **Every subscriber is accounted for.** A cascade either is rejected before it writes anything,
or it has subscribers and gives account of each. -/
theorem Service.promoteSubscribers_accounted (s : Service σ) (context : Context) (m : Move)
    (w : World σ) :
    match (resolution s.resolver m).run.run s context w with
    | (.error e, w₀) => (promoteSubscribers s.resolver m).run s context w = (.rejected e, w₀)
    | (.ok subscribers, w₀) => subscribers ≠ [] ∧ ∃ outcomes result w',
        (promoteSubscribers s.resolver m).run s context w = (result, w') ∧
        s.Accounted context subscribers m.freight w₀ outcomes result w' := by
  rw [run_promoteSubscribers]
  obtain ⟨a, w₀, hrun, hresolves⟩ := s.resolution_cases context s.resolver m w
  rw [hrun]
  cases a with
  | error e => rfl
  | ok subscribers =>
      refine ⟨?_, ?_⟩
      · cases hresolves with
        | resolved _ _ hne => exact hne
      · rcases hwrite : s.write context (s.promotionsOf subscribers m.freight w₀.built)
          { w₀ with built := w₀.built + subscribers.length } with ⟨outcomes, v⟩
        obtain ⟨w', hnoted, hcascade⟩ := run_cascadeTo s context m subscribers hwrite
        exact ⟨outcomes, _, w', hcascade, Service.accounted_of_write hwrite hnoted⟩

end Delivery
