import Delivery.Proofs.Restamping
import Delivery.Proofs.WindowLimits

/-!
# Versions of a freight

Of a freight only one bit matters to an operation: whether it is there and qualified for one of the
stages in question. Two stores that differ in one freight are put side by side
(`Store.Versions`). If neither version is qualified, both runs are turned away with the same error
after the same calls; if both are, both create the same promotions but for times
(`Store.versions_indistinct`).
-/

namespace Delivery

variable {validates : Bool} {find : Option (Stage → List Stage)}
  {stamps stamps' : Nat → Promotion.Stamp} {sink : Sink} {config : Config} {context : Context}

/-- The stages for one of which the freight has to be qualified, if the stage that the operation is
for is stored. -/
def Deed.storedCandidates (d : Deed) (s : Store) : List String :=
  ((s.stages.get? ⟨d.move.project, d.move.stage⟩).map d.candidates).getD []

/-- The report of an operation that was not carried out. -/
def Deed.rejected (e : PromotionError) : Deed → Report
  | stage _ => .promoted (.error e)
  | subscribers _ => .cascaded (.rejected e)

theorem Deed.rejected_inj (d : Deed) {e e' : PromotionError}
    (h : (d.rejected e).untimed = (d.rejected e').untimed) : e = e' := by
  cases d with
  | stage m => exact Except.error.inj (Report.promoted.inj h)
  | subscribers m =>
      exact Option.some.inj (congrArg CascadeResult.error (Report.cascaded.inj h))

namespace Store

/-- The store with another version of a freight, or without it. -/
def holding (s : Store) (key : Key) (version : Option Freight) : Store :=
  { s with
    freight := match version with
      | some freight => s.freight.insert key freight
      | none => s.freight.erase key }

theorem get?_holding (s : Store) (key : Key) (version : Option Freight) :
    (s.holding key version).freight.get? key = version := by
  cases version with
  | none => exact (Table.get?_erase ..).trans (if_pos rfl)
  | some freight => exact Table.get?_insert_self ..

/-- A version of a freight is there, and qualified for one of some stages. -/
def qualifies (version : Option Freight) (names : List String) : Bool :=
  version.any fun freight => freight.isQualifiedForAny names

theorem getQualifiedFreight_holding (s : Store) (key : Key) (version : Option Freight)
    (names : List String) (created : Table Identity Json) (attempts : Nat) :
    ((s.holding key version).creating created attempts).getQualifiedFreight key names =
      s.ensureAvailable.map fun _ =>
        version.filter fun freight => freight.isQualifiedForAny names := by
  have hstored : ((s.holding key version).creating created attempts).freight.get? key = version :=
    s.get?_holding key version
  unfold getQualifiedFreight
  rw [hstored]
  rfl

/-! ## Two stores -/

/-- Two stores came from one that was given two versions of a freight, when the same identities were
created in both. -/
def Versions (s : Store) (key : Key) (old new : Option Freight) (t t' : Store) : Prop :=
  ∃ created created' attempts, t = (s.holding key old).creating created attempts ∧
    t' = (s.holding key new).creating created' attempts ∧
    ∀ id, created'.contains id = created.contains id

variable {s t t' : Store} {key : Key} {old new : Option Freight}

/-- A promotion is created in both or in neither. -/
theorem Versions.create (h : Versions s key old new t t') {p p' : Promotion}
    (hp : p.Restamped p') :
    (t'.create (.promotion p')).1 = (t.create (.promotion p)).1 ∧
      Versions s key old new (t.create (.promotion p)).2 (t'.create (.promotion p')).2 := by
  obtain ⟨created, created', attempts, rfl, rfl, hsame⟩ := h
  have hrefusal : ((s.holding key new).creating created' attempts).refusal? (.promotion p') =
      ((s.holding key old).creating created attempts).refusal? (.promotion p) := by
    show ((s.holding key new).creating created' attempts).refusal? (.promotion p'.untimed) =
      ((s.holding key old).creating created attempts).refusal? (.promotion p.untimed)
    rw [hp.untimed_eq]
    have hcontains : ((s.holding key new).creating created' attempts).created.contains
        (Resource.promotion p.untimed).identity = ((s.holding key old).creating created
          attempts).created.contains (Resource.promotion p.untimed).identity := hsame _
    unfold refusal?
    rw [hcontains]
    rfl
  unfold Store.create
  rw [hrefusal]
  cases ((s.holding key old).creating created attempts).refusal? (.promotion p) with
  | some e => exact ⟨rfl, _, _, _, rfl, rfl, hsame⟩
  | none =>
      refine ⟨rfl, created.insert p.identity p.toJson, created'.insert p'.identity p'.toJson, _,
        rfl, rfl, fun id => ?_⟩
      unfold Table.contains
      rw [Table.get?_insert, Table.get?_insert, hp.identity_eq]
      by_cases hid : id = p.identity
      · rw [if_pos hid, if_pos hid]
        rfl
      · rw [if_neg hid, if_neg hid]
        exact hsame id

/-! ## Two services -/

theorem delegates_indexedService (r : Request) :
    (indexedService validates find stamps' sink config).delegates r =
      (indexedService validates find stamps sink config).delegates r := by
  cases r <;> rfl

theorem related_create {p p' : Promotion} (hp : p.Restamped p') :
    (Plan.ask (.create p)).Related (World.Mirrored (Versions s key old new))
      (indexedService validates find stamps sink config)
      (indexedService validates find stamps' sink config) (fun o o' => o' = o)
      (Plan.ask (.create p')) := by
  have hrelated : (Plan.ask (.create p)).Related (World.Mirrored (Versions s key old new))
      (indexedService validates find stamps sink config)
      (indexedService validates find stamps' sink config) (Matched Eq) (Plan.ask (.create p')) := by
    have hrequest : (Request.create p').untimed = (Request.create p).untimed :=
      congrArg Request.create hp
    refine Plan.related_ask_mirrored rfl hrequest rfl ?_
    intro x x' hx
    obtain ⟨houtcome, hafter⟩ := hx.create hp
    refine ⟨_, _, rfl, rfl, ?_, hafter⟩
    rw [houtcome]
    exact .refl _
  refine hrelated.imp ?_
  rintro _ _ (e | rfl)
  · rfl
  · rfl

/-- Any question but that for the freight is answered alike. -/
theorem related_question {r : Request} (hcreate : ∀ p, r ≠ .create p)
    (hfreight : ∀ key names, r ≠ .freight key names) :
    (Plan.ask r).Related (World.Mirrored (Versions s key old new))
      (indexedService validates find stamps sink config)
      (indexedService validates find stamps' sink config) (Matched Eq) (Plan.ask r) := by
  refine Plan.related_ask_mirrored rfl rfl (delegates_indexedService _) ?_
  rintro x x' ⟨created, created', attempts, rfl, rfl, hsame⟩
  have hafter : Versions s key old new ((s.holding key old).creating created attempts)
      ((s.holding key new).creating created' attempts) :=
    ⟨created, created', attempts, rfl, rfl, hsame⟩
  cases r with
  | create p => exact absurd rfl (hcreate p)
  | freight key names => exact absurd rfl (hfreight key names)
  | validate project =>
      cases validates with
      | false => exact ⟨_, _, rfl, rfl, .refl _, hafter⟩
      | true => exact ⟨_, _, rfl, rfl, .refl _, hafter⟩
  | subscribers stage =>
      cases find with
      | none => exact ⟨_, _, rfl, rfl, .refl _, hafter⟩
      | some find => exact ⟨_, _, rfl, rfl, .refl _, hafter⟩
  | _ => exact ⟨_, _, rfl, rfl, .refl _, hafter⟩

/-- A stage that is found is the stored one. -/
theorem related_stage (stage : Key) :
    (Plan.ask (.stage stage)).Related (World.Mirrored (Versions s key old new))
      (indexedService validates find stamps sink config)
      (indexedService validates find stamps' sink config)
      (Matched fun a b => b = a ∧ ∀ found, a = some found → s.stages.get? stage = some found)
      (Plan.ask (.stage stage)) := by
  refine Plan.related_ask_mirrored (r := .stage stage) rfl rfl (delegates_indexedService _) ?_
  rintro x x' ⟨created, created', attempts, rfl, rfl, hsame⟩
  refine ⟨_, _, rfl, rfl, matched_same.2 ⟨rfl, ?_⟩, created, created', attempts, rfl, rfl, hsame⟩
  rintro found hfound stored rfl
  exact getStage_eq_some hfound

/-- Of the freight it is seen whether it is qualified. -/
theorem related_freight {names : List String} (hsame : qualifies new names = qualifies old names) :
    (Plan.ask (.freight key names)).Related (World.Mirrored (Versions s key old new))
      (indexedService validates find stamps sink config)
      (indexedService validates find stamps' sink config)
      (Matched fun a b => b.isSome = a.isSome) (Plan.ask (.freight key names)) := by
  refine Plan.related_ask_mirrored rfl rfl (delegates_indexedService _) ?_
  rintro x x' ⟨created, created', attempts, rfl, rfl, hcreated⟩
  refine ⟨_, _, rfl, rfl, ?_, created, created', attempts, rfl, rfl, hcreated⟩
  show Matched _ (getQualifiedFreight _ key names) (getQualifiedFreight _ key names)
  rw [getQualifiedFreight_holding, getQualifiedFreight_holding]
  cases s.ensureAvailable with
  | error e => exact .error e
  | ok u =>
      refine .ok ?_
      rw [Option.isSome_filter, Option.isSome_filter]
      exact hsame

/-- Both operations come to the same, but for times, when both versions are qualified for one of the
candidates of the stored stage or neither is. -/
theorem related_deed (hids : ∀ n, (stamps' n).id = (stamps n).id) (d : Deed)
    (hsame : qualifies new (d.storedCandidates s) = qualifies old (d.storedCandidates s)) :
    let service (stamps : Nat → Promotion.Stamp) :=
      indexedService validates find stamps sink config
    (d.plan (service stamps).resolver).Related
      (World.Mirrored (Versions s ⟨d.move.project, d.move.freight⟩ old new)) (service stamps)
      (service stamps') (fun r r' => r'.untimed = r.untimed) (d.plan (service stamps).resolver) := by
  intro service
  have hconfig : (service stamps').config = (service stamps).config := rfl
  have hn : (service stamps).SameNotes
      (World.Mirrored (Versions s ⟨d.move.project, d.move.freight⟩ old new)) (service stamps') :=
    Service.sameNotes_mirrored hconfig
  have heligible : (eligibleStage d.move d.candidates).Related
      (World.Mirrored (Versions s ⟨d.move.project, d.move.freight⟩ old new)) (service stamps)
      (service stamps')
      (fun a b => b = a ∧ s.stages.get? ⟨d.move.project, d.move.stage⟩ = some a)
      (eligibleStage d.move d.candidates) := by
    refine Operation.related_eligibleStage hn d.move d.candidates
      (related_question (by simp) (by simp)) (related_stage _) ?_
    intro stage hstored
    have hcandidates : d.storedCandidates s = d.candidates stage := by
      rw [Deed.storedCandidates, hstored]
      rfl
    rw [hcandidates] at hsame
    exact related_freight hsame
  refine Deed.related_plan hconfig hids (fun p p' hp => related_create hp)
    (prompt_indexedService find) (prompt_indexedService find) d heligible ?_
  intro stage _
  have hfound : ((service stamps).resolver.subscribers stage).Related
      (World.Mirrored (Versions s ⟨d.move.project, d.move.freight⟩ old new)) (service stamps)
      (service stamps') (Matched Eq) ((service stamps).resolver.subscribers stage) := by
    cases find with
    | none => exact related_scanSubscribers hn stage (related_question (by simp) (by simp))
    | some find => exact related_question (r := .subscribers stage) (by simp) (by simp)
  exact hfound.imp fun _ _ h => h.imp fun _ _ h => ⟨h.symm, trivial⟩

end Store

/-! ## Runs that are turned away -/

/-- From one world to another calls were made and lines logged, but there was no call to create
anything and no event, and nothing was built or stored. -/
structure World.Inquired {σ : Type} (w w' : World σ) : Prop where
  calls : ∃ new, w'.calls = w.calls ++ new ∧ ∀ c ∈ new, ∀ p, c.request ≠ .create p
  sink : w'.sink = w.sink
  built : w'.built = w.built
  state : w'.state = w.state

namespace World.Inquired

variable {σ : Type} {u v w : World σ}

theorem refl (w : World σ) : w.Inquired w :=
  ⟨⟨[], (List.append_nil _).symm, fun _ h => by cases h⟩, rfl, rfl, rfl⟩

theorem trans (h₁ : u.Inquired v) (h₂ : v.Inquired w) : u.Inquired w := by
  obtain ⟨⟨new₁, hcalls₁, hnew₁⟩, hsink₁, hbuilt₁, hstate₁⟩ := h₁
  obtain ⟨⟨new₂, hcalls₂, hnew₂⟩, hsink₂, hbuilt₂, hstate₂⟩ := h₂
  refine ⟨⟨new₁ ++ new₂, by rw [hcalls₂, hcalls₁, List.append_assoc], ?_⟩,
    hsink₂.trans hsink₁, hbuilt₂.trans hbuilt₁, hstate₂.trans hstate₁⟩
  intro c hc
  exact (List.mem_append.1 hc).elim (hnew₁ c) (hnew₂ c)

theorem log (w : World σ) (line : LogLine) : w.Inquired (w.log line) :=
  ⟨⟨[], (List.append_nil _).symm, fun _ h => by cases h⟩, rfl, rfl, rfl⟩

/-- The calls are the same in both of two runs when they are the same without times. -/
theorem calls_eq {w₀ w₀' w w' : World σ} (h : w₀.Inquired w) (h' : w₀'.Inquired w')
    (hbefore : w₀'.calls = w₀.calls)
    (hcalls : w'.calls.map CallRecord.untimed = w.calls.map CallRecord.untimed) :
    w'.calls = w.calls := by
  obtain ⟨new, hnew, hask⟩ := h.calls
  obtain ⟨new', hnew', hask'⟩ := h'.calls
  rw [hnew, hnew', hbefore, List.map_append, List.map_append] at hcalls
  have huntimed (l : List CallRecord) (hl : ∀ c ∈ l, ∀ p, c.request ≠ .create p) :
      l.map CallRecord.untimed = l :=
    (List.map_congr_left fun c hc => CallRecord.untimed_eq_self (hl c hc)).trans (List.map_id l)
  rw [huntimed new hask, huntimed new' hask'] at hcalls
  rw [hnew, hnew', hbefore, List.append_cancel_left hcalls]

end World.Inquired

namespace Store

section Asking

variable {index : Option (Store → Stage → List Stage)} {m : Move} {w w' : World Store}

/-- Asking a store changes nothing in it. -/
theorem inquired_run {α : Type} {p : Plan α} (hp : p.Inquires) (w : World Store) :
    w.Inquired (p.run (backend.service validates index stamps sink config) context w).2 := by
  induction p generalizing w with
  | done a => exact .refl w
  | note n next ih =>
      cases n with
      | line line => exact (World.Inquired.log w line).trans (ih hp.2 _)
      | event e => cases hp.1
  | call r next ih =>
      have hcall : w.Inquired
          ((backend.service validates index stamps sink config).call context r w).2 := by
        cases hcheck : ((backend.service validates index stamps sink config).callContext context
            w.now).check w.tokens w.now with
        | error e =>
            rw [Service.call_of_ended hcheck]
            exact .refl w
        | ok u =>
            obtain ⟨reply, hserve, hsame⟩ := serve_question hp.1 w.state
            rw [Service.call_eq_of_prompt hserve hcheck]
            refine ⟨⟨_, rfl, ?_⟩, rfl, rfl, hsame⟩
            intro c hc
            unfold Service.recordsOf at hc
            split at hc
            · rw [List.mem_singleton.1 hc]
              exact hp.1
            · cases hc
      exact hcall.trans (ih _ (hp.2 _) _)
  | build stage freight next => cases hp
  | writes ps next => cases hp

/-- Where the freight is not qualified, no stage is eligible. -/
theorem not_eligible {candidates : Stage → List String} {a : Except PromotionError Stage}
    (h : (backend.service validates index stamps sink config).Eligible context m candidates a w w')
    (hq : ∀ stage, w.state.stages.get? ⟨m.project, m.stage⟩ = some stage →
      qualifies (w.state.freight.get? ⟨m.project, m.freight⟩) (candidates stage) = false) :
    ∃ e, a = .error e := by
  cases h with
  | @eligible stage freight _ u v _ hflaw h₁ h₂ h₃ =>
      have hu : u.state = w.state := state_of_asked (by simp) h₁
      have hv : v.state = u.state := state_of_asked (by simp) h₂
      have hstage : u.state.getStage ⟨m.project, m.stage⟩ = .ok (some stage) :=
        h₂.reply_eq fun _ => rfl
      have hfreight : v.state.getQualifiedFreight ⟨m.project, m.freight⟩ (candidates stage) =
          .ok (some freight) := h₃.reply_eq fun _ => rfl
      rw [hu] at hstage
      rw [hv, hu] at hfreight
      obtain ⟨hget, hqualified⟩ := getQualifiedFreight_eq_some hfreight
      have hq := hq stage (getStage_eq_some hstage)
      rw [hget] at hq
      have hq : freight.isQualifiedForAny (candidates stage) = false := hq
      rw [hqualified] at hq
      cases hq
  | _ => exact ⟨_, rfl⟩

/-- An operation whose freight is not qualified is turned away: it asks, and fails. -/
theorem turned_away (d : Deed) (w : World Store)
    (hq : qualifies (w.state.freight.get? ⟨d.move.project, d.move.freight⟩)
      (d.storedCandidates w.state) = false) :
    let service := backend.service validates index stamps sink config
    let run := (d.plan service.resolver).run service context w
    (∃ e, run.1 = d.rejected e) ∧ w.Inquired run.2 := by
  intro service run
  have hstored (stage : Stage)
      (hstage : w.state.stages.get? ⟨d.move.project, d.move.stage⟩ = some stage) :
      qualifies (w.state.freight.get? ⟨d.move.project, d.move.freight⟩) (d.candidates stage) =
        false := by
    rw [Deed.storedCandidates, hstage] at hq
    exact hq
  cases d with
  | stage m =>
      let logged : World Store := w.log ⟨.debug, "Promoting stage", m.fields⟩
      obtain ⟨a, v, hrun, heligible⟩ :=
        service.eligibleStage_cases context m promotionCandidates logged
      obtain ⟨e, rfl⟩ := not_eligible heligible hstored
      have hasked : logged.Inquired
          ((eligibleStage m promotionCandidates).run.run service context logged).2 :=
        inquired_run (inquires_eligibleStage m promotionCandidates) logged
      rw [hrun] at hasked
      show (∃ e, (((Deed.stage m).plan _).run service context w).1 = _) ∧
        w.Inquired (((Deed.stage m).plan _).run service context w).2
      rw [Deed.run_stage, run_promoteStage_error hrun]
      exact ⟨⟨e, rfl⟩, (World.Inquired.log w _).trans hasked⟩
  | subscribers m =>
      obtain ⟨a, v, hrun, hresolves⟩ := service.resolution_cases context service.resolver m w
      have hasked : w.Inquired ((resolution service.resolver m).run.run service context w).2 :=
        inquired_run (inquires_resolution service.resolver m) w
      rw [hrun] at hasked
      obtain ⟨e, rfl⟩ : ∃ e, a = .error e := by
        cases hresolves with
        | rejected h => exact ⟨_, rfl⟩
        | unanswered h _ => exact ⟨_, rfl⟩
        | noSubscribers h _ _ => exact ⟨_, rfl⟩
        | resolved h _ _ =>
            obtain ⟨e, he⟩ := not_eligible h hstored
            cases he
      show (∃ e, (((Deed.subscribers m).plan _).run service context w).1 = _) ∧
        w.Inquired (((Deed.subscribers m).plan _).run service context w).2
      rw [Deed.run_subscribers, run_promoteSubscribers, hrun]
      exact ⟨⟨e, rfl⟩, hasked⟩

end Asking

/-! ## What is gained -/

section Gains

variable {index : Option (Store → Stage → List Stage)} {m : Move} {w w' : World Store}

theorem gains_create (s : Store) (p : Promotion) :
    s.Gains (Shared.successes [(p, (s.create (.promotion p)).1)])
      (s.create (.promotion p)).2 where
  created id v := by
    rw [get?_created_create]
    simp only [Shared.mem_successes, List.mem_singleton, Prod.mk.injEq]
    constructor
    · rintro (hold | ⟨hok, hid, hv⟩)
      · exact .inl hold
      · exact .inr ⟨p, ⟨rfl, hok.symm⟩, hid, hv⟩
    · rintro (hold | ⟨q, ⟨rfl, hok⟩, hid, hv⟩)
      · exact .inl hold
      · exact .inr ⟨hok.symm, hid, hv⟩
  fresh q hq := by
    obtain ⟨rfl, hok⟩ := Prod.mk.inj (List.mem_singleton.1 (Shared.mem_successes.1 hq))
    exact get?_created_of_create hok.symm
  distinct := by
    rcases (s.create (.promotion p)).1 with e | ⟨⟩
    · exact .nil
    · exact List.pairwise_singleton _ _

/-- Creations one after another leave those that succeeded. -/
theorem gains_createAll (ps : List Promotion) (s : Store) :
    s.Gains (Shared.successes (createAll ps s).1) (createAll ps s).2 := by
  induction ps generalizing s with
  | nil => exact .refl s
  | cons p rest ih =>
      have hboth := (s.gains_create p).trans (ih (s.create (.promotion p)).2)
      have happend (o : Promotion × WriteOutcome) (L : List (Promotion × WriteOutcome)) :
          Shared.successes [o] ++ Shared.successes L = Shared.successes (o :: L) := by
        unfold Shared.successes
        rw [← List.map_append, ← List.filter_append]
        rfl
      rw [happend] at hboth
      exact hboth

/-- A call that is to create a promotion leaves it, if it succeeds. -/
theorem gains_of_asked {p : Promotion} {o : WriteOutcome}
    (h : (backend.service validates index stamps sink config).Asked context (.create p) o w w') :
    w.state.Gains (Shared.successes [(p, o)]) w'.state := by
  obtain ⟨v, v', hv, hcall, hv'⟩ := h
  rw [hv'.state_eq, ← hv.state_eq]
  cases hcheck : ((backend.service validates index stamps sink config).callContext context
      v.now).check v.tokens v.now with
  | error e =>
      rw [Service.call_of_ended hcheck] at hcall
      cases hcall
      exact .refl v.state
  | ok u =>
      have hserve : (backend.service validates index stamps sink config).serve (.create p) v.state =
          (.answer fun s => s.create (.promotion p), v.state) := rfl
      rw [Service.call_eq_of_prompt hserve hcheck] at hcall
      cases hcall
      exact v.state.gains_create p

/-- **A store gains what is reported as created.** -/
theorem gains_deed (d : Deed) (w : World Store) :
    let service := backend.service validates index stamps sink config
    let run := (d.plan service.resolver).run service context w
    w.state.Gains run.1.created run.2.state := by
  intro service run
  cases d with
  | stage m =>
      obtain ⟨a, w', hrun, hpromotes⟩ := service.promoteStage_cases context m w
      have hstate {candidates} {a : Except PromotionError Stage} {u : World Store}
          (h : service.Eligible context m candidates a w u) : u.state = w.state :=
        h.keeps (R := fun u v => v.state = u.state) (fun h => h.state_eq)
          (fun h₁ h₂ => h₂.trans h₁) fun hr h => state_of_asked hr h
      show w.state.Gains (((Deed.stage m).plan _).run service context w).1.created
        (((Deed.stage m).plan _).run service context w).2.state
      rw [Deed.run_stage, hrun]
      cases hpromotes with
      | rejected h =>
          rw [hstate h]
          exact .refl w.state
      | failed h hasked =>
          rw [← hstate h]
          exact gains_of_asked hasked
      | created h hasked =>
          rw [← hstate h]
          exact gains_of_asked hasked
  | subscribers m =>
      obtain ⟨a, v, hrun, hresolves⟩ := service.resolution_cases context service.resolver m w
      have hstate : v.state = w.state :=
        hresolves.keeps (R := fun u v => v.state = u.state) (fun h => h.state_eq)
          (fun h₁ h₂ => h₂.trans h₁) fun hr h => state_of_asked hr h
      show w.state.Gains (((Deed.subscribers m).plan _).run service context w).1.created
        (((Deed.subscribers m).plan _).run service context w).2.state
      rw [Deed.run_subscribers]
      cases a with
      | error e =>
          rw [run_promoteSubscribers, hrun]
          dsimp only
          rw [hstate]
          exact .refl w.state
      | ok stages =>
          have hprompt : service.Prompt := service_prompt validates index stamps sink config
          obtain ⟨hstarts, hstill⟩ := hresolves.starts hprompt
          obtain ⟨w', hcascade, hw'⟩ := run_cascade_prompt hrun (hstill.starts hstarts)
          rw [hcascade, Collector.ofOutcomes_eq]
          dsimp only
          rw [hw', ← hstate]
          exact gains_createAll _ v.state

end Gains

/-! ## Two versions -/

/-- What two runs of one operation come to, the second with other times. -/
structure Indistinct (s s' : Store) (run run' : Report × World Store) : Prop where
  /-- The same is reported, but for the times of promotions. -/
  report : run'.1.untimed = run.1.untimed
  /-- In particular the same promotions are reported as created. -/
  created : run'.1.created.map Promotion.untimed = run.1.created.map Promotion.untimed
  /-- The same calls were made at the same instants. -/
  calls : run'.2.calls.map CallRecord.untimed = run.2.calls.map CallRecord.untimed
  /-- The log, the events, the clock and the stamps that were used up are the same. -/
  world : run'.2 = { run.2 with calls := run'.2.calls, state := run'.2.state }
  /-- Each store gains what is reported as created, and nothing else of it changes. -/
  gains : s.Gains run.1.created run.2.state
  gains' : s'.Gains run'.1.created run'.2.state
  kept : run.2.state = s.creating run.2.state.created run.2.state.attempts
  kept' : run'.2.state = s'.creating run'.2.state.created run'.2.state.attempts
  attempts : run'.2.state.attempts = run.2.state.attempts

/-- **Of a freight nothing is to be seen but whether it is qualified.** Take any store, any operation
and any two versions of its freight, of which either may be that there is none. If both versions are
qualified for one of the candidates of the stored stage, or neither is, then with the same
identifiers for promotions the two runs show no difference but for times. If neither is, both fail
with the same error after the same calls, none of them to create anything; there is no event, and
the store stays as it was. -/
theorem versions_indistinct (validates : Bool) (find : Option (Stage → List Stage))
    (stamps stamps' : Nat → Promotion.Stamp) (sink : Sink) (config : Config) (context : Context)
    (d : Deed) (w : World Store) (old new : Option Freight)
    (hids : ∀ n, (stamps' n).id = (stamps n).id)
    (hsame : qualifies new (d.storedCandidates w.state) =
      qualifies old (d.storedCandidates w.state)) :
    let key : Key := ⟨d.move.project, d.move.freight⟩
    let run (stamps : Nat → Promotion.Stamp) (version : Option Freight) :=
      let service := indexedService validates find stamps sink config
      (d.plan service.resolver).run service context
        { w with state := w.state.holding key version }
    Indistinct (w.state.holding key old) (w.state.holding key new) (run stamps old)
        (run stamps' new) ∧
      (qualifies old (d.storedCandidates w.state) = false →
        (∃ e, (run stamps old).1 = d.rejected e ∧ (run stamps' new).1 = d.rejected e) ∧
        (run stamps' new).2.calls = (run stamps old).2.calls ∧
        World.Inquired { w with state := w.state.holding key old } (run stamps old).2 ∧
        World.Inquired { w with state := w.state.holding key new } (run stamps' new).2) := by
  intro key run
  have hbefore : World.Mirrored (Versions w.state key old new)
      { w with state := w.state.holding key old } { w with state := w.state.holding key new } :=
    ⟨w.calls, _, rfl, rfl, w.state.created, w.state.created, w.state.attempts, rfl, rfl,
      fun _ => rfl⟩
  have hrelated : (run stamps' new).1.untimed = (run stamps old).1.untimed ∧
      World.Mirrored (Versions w.state key old new) (run stamps old).2 (run stamps' new).2 :=
    related_deed hids d hsame context _ _ hbefore
  obtain ⟨hreport, calls, state, hworld, hcalls, created, created', attempts, hstate, hstate', -⟩ :=
    hrelated
  have hcalls : (run stamps' new).2.calls.map CallRecord.untimed =
      (run stamps old).2.calls.map CallRecord.untimed := by
    rw [hworld]
    exact hcalls
  have hstate' : (run stamps' new).2.state =
      (w.state.holding key new).creating created' attempts := by
    rw [hworld]
    exact hstate'
  refine ⟨⟨hreport, ?_, hcalls, ?_, gains_deed d { w with state := w.state.holding key old },
    gains_deed d { w with state := w.state.holding key new }, ?_, ?_, ?_⟩, ?_⟩
  · rw [← Report.created_untimed, hreport, Report.created_untimed]
  · rw [hworld]
  · rw [hstate]
    rfl
  · rw [hstate']
    rfl
  · rw [hstate, hstate']
    rfl
  · intro hold
    have hturned (version : Option Freight) (stamps : Nat → Promotion.Stamp)
        (hq : qualifies version (d.storedCandidates w.state) = false) :
        (∃ e, (run stamps version).1 = d.rejected e) ∧
          World.Inquired { w with state := w.state.holding key version } (run stamps version).2 := by
      refine turned_away d { w with state := w.state.holding key version } ?_
      show qualifies ((w.state.holding key version).freight.get? key) _ = false
      rw [get?_holding]
      exact hq
    obtain ⟨⟨e, he⟩, hasked⟩ := hturned old stamps hold
    obtain ⟨⟨e', he'⟩, hasked'⟩ := hturned new stamps' (hsame.trans hold)
    rw [he, he'] at hreport
    obtain rfl : e' = e := d.rejected_inj hreport
    exact ⟨⟨e', he, he'⟩, hasked.calls_eq hasked' rfl hcalls, hasked, hasked'⟩

/-- A stage is promoted to a freight that was verified in its source, or in the stage itself; and to
one that is missing, or was verified elsewhere. -/
theorem versions_indistinct_branching :
    let d : Deed := .stage ⟨"proj", "qa", "f1"⟩
    let key : Key := ⟨"proj", "f1"⟩
    let later : Timestamp := ⟨⟨2024, 1, 2⟩, ⟨3, 4, 5, 0⟩, by decide, by decide⟩
    let verified (stage : String) := some ((Freight.named "proj" "f1").qualifiedFor stage later)
    let run (time : Timestamp) (version : Option Freight) :=
      let service := indexedService true none (fun n => ⟨.ofNat n, time⟩) .discarding {}
      (d.plan service.resolver).run service ⟨0, none⟩
        { branching with state := branching.state.holding key version }
    Indistinct (branching.state.holding key (verified "dev"))
        (branching.state.holding key (verified "qa")) (run default (verified "dev"))
        (run later (verified "qa")) ∧
      (run default (verified "dev")).1.created.length = 1 ∧
      (∃ e, (run default none).1 = d.rejected e ∧ (run later (verified "uat")).1 = d.rejected e) ∧
      (run later (verified "uat")).2.calls = (run default none).2.calls ∧
      (run default none).2.calls.length = 3 := by
  intro d key later verified run
  have hqualified := versions_indistinct true none (fun n => ⟨.ofNat n, default⟩)
    (fun n => ⟨.ofNat n, later⟩) .discarding {} ⟨0, none⟩ d branching (verified "dev")
    (verified "qa") (fun _ => rfl) (by decide +kernel)
  have hunqualified := versions_indistinct true none (fun n => ⟨.ofNat n, default⟩)
    (fun n => ⟨.ofNat n, later⟩) .discarding {} ⟨0, none⟩ d branching none (verified "uat")
    (fun _ => rfl) (by decide +kernel)
  obtain ⟨herror, hcalls, -⟩ := hunqualified.2 (by decide +kernel)
  exact ⟨hqualified.1, by decide +kernel, herror, hcalls, by decide +kernel⟩

end Store

end Delivery
