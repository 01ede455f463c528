import Delivery.Proofs.Agreement
import Delivery.Proofs.Independence
import Mathlib.Data.List.Nodup

/-!
# Failures stay with their stage

Injecting failures into a store is a change to some subscribers of a cascade and to nobody else. Two
runs of one request are put side by side, on a store and on the same store with failures injected:
both find the same subscribers (`Store.agrees_injecting`), and then every creation is decided as
before, but for the stages that were struck (`Store.create_spared`, `Store.create_struck`).
-/

namespace Delivery

/-- The stage that a promotion is for. -/
def Promotion.target (p : Promotion) : Key := ⟨p.project, p.stage⟩

namespace Store

/-- The store after failures were injected, one after another. -/
def injecting (failures : List (Key × String)) (s : Store) : Store :=
  s.changed (failures.map fun f => .failWritesFor f.1 f.2)

/-- The message that is injected for a stage; of several the last one counts. -/
def messageFor (failures : List (Key × String)) (stage : Key) : Option String :=
  failures.reverse.lookup stage

theorem injecting_eq (failures : List (Key × String)) (s : Store) :
    s.injecting failures = { s with failures := (s.injecting failures).failures } := by
  unfold injecting
  induction failures generalizing s with
  | nil => rfl
  | cons f rest ih => exact ih (s.failWritesFor f.1 f.2)

theorem injecting_creating (failures : List (Key × String)) (s : Store)
    (created : Table Identity Json) (attempts : Nat) :
    (s.creating created attempts).injecting failures =
      (s.injecting failures).creating created attempts := changed_creating _ s created attempts

theorem get?_failures_injecting (failures : List (Key × String)) (s : Store) (stage : Key) :
    (s.injecting failures).failures.get? stage =
      (messageFor failures stage).or (s.failures.get? stage) := by
  unfold injecting messageFor
  induction failures generalizing s with
  | nil => rfl
  | cons f rest ih =>
      obtain ⟨key, message⟩ := f
      rw [List.map_cons, List.reverse_cons, List.lookup_append]
      show ((s.failWritesFor key message).changed _).failures.get? stage = _
      rw [ih]
      cases rest.reverse.lookup stage with
      | some message => rfl
      | none =>
          show (s.failures.insert key message).get? stage = _
          rw [Table.get?_insert]
          by_cases hstage : stage = key
          · simp [hstage]
          · have hne : (stage == key) = false := by simpa using hstage
            rw [if_neg hstage, List.lookup_cons, hne]
            rfl

/-! ## One creation -/

section Creation

variable {failures : List (Key × String)} {s : Store} {p : Promotion}

theorem injected?_injecting (failures : List (Key × String)) (s : Store) (p : Promotion) :
    (s.injecting failures).injected? (.promotion p) =
      ((messageFor failures p.target).map .backend).or (s.injected? (.promotion p)) := by
  show ((s.injecting failures).failures.get? p.target).map _ = _
  rw [get?_failures_injecting]
  cases messageFor failures p.target <;> rfl

/-- A promotion of a stage that no failure was injected for is created as before, or not. -/
theorem create_spared (h : messageFor failures p.target = none) :
    ((s.injecting failures).create (.promotion p)).1 = (s.create (.promotion p)).1 := by
  have hinjected := injected?_injecting failures s p
  have hrefusal : (s.injecting failures).refusal? (.promotion p) = s.refusal? (.promotion p) := by
    unfold refusal?
    rw [hinjected, h, injecting_eq]
    rfl
  rw [create_fst, create_fst, hrefusal]

/-- A promotion of a stage that a failure was injected for is not created. It fails with the message
that was injected, unless its name is bad already. -/
theorem create_struck {message : String} (hup : s.unavailable = false)
    (h : messageFor failures p.target = some message) :
    Subdomain.isSubdomain p.name = true ∧
      ((s.injecting failures).create (.promotion p)).1 = .error (.backend message) ∨
    Subdomain.isSubdomain p.name = false ∧
      (∃ text, (s.create (.promotion p)).1 = .error (.invalid text)) ∧
      ((s.injecting failures).create (.promotion p)).1 = (s.create (.promotion p)).1 := by
  have hinjected := injected?_injecting failures s p
  have hup' : (s.injecting failures).unavailable = false := by
    rw [injecting_eq]
    exact hup
  have hmetadata : (Resource.promotion p).metadata.name = p.name := rfl
  rw [create_fst, create_fst]
  unfold refusal?
  rw [ensureAvailable_of_up hup, ensureAvailable_of_up hup', hinjected, h, hmetadata]
  cases Subdomain.isSubdomain p.name with
  | true => exact .inl ⟨rfl, rfl⟩
  | false => exact .inr ⟨rfl, ⟨_, rfl⟩, rfl⟩

/-- What can be created in spite of the failures is for a stage that was spared. -/
theorem create_injecting_eq_ok (hup : s.unavailable = false) :
    ((s.injecting failures).create (.promotion p)).1 = .ok () ↔
      messageFor failures p.target = none ∧ (s.create (.promotion p)).1 = .ok () := by
  cases hmessage : messageFor failures p.target with
  | none => simp [create_spared hmessage]
  | some message =>
      rcases create_struck hup hmessage with ⟨-, hfails⟩ | ⟨-, ⟨text, hfails⟩, hfails'⟩
      · simp [hfails]
      · simp [hfails', hfails]

end Creation

/-! ## Many creations -/

theorem attempts_create (s : Store) (r : Resource) : (s.create r).2.attempts = s.attempts + 1 := by
  rcases s.create_cases r with ⟨e, -, h⟩ | ⟨-, -, h⟩
  · rw [h]
    rfl
  · rw [h]
    rfl

/-- Creations count, and add to what was created; they change nothing else. -/
theorem createAll_snd (ps : List Promotion) (s : Store) : (createAll ps s).2 =
    s.creating (createAll ps s).2.created (s.attempts + ps.length) := by
  induction ps generalizing s with
  | nil => rfl
  | cons p rest ih =>
      show (createAll rest (s.create (.promotion p)).2).2 = s.creating
        (createAll rest (s.create (.promotion p)).2).2.created (s.attempts + (rest.length + 1))
      rw [ih, create_eq_creating, creating_creating]
      show s.creating _ ((s.create (.promotion p)).2.attempts + rest.length) = _
      rw [attempts_create, Nat.add_assoc, Nat.add_comm 1]
      rfl

section Distinct

variable {ps : List Promotion} {p : Promotion} {o : WriteOutcome}

theorem getElem?_createAll (s : Store)
    (hdistinct : ps.Pairwise fun p q => p.identity ≠ q.identity) {i : Nat} :
    (createAll ps s).1[i]? = some (p, o) ↔
      ps[i]? = some p ∧ (s.create (.promotion p)).1 = o := by
  rw [(createAll_eq s hdistinct).1, List.getElem?_map, Option.map_eq_some_iff]
  constructor
  · rintro ⟨q, hq, heq⟩
    obtain ⟨rfl, ho⟩ := Prod.mk.inj heq
    exact ⟨hq, ho⟩
  · rintro ⟨hp, rfl⟩
    exact ⟨p, hp, rfl⟩

theorem mem_createAll (s : Store) (hdistinct : ps.Pairwise fun p q => p.identity ≠ q.identity) :
    (p, o) ∈ (createAll ps s).1 ↔ p ∈ ps ∧ (s.create (.promotion p)).1 = o := by
  simp only [List.mem_iff_getElem?, getElem?_createAll s hdistinct, exists_and_right]

end Distinct

/-- What failures that were injected make of the writes of a cascade: the outcomes and the store
afterwards without them, and the outcomes and the store afterwards with them. -/
structure Isolated (failures : List (Key × String)) (promotions : List Promotion) (s : Store)
    (outcomes outcomes' : List (Promotion × WriteOutcome)) (t t' : Store) : Prop where
  written : outcomes.map Prod.fst = promotions
  written' : outcomes'.map Prod.fst = promotions
  /-- A stage that no failure was injected for has the same outcome. -/
  spared : ∀ (i : Nat) (p : Promotion) (o : WriteOutcome), outcomes[i]? = some (p, o) →
    messageFor failures p.target = none → outcomes'[i]? = some (p, o)
  /-- Any other fails as it was told to, unless its promotion had a bad name before. -/
  struck : ∀ (i : Nat) (p : Promotion) (o : WriteOutcome) (message : String),
    outcomes[i]? = some (p, o) → messageFor failures p.target = some message →
    Subdomain.isSubdomain p.name = true ∧ outcomes'[i]? = some (p, .error (.backend message)) ∨
    Subdomain.isSubdomain p.name = false ∧ (∃ text, o = .error (.invalid text)) ∧
      outcomes'[i]? = some (p, o)
  /-- What is missing in the end is what was created for those stages before. -/
  created : ∀ id v, t.created.get? id = some v ↔ t'.created.get? id = some v ∨
    ∃ p, (p, .ok ()) ∈ outcomes ∧ messageFor failures p.target ≠ none ∧
      id = p.identity ∧ v = p.toJson
  missing : ∀ p, (p, .ok ()) ∈ outcomes → messageFor failures p.target ≠ none →
    t'.created.get? p.identity = none
  /-- Everything else differs by the failures that were injected. -/
  rest : t' = (t.injecting failures).creating t'.created t'.attempts
  attempts : t.attempts = s.attempts + promotions.length
  attempts' : t'.attempts = s.attempts + promotions.length

section Writes

variable {failures : List (Key × String)} {promotions : List Promotion} {s : Store}

/-- What was created besides is for stages that a failure was injected for. -/
theorem get?_created_createAll_injecting (hup : s.unavailable = false)
    (hdistinct : promotions.Pairwise fun p q => p.identity ≠ q.identity) (id : Identity)
    (v : Json) :
    (createAll promotions s).2.created.get? id = some v ↔
      (createAll promotions (s.injecting failures)).2.created.get? id = some v ∨
      ∃ p, (p, .ok ()) ∈ (createAll promotions s).1 ∧ messageFor failures p.target ≠ none ∧
        id = p.identity ∧ v = p.toJson := by
  have hsame : (s.injecting failures).created = s.created := by rw [injecting_eq]
  rw [(createAll_eq s hdistinct).2, (createAll_eq (s.injecting failures) hdistinct).2, hsame]
  constructor
  · rintro (hold | ⟨p, hp, hok, hid, hv⟩)
    · exact .inl (.inl hold)
    · cases hmessage : messageFor failures p.target with
      | none =>
          have hok' := (create_injecting_eq_ok hup).2 ⟨hmessage, hok⟩
          exact .inl (.inr ⟨p, hp, hok', hid, hv⟩)
      | some message =>
          exact .inr ⟨p, (mem_createAll s hdistinct).2 ⟨hp, hok⟩, by simp [hmessage], hid, hv⟩
  · rintro ((hold | ⟨p, hp, hok, hid, hv⟩) | ⟨p, hp, -, hid, hv⟩)
    · exact .inl hold
    · exact .inr ⟨p, hp, ((create_injecting_eq_ok hup).1 hok).2, hid, hv⟩
    · obtain ⟨hp, hok⟩ := (mem_createAll s hdistinct).1 hp
      exact .inr ⟨p, hp, hok, hid, hv⟩

/-- Nothing is created for a stage that a failure was injected for. -/
theorem get?_created_createAll_struck (hup : s.unavailable = false)
    (hdistinct : promotions.Pairwise fun p q => p.identity ≠ q.identity) {p : Promotion}
    (hp : (p, .ok ()) ∈ (createAll promotions s).1)
    (hstruck : messageFor failures p.target ≠ none) :
    (createAll promotions (s.injecting failures)).2.created.get? p.identity = none := by
  obtain ⟨hp, hok⟩ := (mem_createAll s hdistinct).1 hp
  have hnew : s.created.get? p.identity = none := get?_created_of_create hok
  rw [Option.eq_none_iff_forall_ne_some]
  intro v hv
  rcases ((createAll_eq (s.injecting failures) hdistinct).2 _ _).1 hv with
    hold | ⟨q, hq, hok', hid, -⟩
  · rw [injecting_eq] at hold
    cases hnew.symm.trans hold
  · -- Two promotions under one identity are the same one, which was not spared.
    obtain rfl := List.inj_on_of_nodup_map (List.pairwise_map.2 hdistinct) hp hq hid
    exact hstruck ((create_injecting_eq_ok hup).1 hok').1

/-- **Failures do not spread among creations under different identities.** -/
theorem isolated_of_pairwise (hup : s.unavailable = false)
    (hdistinct : promotions.Pairwise fun p q => p.identity ≠ q.identity) :
    Isolated failures promotions s (createAll promotions s).1
      (createAll promotions (s.injecting failures)).1 (createAll promotions s).2
      (createAll promotions (s.injecting failures)).2 where
  written := map_fst_createAll _ s
  written' := map_fst_createAll _ (s.injecting failures)
  spared := by
    intro i p o hi hmessage
    obtain ⟨hp, rfl⟩ := (getElem?_createAll s hdistinct).1 hi
    exact (getElem?_createAll _ hdistinct).2 ⟨hp, create_spared hmessage⟩
  struck := by
    intro i p o message hi hmessage
    obtain ⟨hp, rfl⟩ := (getElem?_createAll s hdistinct).1 hi
    rcases create_struck hup hmessage with ⟨hname, hfails⟩ | ⟨hname, hinvalid, hfails⟩
    · exact .inl ⟨hname, (getElem?_createAll _ hdistinct).2 ⟨hp, hfails⟩⟩
    · exact .inr ⟨hname, hinvalid, (getElem?_createAll _ hdistinct).2 ⟨hp, hfails⟩⟩
  created := get?_created_createAll_injecting hup hdistinct
  missing _ hp hstruck := get?_created_createAll_struck hup hdistinct hp hstruck
  rest := by
    rw [createAll_snd promotions s, createAll_snd promotions (s.injecting failures),
      injecting_creating]
    rfl
  attempts := by
    rw [createAll_snd promotions s]
    rfl
  attempts' := by
    rw [createAll_snd promotions (s.injecting failures), injecting_eq]
    rfl

end Writes

/-! ## Two runs -/

section Runs

variable {validates : Bool} {stamps : Nat → Promotion.Stamp} {sink : Sink} {config : Config}
  {context : Context} {m : Move}

/-- A service that has a store to itself, and finds subscribers by a scan or in an index that is not
kept up meanwhile. -/
def indexedService (validates : Bool) (find : Option (Stage → List Stage))
    (stamps : Nat → Promotion.Stamp) (sink : Sink) (config : Config) : Service Store :=
  backend.service validates (find.map fun f _ => f) stamps sink config

theorem prompt_indexedService (find : Option (Stage → List Stage)) :
    (indexedService validates find stamps sink config).Prompt :=
  service_prompt validates _ stamps sink config

/-- The second store is the first one with failures injected. -/
def Struck (failures : List (Key × String)) (s t t' : Store) : Prop :=
  t = s ∧ t' = s.injecting failures

/-- A question is answered alike, whatever failures were injected. -/
theorem agrees_ask_struck (failures : List (Key × String)) (s : Store)
    (find : Option (Stage → List Stage)) {r : Request} (hr : ∀ p, r ≠ .create p) :
    (Plan.ask r).Agrees (Struck failures s) (indexedService validates find stamps sink config)
      (indexedService validates find stamps sink config) (fun _ => True) (Plan.ask r) := by
  refine Plan.agrees_ask (.refl _) (fun _ => trivial) ?_
  rintro t t' ⟨rfl, rfl⟩
  have hreads := injecting_eq failures t
  cases r with
  | create p => exact absurd rfl (hr p)
  | validate project =>
      cases validates with
      | false => exact ⟨_, _, rfl, rfl, rfl, trivial, rfl, rfl⟩
      | true =>
          refine ⟨_, _, rfl, rfl, ?_, trivial, rfl, rfl⟩
          rw [hreads]
          rfl
  | subscribers stage =>
      refine ⟨_, _, rfl, rfl, ?_, trivial, rfl, rfl⟩
      cases find <;> rfl
  | _ =>
      refine ⟨_, _, rfl, rfl, ?_, trivial, rfl, rfl⟩
      rw [hreads]
      rfl

/-- A stage is read only from a store that is up. -/
theorem agrees_stage_struck (failures : List (Key × String)) (s : Store)
    (find : Option (Stage → List Stage)) (key : Key) :
    (Plan.ask (.stage key)).Agrees (Struck failures s)
      (indexedService validates find stamps sink config)
      (indexedService validates find stamps sink config)
      (fun a => ∀ stage, a = .ok (some stage) → s.unavailable = false) (Plan.ask (.stage key)) := by
  refine Plan.agrees_ask (.refl _) (fun e stage h => by cases h) ?_
  rintro t t' ⟨rfl, rfl⟩
  refine ⟨_, _, rfl, rfl, ?_, ?_, rfl, rfl⟩
  · rw [injecting_eq]
    rfl
  · intro stage hstage
    have hstage : t.getStage key = .ok (some stage) := hstage
    exact (up_of_map_ensureAvailable hstage).1

/-- Up to the writes a cascade goes the same way, whatever failures were injected. -/
theorem agrees_injecting (failures : List (Key × String)) (s : Store)
    (find : Option (Stage → List Stage)) (m : Move) :
    (resolution (indexedService validates find stamps sink config).resolver m).Agrees
      (Struck failures s) (indexedService validates find stamps sink config)
      (indexedService validates find stamps sink config) (fun _ => s.unavailable = false)
      (resolution (indexedService validates find stamps sink config).resolver m) := by
  have heligible : (eligibleStage m cascadeCandidates).Agrees (Struck failures s)
      (indexedService validates find stamps sink config)
      (indexedService validates find stamps sink config) (fun _ => s.unavailable = false)
      (eligibleStage m cascadeCandidates) :=
    Operation.agrees_eligibleStage (.refl _) m cascadeCandidates
      (agrees_ask_struck failures s find (by simp)) (agrees_stage_struck failures s find _)
      (fun _ => agrees_ask_struck failures s find (by simp))
  refine agrees_resolution (.refl _) m heligible ?_
  intro stage hup
  have hfound : ((indexedService validates find stamps sink config).resolver.subscribers
      stage).Agrees (Struck failures s) (indexedService validates find stamps sink config)
      (indexedService validates find stamps sink config) (fun _ => True)
      ((indexedService validates find stamps sink config).resolver.subscribers stage) := by
    cases find with
    | none =>
        exact agrees_scanSubscribers (.refl _) stage (agrees_ask_struck failures s none (by simp))
    | some find => exact agrees_ask_struck failures s (some find) (by simp)
  exact hfound.imp fun _ _ _ _ => hup

/-- **Injected failures are isolated.** Whatever failures are injected before a request, its cascade
finds the same subscribers and builds the same promotions. Only those for the stages that were
struck fail, and only they are missing in the end. -/
theorem failures_isolated (failures : List (Key × String)) (find : Option (Stage → List Stage))
    {w : World Store} {subscribers : List Stage}
    (hresolved : ((resolution (indexedService validates find stamps sink config).resolver m).run.run
      (indexedService validates find stamps sink config) context w).1 = .ok subscribers)
    (hids : ∀ i j, i < j → j < subscribers.length →
      (stamps (w.built + i)).id ≠ (stamps (w.built + j)).id) :
    let service := indexedService validates find stamps sink config
    ∃ outcomes outcomes' t t',
      (promoteSubscribers service.resolver m).run service context w =
        ((Collector.ofOutcomes outcomes).finish, t) ∧
      (promoteSubscribers service.resolver m).run service context
        { w with state := w.state.injecting failures } =
        ((Collector.ofOutcomes outcomes').finish, t') ∧
      Isolated failures (service.promotionsOf subscribers m.freight w.built) w.state
        outcomes outcomes' t.state t'.state := by
  intro service
  let w' : World Store := { w with state := w.state.injecting failures }
  obtain ⟨a, v, hrun, hresolves⟩ := service.resolution_cases context service.resolver m w
  rw [hrun] at hresolved
  obtain rfl : a = .ok subscribers := hresolved
  obtain ⟨hstarts, hstill⟩ := hresolves.starts (prompt_indexedService find)
  have hagrees : (resolution service.resolver m).Agrees (Struck failures w.state) service service
      (fun _ => w.state.unavailable = false) (resolution service.resolver m) :=
    agrees_injecting failures w.state find m
  -- The other resolution comes to the same subscribers, in a world that is alike.
  obtain ⟨hvalue, hup, calls, logs, state, hv', hstate, rfl⟩ :=
    hagrees context w w' ⟨w.calls, w.logs, _, rfl, rfl, rfl⟩
  rcases hrun' : (resolution service.resolver m).run.run service context w' with ⟨a', v'⟩
  rw [hrun, hrun'] at hvalue
  obtain rfl : a' = .ok subscribers := hvalue
  rw [hrun] at hup hstate
  rw [hrun, hrun'] at hv'
  obtain rfl : v' = _ := hv'
  have hstarts' := hstill.starts hstarts
  obtain ⟨t, hcascade, ht⟩ := run_cascade_prompt hrun hstarts'
  obtain ⟨t', hcascade', ht'⟩ := run_cascade_prompt hrun' hstarts'
  dsimp only at hcascade' ht'
  rw [hstill.built] at hcascade ht hcascade' ht'
  rw [hstate] at hcascade ht
  have hdistinct : (service.promotionsOf subscribers m.freight w.built).Pairwise
      fun p q => p.identity ≠ q.identity := Service.pairwise_promotionsOf hids
  refine ⟨_, _, t, t', hcascade, hcascade', ?_⟩
  rw [ht, ht']
  exact isolated_of_pairwise (hup subscribers rfl) hdistinct

/-- Of three subscribers one is struck. Another could not be written for before. -/
theorem failures_isolated_branching :
    ∃ outcomes outcomes' t t',
      (promoteSubscribers .scan ⟨"proj", "dev", "f1"⟩).run
        (indexedService true none (fun n => ⟨.ofNat n, default⟩) .discarding {}) ⟨0, none⟩
        branching = ((Collector.ofOutcomes outcomes).finish, t) ∧
      (promoteSubscribers .scan ⟨"proj", "dev", "f1"⟩).run
        (indexedService true none (fun n => ⟨.ofNat n, default⟩) .discarding {}) ⟨0, none⟩
        { branching with
          state := branching.state.injecting [(⟨"proj", "qa"⟩, "disk full")] } =
        ((Collector.ofOutcomes outcomes').finish, t') ∧
      Isolated [(⟨"proj", "qa"⟩, "disk full")]
        ((indexedService true none (fun n => ⟨.ofNat n, default⟩) .discarding {}).promotionsOf
          [(Stage.named "proj" "dev").withSource "dev",
           (Stage.named "proj" "qa").withSources ["dev", "dev"],
           (Stage.named "proj" "uat").withSource "dev"] "f1" 0)
        branching.state outcomes outcomes' t.state t'.state := by
  have hids : ∀ j < 3, ∀ i < j, PromotionId.ofNat (0 + i) ≠ PromotionId.ofNat (0 + j) := by decide
  exact failures_isolated [(⟨"proj", "qa"⟩, "disk full")] none (by decide +kernel)
    fun i j hij hj => hids j hj i hij

end Runs

end Store

end Delivery
