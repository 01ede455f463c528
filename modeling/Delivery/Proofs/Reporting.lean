import Delivery.Proofs.PromptStore
import Delivery.Proofs.Qualification
import Delivery.Proofs.RoundTrip
import Mathlib.Data.List.Basic
import Mathlib.Data.Set.List

/-!
# What is reported is what is stored

An operation may be cut off at any moment: its caller cancels, a deadline passes, a write fails or
hangs. However it ends, the promotions that it reports are the ones that it has added to the store,
and the store lists them as they were reported (`Shared.reported_stored`). They are listed under
their own project. That is the project asked for, unless an index has been filled with stages of
another one (`Shared.reported_elsewhere`).
-/

namespace Delivery

/-- Promotions with one JSON form are read as one. -/
theorem Promotion.asRead_eq_of_toJson {p q : Promotion} (h : p.toJson = q.toJson) :
    p.asRead = q.asRead := by
  have hp := Promotion.reads p
  rw [h, Promotion.reads q] at hp
  exact (Except.ok.inj hp).symm

/-! ## Listing -/

namespace Store

theorem decodePromotions_map (l : List Promotion) :
    decodePromotions (l.map Promotion.toJson) = .ok (l.map Promotion.asRead) := by
  induction l with
  | nil => rfl
  | cons p rest ih =>
      rw [List.map_cons, decodePromotions, Promotion.reads p]
      dsimp only
      rw [ih]
      rfl

/-- What is created as a promotion is one, under its own identity. -/
theorem Sound.created_promotion {s : Store} (hs : s.Sound) {id : Identity} {v : Json}
    (hv : s.created.get? id = some v) (hkind : id.kind = .promotion) :
    ∃ p : Promotion, id = p.identity ∧ v = p.toJson := by
  obtain ⟨r, rfl, rfl⟩ := hs.created hv
  cases r with
  | stage s => cases hkind
  | freight f => cases hkind
  | promotion p => exact ⟨p, rfl, rfl⟩

theorem Sound.mem_promotionValues {s : Store} (hs : s.Sound) {project : String} {v : Json} :
    v ∈ s.promotionValues project ↔
      ∃ p : Promotion, p.project = project ∧ s.created.get? p.identity = some v ∧
        v = p.toJson := by
  unfold promotionValues
  rw [List.mem_map]
  constructor
  · rintro ⟨⟨id, v⟩, hmem, rfl⟩
    obtain ⟨hentry, hid⟩ := List.mem_filter.1 hmem
    have hget := Table.mem_toList_iff.1 hentry
    simp only [Bool.and_eq_true, beq_iff_eq] at hid
    obtain ⟨p, rfl, rfl⟩ := hs.created_promotion hget hid.1
    exact ⟨p, hid.2, hget, rfl⟩
  · rintro ⟨p, hproject, hget, rfl⟩
    refine ⟨(p.identity, p.toJson), List.mem_filter.2 ⟨Table.mem_toList_iff.2 hget, ?_⟩, rfl⟩
    simp only [Bool.and_eq_true, beq_iff_eq]
    exact ⟨rfl, hproject⟩

/-- The listing of a sound store can be read. -/
theorem Sound.exists_promotions {s : Store} (hs : s.Sound) (project : String) :
    ∃ l : List Promotion, s.promotions project = .ok (l.map Promotion.asRead) ∧
      s.promotionValues project = l.map Promotion.toJson := by
  have hvalues : s.promotionValues project ∈ Set.range (List.map Promotion.toJson) := by
    rw [Set.range_list_map]
    intro v hv
    obtain ⟨p, -, -, hp⟩ := hs.mem_promotionValues.1 hv
    exact ⟨p, hp.symm⟩
  obtain ⟨l, hl⟩ := hvalues
  refine ⟨l, ?_, hl.symm⟩
  unfold promotions
  rw [← hl, decodePromotions_map]

/-- **A sound store lists the promotions of the project that were created**, each as it is read. -/
theorem Sound.promotions_eq_ok {s : Store} (hs : s.Sound) (project : String) :
    ∃ l, s.promotions project = .ok l ∧ ∀ q, q ∈ l ↔ ∃ p : Promotion, p.project = project ∧
      s.created.get? p.identity = some p.toJson ∧ q = p.asRead := by
  obtain ⟨l, hok, hl⟩ := hs.exists_promotions project
  refine ⟨l.map Promotion.asRead, hok, ?_⟩
  intro q
  rw [List.mem_map]
  constructor
  · rintro ⟨p, hp, rfl⟩
    have hv : p.toJson ∈ s.promotionValues project := hl ▸ List.mem_map_of_mem hp
    obtain ⟨p', hproject, hget, hv⟩ := hs.mem_promotionValues.1 hv
    exact ⟨p', hproject, hv ▸ hget, Promotion.asRead_eq_of_toJson hv⟩
  · rintro ⟨p, hproject, hget, rfl⟩
    have hv : p.toJson ∈ l.map Promotion.toJson :=
      hl ▸ hs.mem_promotionValues.2 ⟨p, hproject, hget, rfl⟩
    obtain ⟨p', hp', hv⟩ := List.mem_map.1 hv
    exact ⟨p', hp', Promotion.asRead_eq_of_toJson hv⟩

end Store

/-! ## What a service builds -/

namespace Service

variable {σ : Type} {s : Service σ} {context : Context} {m : Move} {w : World σ} {p : Promotion}

/-- What is returned was built for the stage, once it was found eligible. -/
theorem exists_of_promoteStage (h : ((promoteStage m).run.run s context w).1 = .ok p) :
    ∃ stage stamp v, s.Eligible context m promotionCandidates (.ok stage) w v ∧
      p = .build stage m.freight stamp := by
  obtain ⟨a, w', hrun, hpromotes⟩ := s.promoteStage_cases context m w
  rw [hrun] at h
  cases hpromotes with
  | rejected => cases h
  | failed => cases h
  | created heligible hasked =>
      cases h
      exact ⟨_, _, _, heligible, rfl⟩

/-- What is reported was built for a subscriber. -/
theorem exists_of_promoteSubscribers
    (hp : p ∈ ((promoteSubscribers s.resolver m).run s context w).1.promotions) :
    ∃ subscribers v, s.Resolves context m s.resolver (.ok subscribers) w v ∧
      ∃ b ∈ subscribers, ∃ stamp, p = .build b m.freight stamp := by
  obtain ⟨r, w', hrun, hcascades⟩ := s.promoteSubscribers_cases context s.resolver m w
  rw [hrun] at hp
  cases hcascades with
  | rejected => cases hp
  | cascaded h hwrite =>
      rw [Collector.ofOutcomes_eq] at hp
      exact ⟨_, _, h, exists_subscriber hwrite (Shared.mem_successes.1 hp)⟩

/-- A promotion is stamped by a clock, so its moment can be read from what is stored. -/
theorem legible_of_promoteStage
    (hp : p ∈ ((promoteStage m).run.run s context w).1.toOption.toList) : p.Legible := by
  cases h : ((promoteStage m).run.run s context w).1 with
  | error e =>
      rw [h] at hp
      cases hp
  | ok q =>
      rw [h] at hp
      obtain rfl := List.mem_singleton.1 hp
      obtain ⟨stage, stamp, v, -, rfl⟩ := exists_of_promoteStage h
      exact Promotion.legible_build stage m.freight stamp

theorem legible_of_promoteSubscribers
    (hp : p ∈ ((promoteSubscribers s.resolver m).run s context w).1.promotions) : p.Legible := by
  obtain ⟨subscribers, v, -, b, -, stamp, rfl⟩ := exists_of_promoteSubscribers hp
  exact Promotion.legible_build b m.freight stamp

end Service

/-! ## Reports -/

/-- An index whose stages are of the project they are looked up for. -/
def Confined {σ : Type} (index : Option (σ → Stage → List Stage)) : Prop :=
  ∀ find ∈ index, ∀ (s : σ) (stage : Stage), ∀ b ∈ find s stage, b.project = stage.project

namespace Shared

/-- From one state to another the promotions reported, and nothing else, were added to what was
created. They are all different and new, and each is listed under its project as it was reported.
Everything else at the store is as it was, but for what others have changed in the meantime. -/
structure Reports (reported : List Promotion) (s₀ s : Shared) : Prop where
  added : ∀ id v, s.store.created.get? id = some v ↔
    s₀.store.created.get? id = some v ∨ ∃ p ∈ reported, id = p.identity ∧ v = p.toJson
  fresh : ∀ p ∈ reported, s₀.store.created.get? p.identity = none
  distinct : reported.Pairwise fun p q => p.identity ≠ q.identity
  listed : ∀ project, ∃ l, s.store.promotions project = .ok l ∧
    ∀ p ∈ reported, p.project = project → p ∈ l
  others : ∃ cs, (∀ c ∈ cs, ∃ t ∈ s₀.turns, c ∈ t.changes) ∧
    s.store = (s₀.store.changed cs).creating s.store.created s.store.attempts

variable {validates : Bool} {index : Option (Shared → Stage → List Stage)}
  {stamps : Nat → Promotion.Stamp} {sink : Sink} {config : Config} {context : Context} {m : Move}
  {w w' : World Shared}

theorem allows_own (s : Shared) : s.Allows fun c => ∃ t ∈ s.turns, c ∈ t.changes :=
  fun t ht _ hc => ⟨t, ht, hc⟩

/-- What was written successfully is what may be reported. -/
theorem Written.reports {s₀ s : Shared} {L : List (Promotion × WriteOutcome)}
    (h : Written (fun c => ∃ t ∈ s₀.turns, c ∈ t.changes) s₀ L s) (hs : s₀.store.Sound)
    (hlegible : ∀ p ∈ successes L, p.Legible) : Reports (successes L) s₀ s := by
  have hadded : ∀ id v, s.store.created.get? id = some v ↔ s₀.store.created.get? id = some v ∨
      ∃ p ∈ successes L, id = p.identity ∧ v = p.toJson := by
    intro id v
    rw [h.created]
    simp only [mem_successes]
  refine ⟨hadded, fun p hp => h.fresh p (mem_successes.1 hp), h.pairwise_successes, ?_, h.drift⟩
  intro project
  obtain ⟨l, hl, hmem⟩ := (h.sound hs).promotions_eq_ok project
  refine ⟨l, hl, ?_⟩
  intro p hp hproject
  exact (hmem p).2 ⟨p, hproject, (hadded _ _).2 (.inr ⟨p, hp, rfl, rfl⟩),
    (Promotion.asRead_eq_self_iff.2 (hlegible p hp)).symm⟩

/-! ## Projects -/

theorem key_of_eligible {candidates : Stage → List String} {stage : Stage}
    (h : (service validates index stamps sink config).Eligible context m candidates (.ok stage)
      w w') (hw : w.state.store.Sound) : stage.key = ⟨m.project, m.stage⟩ := by
  obtain ⟨-, -, -, -, -, -, -, hkey, -⟩ := inquiries_of_eligible h hw
  exact hkey

theorem promoteStage_project (hw : w.state.store.Sound) {p : Promotion}
    (hp : ((promoteStage m).run.run (service validates index stamps sink config)
      context w).1 = .ok p) : p.project = m.project := by
  obtain ⟨stage, stamp, v, heligible, rfl⟩ := Service.exists_of_promoteStage hp
  exact congrArg Key.project (key_of_eligible heligible hw)

/-- What the service answers itself is what its index has. -/
theorem find_of_asked {σ : Type} {s : Service σ} {stage : Stage} {stages : List Stage}
    {w w' : World σ} (h : s.Asked context (.subscribers stage) (.ok stages) w w') :
    ∃ state, stages = (s.index.map fun find => find state stage).getD [] := by
  obtain ⟨v, v', -, hcall, -⟩ := h
  rcases s.call_cases context (.subscribers stage) v with
    ⟨e, -, h⟩ | ⟨w₁, -, ⟨e, -, h, -⟩ | ⟨h, -⟩⟩
  · rw [hcall] at h
    cases h
  · rw [hcall] at h
    cases h
  · rw [hcall] at h
    cases h
    exact ⟨_, rfl⟩

/-- The subscribers of a stage are of its project, by a scan always. -/
theorem project_of_resolves {subscribers : List Stage}
    (h : (service validates index stamps sink config).Resolves context m
      (service validates index stamps sink config).resolver (.ok subscribers) w w')
    (hw : w.state.store.Sound) (hindex : Confined index) :
    ∀ b ∈ subscribers, b.project = m.project := by
  intro b hb
  cases index with
  | none =>
      obtain ⟨_, _, _, _, _, -, -, -, -, -, -, -, hsubscribers⟩ := inquiries_of_resolved h hw
      exact (hsubscribers b hb).2.1
  | some find =>
      cases h with
      | @resolved stage found _ _ _ h hasked _ =>
          obtain ⟨state, hfound⟩ := find_of_asked hasked
          have hb : b ∈ find state stage := by
            rw [← show found = find state stage from hfound]
            exact hb
          exact (hindex find rfl state stage b hb).trans
            (congrArg Key.project (key_of_eligible h hw))

theorem promoteSubscribers_project (hw : w.state.store.Sound) (hindex : Confined index) :
    ∀ p ∈ ((promoteSubscribers (service validates index stamps sink config).resolver m).run
      (service validates index stamps sink config) context w).1.promotions,
      p.project = m.project := by
  intro p hp
  obtain ⟨subscribers, v, h, b, hb, stamp, rfl⟩ := Service.exists_of_promoteSubscribers hp
  exact project_of_resolves h hw hindex b hb

/-! ## The two operations -/

/-- **What is reported is what is stored.** Whenever an operation ends, and whatever ends it, it has
added to the store what it reports: the promotion that was returned, or the promotions of the
result. -/
theorem reported_stored (validates : Bool) (index : Option (Shared → Stage → List Stage))
    (stamps : Nat → Promotion.Stamp) (sink : Sink) (config : Config) (m : Move) (context : Context)
    (w : World Shared) (hw : w.state.store.Reachable) :
    let service := service validates index stamps sink config
    let promoted := (promoteStage m).run.run service context w
    let cascade := (promoteSubscribers service.resolver m).run service context w
    (Reports promoted.1.toOption.toList w.state promoted.2.state ∧
      ∀ p, promoted.1 = .ok p → p.project = m.project) ∧
    (Reports cascade.1.promotions w.state cascade.2.state ∧
      (Confined index → ∀ p ∈ cascade.1.promotions, p.project = m.project)) := by
  intro service promoted cascade
  have hsound := hw.sound
  have hpromoted : ∃ L, Written _ w.state L promoted.2.state ∧
      successes L = promoted.1.toOption.toList := promoteStage_written m context w (allows_own _)
  have hcascade : ∃ L, Written _ w.state L cascade.2.state ∧
      successes L = cascade.1.promotions :=
    promoteSubscribers_written _ m context w (allows_own _)
  obtain ⟨L, hwritten, hreturned⟩ := hpromoted
  obtain ⟨L', hwritten', hresult⟩ := hcascade
  refine ⟨⟨?_, fun p hp => promoteStage_project hsound hp⟩, ?_, promoteSubscribers_project hsound⟩
  · rw [← hreturned]
    exact hwritten.reports hsound (hreturned ▸ fun _ => Service.legible_of_promoteStage)
  · rw [← hresult]
    exact hwritten'.reports hsound (hresult ▸ fun _ => Service.legible_of_promoteSubscribers)

/-- A store whose next caller cancels while its write is answered. -/
def cutOff : World Shared where
  state :=
    { store := Store.changed
        [.putStage ((Stage.named "proj" "qa").withSource "dev"),
         .putFreight ((Freight.named "proj" "f1").qualifiedFor "dev" default)] .empty
      turns := [{}, {}, {}, { pauses := [.cancel "enough"] }] }

theorem reported_stored_cutOff :
    ∃ p l, ((promoteStage ⟨"proj", "qa", "f1"⟩).run.run
        (service true none (fun n => ⟨.ofNat n, default⟩) .discarding {}) ⟨0, none⟩
        cutOff).1 = .ok p ∧
      ((promoteStage ⟨"proj", "qa", "f1"⟩).run.run
        (service true none (fun n => ⟨.ofNat n, default⟩) .discarding {}) ⟨0, none⟩
        cutOff).2.state.store.promotions "proj" = .ok l ∧ p ∈ l := by
  have hok : ((promoteStage ⟨"proj", "qa", "f1"⟩).run.run
      (service true none (fun n => ⟨.ofNat n, default⟩) .discarding {}) ⟨0, none⟩
      cutOff).1.isOk = true := by
    decide +kernel
  have hreachable : cutOff.state.store.Reachable := Store.Reachable.empty.changed _
  obtain ⟨⟨hreports, hproject⟩, -⟩ := reported_stored true none (fun n => ⟨.ofNat n, default⟩)
    .discarding {} ⟨"proj", "qa", "f1"⟩ ⟨0, none⟩ cutOff hreachable
  generalize (promoteStage ⟨"proj", "qa", "f1"⟩).run.run
    (service true none (fun n => ⟨.ofNat n, default⟩) .discarding {}) ⟨0, none⟩ cutOff = promoted
    at hok hreports hproject ⊢
  obtain ⟨a, w⟩ := promoted
  cases a with
  | error e => cases hok
  | ok p =>
      obtain ⟨l, hl, hlisted⟩ := hreports.listed "proj"
      exact ⟨p, l, rfl, hl, hlisted p (List.mem_singleton_self p) (hproject p rfl)⟩

end Shared

/-! ## Stray stages -/

/-- A stage of another project. -/
def stray : Stage := (Stage.named "other" "qa").withSource "dev"

/-- A service whose index was filled with a stray stage. -/
def strayService : Service Store :=
  Store.backend.service true (some fun _ => (SubscriberIndexes.replace .empty "proj"
    [stray]).subscribers) (fun n => ⟨.ofNat n, default⟩) .discarding {}

/-- A store with a stage, and a freight that is qualified for it. -/
def straying : World Store where
  state := Store.changed
    [.putStage (.named "proj" "dev"),
     .putFreight ((Freight.named "proj" "f1").qualifiedFor "dev" default)] .empty

/-- What is reported is not always listed under the project that was asked for. -/
theorem reported_elsewhere :
    straying.state.Reachable ∧
    let cascade := (promoteSubscribers strayService.resolver ⟨"proj", "dev", "f1"⟩).run strayService
      ⟨0, none⟩ straying
    ∃ p ∈ cascade.1.promotions, ∃ l, cascade.2.state.promotions "proj" = .ok l ∧ p ∉ l := by
  refine ⟨Store.Reachable.empty.changed _, ?_⟩
  intro cascade
  let resolved := (resolution strayService.resolver ⟨"proj", "dev", "f1"⟩).run.run strayService
    ⟨0, none⟩ straying
  let created := Store.createAll (strayService.promotionsOf [stray] "f1" resolved.2.built)
    resolved.2.state
  have hfound : resolved.1 = .ok [stray] := by decide +kernel
  have hlive : Context.check ⟨0, none⟩ resolved.2.tokens resolved.2.now = .ok () := by
    decide +kernel
  have hlisted : created.2.promotions "proj" = .ok [] := by decide +kernel
  have hreported : (Collector.ofOutcomes created.1).finish.promotions.length = 1 := by
    decide +kernel
  obtain ⟨w', hrun, hstate⟩ := Store.run_cascade_prompt (m := ⟨"proj", "dev", "f1"⟩)
    (v := resolved.2) (Prod.ext hfound rfl) (Service.check_callContext hlive (by decide))
  have hcascade : cascade = ((Collector.ofOutcomes created.1).finish, w') := hrun
  obtain ⟨p, hp⟩ := List.length_eq_one_iff.1 hreported
  rw [hcascade]
  refine ⟨p, ?_, [], ?_, List.not_mem_nil⟩
  · rw [hp]
    exact List.mem_singleton_self p
  · rw [hstate]
    exact hlisted

end Delivery
