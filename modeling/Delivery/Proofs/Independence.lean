import Delivery.Proofs.CandidateSets
import Delivery.Proofs.Names
import Mathlib.Data.List.Basic

/-!
# A cascade is a set of independent promotions

On a store of its own, a cascade does to every subscriber what promoting that stage alone would do:
the candidates of the one are among those of the other, a listing has the stages that a look-up
finds, and promotions with different identifiers do not get in each other's way
(`Store.createAll_eq`). `Store.cascade_independent` puts the two operations side by side.
-/

namespace Delivery

namespace Store

/-! ## Creations that do not meet -/

theorem create_fst (s : Store) (r : Resource) :
    (s.create r).1 = match s.refusal? r with
      | some e => .error e
      | none => .ok () := by
  unfold create
  cases s.refusal? r <;> rfl

/-- Whether a resource can be created depends only on what is stored under its identity. -/
theorem refusal?_creating {s : Store} {r : Resource} {created : Table Identity Json}
    (h : created.get? r.identity = s.created.get? r.identity) (attempts : Nat) :
    (s.creating created attempts).refusal? r = s.refusal? r := by
  have hinjected : (s.creating created attempts).injected? r = s.injected? r := by
    cases r <;> rfl
  have hcontains : (s.creating created attempts).created.contains r.identity =
      s.created.contains r.identity := congrArg Option.isSome h
  unfold refusal?
  rw [hinjected, hcontains]
  rfl

/-- A creation does not matter to another one under a different identity. -/
theorem create_create {s : Store} {p q : Promotion} (h : p.identity ≠ q.identity) :
    ((s.create (.promotion p)).2.create (.promotion q)).1 = (s.create (.promotion q)).1 := by
  rw [create_fst, create_fst]
  rcases s.create_cases (.promotion p) with ⟨e, -, hcreate⟩ | ⟨-, -, hcreate⟩
  · rw [hcreate, refusal?_creating rfl]
  · rw [hcreate, refusal?_creating]
    show (s.created.insert p.identity p.toJson).get? q.identity = _
    rw [Table.get?_insert, if_neg (Ne.symm h)]
    rfl

/-- Nor do many creations to one under another identity. -/
theorem create_createAll {ps : List Promotion} {p : Promotion} {s : Store}
    (h : ∀ q ∈ ps, q.identity ≠ p.identity) :
    ((createAll ps s).2.create (.promotion p)).1 = (s.create (.promotion p)).1 := by
  induction ps generalizing s with
  | nil => rfl
  | cons q rest ih =>
      obtain ⟨hq, hrest⟩ := List.forall_mem_cons.1 h
      exact (ih hrest).trans (create_create hq)

/-- **Creations under different identities are independent.** Each has the outcome that it would
have alone, and what is created is what each would create. -/
theorem createAll_eq {ps : List Promotion} (s : Store)
    (hdistinct : ps.Pairwise fun p q => p.identity ≠ q.identity) :
    (createAll ps s).1 = ps.map (fun p => (p, (s.create (.promotion p)).1)) ∧
      ∀ id v, (createAll ps s).2.created.get? id = some v ↔ s.created.get? id = some v ∨
        ∃ p ∈ ps, (s.create (.promotion p)).1 = .ok () ∧ id = p.identity ∧ v = p.toJson := by
  induction ps generalizing s with
  | nil => exact ⟨rfl, fun id v => by simp [createAll]⟩
  | cons p rest ih =>
      obtain ⟨hp, hrest⟩ := List.pairwise_cons.1 hdistinct
      obtain ⟨houtcomes, hcreated⟩ := ih (s.create (.promotion p)).2 hrest
      refine ⟨?_, ?_⟩
      · rw [createAll, List.map_cons, ← List.map_congr_left (f := fun q =>
          (q, ((s.create (.promotion p)).2.create (.promotion q)).1)) fun q hq => by
            rw [create_create (hp q hq)], ← houtcomes]
      · intro id v
        show (createAll rest (s.create (.promotion p)).2).2.created.get? id = some v ↔ _
        rw [hcreated, get?_created_create]
        constructor
        · rintro ((hold | ⟨hok, he⟩) | ⟨q, hq, hok, he⟩)
          · exact .inl hold
          · exact .inr ⟨p, List.mem_cons_self, hok, he⟩
          · rw [create_create (hp q hq)] at hok
            exact .inr ⟨q, List.mem_cons_of_mem _ hq, hok, he⟩
        · rintro (hold | ⟨q, hq, hok, he⟩)
          · exact .inl (.inl hold)
          · rcases List.mem_cons.1 hq with rfl | hq
            · exact .inl (.inr ⟨hok, he⟩)
            · refine .inr ⟨q, hq, ?_, he⟩
              rw [create_create (hp q hq)]
              exact hok

/-- Whether a promotion can be created does not depend on when it was stamped. -/
theorem create_restamped (s : Store) (stage : Stage) (freight : String) (id : PromotionId)
    (t t' : Timestamp) :
    (s.create (.promotion (.build stage freight ⟨id, t⟩))).1 =
      (s.create (.promotion (.build stage freight ⟨id, t'⟩))).1 := by
  rw [create_fst, create_fst]
  rfl

/-- No promotion of a stage without a name is created. -/
theorem create_unnamed (s : Store) {stage : Stage} (hname : stage.name = "") (freight : String)
    (stamp : Promotion.Stamp) :
    (s.create (.promotion (.build stage freight stamp))).1 ≠ .ok () := by
  have hbad :
      Subdomain.isSubdomain (Promotion.build stage freight stamp).metadata.name = false := by
    show Subdomain.isSubdomain (Promotion.nameFor stage.name freight stamp.id) = false
    rw [hname]
    exact Promotion.nameFor_empty_not_subdomain freight stamp.id
  intro hok
  rcases s.create_cases (.promotion (.build stage freight stamp)) with
    ⟨e, -, hcreate⟩ | ⟨hnone, -, -⟩
  · rw [hcreate] at hok
    cases hok
  · have hgood := (refusal?_eq_none.1 hnone).2.1
    have hgood : Subdomain.isSubdomain
      (Promotion.build stage freight stamp).metadata.name = true := hgood
    rw [hbad] at hgood
    cases hgood

end Store

/-! ## Questions to a store on its own -/

/-- The promotions of a cascade have different identities when their stamps have. -/
theorem Service.pairwise_promotionsOf {σ : Type} {s : Service σ} {stages : List Stage}
    {freight : String} {n : Nat}
    (hids : ∀ i j, i < j → j < stages.length → (s.stamps (n + i)).id ≠ (s.stamps (n + j)).id) :
    (s.promotionsOf stages freight n).Pairwise fun p q => p.identity ≠ q.identity := by
  rw [Service.promotionsOf, List.pairwise_map, List.pairwise_iff_getElem]
  intro i j hi hj hij heq
  rw [List.length_zipIdx] at hi hj
  rw [List.getElem_zipIdx, List.getElem_zipIdx] at heq
  exact Promotion.nameFor_ne _ _ _ _ (hids i j hij hj)
    (congrArg (fun id : Identity => id.key.name) heq)

theorem Move.flaw?_eq_none {m : Move} :
    m.flaw? = none ↔ m.project ≠ "" ∧ m.stage ≠ "" ∧ m.freight ≠ "" := by
  unfold Move.flaw?
  simp only [String.isEmpty_iff]
  by_cases hp : m.project = ""
  · simp [hp]
  · by_cases hs : m.stage = ""
    · simp [hp, hs]
    · by_cases hf : m.freight = ""
      · simp [hp, hs, hf]
      · simp [hp, hs, hf]

namespace Store

variable {validates : Bool} {stamps : Nat → Promotion.Stamp} {sink : Sink} {config : Config}
  {context : Context} {m : Move} {w w' : World Store}

/-- A store answers all questions of the common part of both operations as it should. -/
structure Eligible (validates : Bool) (s : Store) (m : Move) (candidates : Stage → List String)
    (stage : Stage) : Prop where
  complete : m.flaw? = none
  accepted : (response validates (.validate m.project) s).1 = .ok (.ok ())
  found : s.getStage ⟨m.project, m.stage⟩ = .ok (some stage)
  qualified : ∃ freight,
    s.getQualifiedFreight ⟨m.project, m.freight⟩ (candidates stage) = .ok (some freight)

/-- The common part ends well only if the store's answers are as they should be. -/
theorem eligible_of_ok {candidates : Stage → List String} {stage : Stage}
    (h : (service validates stamps sink config).Eligible context m candidates (.ok stage) w w')
    (hstarts : (service validates stamps sink config).Starts context w) :
    w.state.Eligible validates m candidates stage ∧ w'.state = w.state ∧ w.Still w' := by
  cases h with
  | @eligible _ freight _ u v _ hflaw h₁ h₂ h₃ =>
      obtain ⟨ha₁, hs₁, hstill₁⟩ := asked_cases h₁ hstarts
      obtain ⟨ha₂, hs₂, hstill₂⟩ := asked_cases h₂ (hstill₁.starts hstarts)
      obtain ⟨ha₃, hs₃, hstill₃⟩ :=
        asked_cases h₃ ((hstill₁.trans hstill₂).starts hstarts)
      have hu : u.state = w.state := hs₁
      have hv : v.state = w.state := hs₂.trans hu
      rw [hu] at ha₂
      rw [hv] at ha₃
      exact ⟨⟨hflaw, ha₁.symm, ha₂.symm, freight, ha₃.symm⟩, hs₃.trans hv,
        (hstill₁.trans hstill₂).trans hstill₃⟩

/-- The common part ends well if the store's answers are as they should be. -/
theorem Eligible.ok {candidates : Stage → List String} {stage : Stage}
    {a : Except PromotionError Stage} (hs : w.state.Eligible validates m candidates stage)
    (h : (service validates stamps sink config).Eligible context m candidates a w w')
    (hstarts : (service validates stamps sink config).Starts context w) :
    a = .ok stage := by
  obtain ⟨freight, hfreight⟩ := hs.qualified
  -- Each question is answered as it should be, and leaves the store and the time alone.
  have ask₁ {x u} (h : (service validates stamps sink config).Asked context
      (.validate m.project) x w u) :
      x = .ok (.ok ()) ∧ u.state = w.state ∧ w.Still u := by
    obtain ⟨hx, hu, hstill⟩ := asked_cases h hstarts
    exact ⟨hx.trans hs.accepted, hu, hstill⟩
  have ask₂ {x u v} (hu : u.state = w.state ∧ w.Still u)
      (h : (service validates stamps sink config).Asked context
        (.stage ⟨m.project, m.stage⟩) x u v) :
      x = .ok (some stage) ∧ v.state = w.state ∧ w.Still v := by
    obtain ⟨hx, hv, hstill⟩ := asked_cases h (hu.2.starts hstarts)
    rw [hu.1] at hx
    exact ⟨hx.trans hs.found, hv.trans hu.1, hu.2.trans hstill⟩
  have ask₃ {x u v} (hu : u.state = w.state ∧ w.Still u)
      (h : (service validates stamps sink config).Asked context
        (.freight ⟨m.project, m.freight⟩ (candidates stage)) x u v) :
      x = .ok (some freight) := by
    obtain ⟨hx, -, -⟩ := asked_cases h (hu.2.starts hstarts)
    rw [hu.1] at hx
    exact hx.trans hfreight
  cases h with
  | flawed hflaw _ =>
      rw [hs.complete] at hflaw
      cases hflaw
  | notValidated _ h₁ => cases (ask₁ h₁).1
  | refused _ h₁ => cases (ask₁ h₁).1
  | notRead _ h₁ h₂ => cases (ask₂ (ask₁ h₁).2 h₂).1
  | noStage _ h₁ h₂ => cases (ask₂ (ask₁ h₁).2 h₂).1
  | notGated _ h₁ h₂ h₃ =>
      obtain ⟨hstage, hv⟩ := ask₂ (ask₁ h₁).2 h₂
      cases hstage
      cases ask₃ hv h₃
  | noFreight _ h₁ h₂ h₃ =>
      obtain ⟨hstage, hv⟩ := ask₂ (ask₁ h₁).2 h₂
      cases hstage
      cases ask₃ hv h₃
  | eligible _ h₁ h₂ _ =>
      obtain ⟨hstage, -⟩ := ask₂ (ask₁ h₁).2 h₂
      cases hstage
      rfl

/-- Promoting a stage for which the store answers as it should is creating its promotion. -/
theorem promoteStage_eq (stamps : Nat → Promotion.Stamp) (sink : Sink) {stage : Stage}
    (hs : w.state.Eligible validates m promotionCandidates stage)
    (hstarts : (service validates stamps sink config).Starts context w) :
    ∃ w', (promoteStage m).run.run (service validates stamps sink config) context w =
        (((w.state.create (.promotion (.build stage m.freight (stamps w.built)))).1.map fun _ =>
          .build stage m.freight (stamps w.built)).mapError .internal, w') ∧
      w'.state = (w.state.create (.promotion (.build stage m.freight (stamps w.built)))).2 := by
  obtain ⟨a, w', hrun, hpromotes⟩ :=
    (service validates stamps sink config).promoteStage_cases context m w
  rw [hrun]
  have hcreate {stage' o v} (h : (service validates stamps sink config).Eligible context m
        promotionCandidates (.ok stage') w v)
      (hasked : (service validates stamps sink config).Asked context
        (.create (.build stage' m.freight (stamps v.built))) o
        { v with built := v.built + 1 } w') :
      stage' = stage ∧ v.built = w.built ∧
        o = (w.state.create (.promotion (.build stage m.freight (stamps w.built)))).1 ∧
        w'.state = (w.state.create (.promotion (.build stage m.freight (stamps w.built)))).2 := by
    obtain rfl := Except.ok.inj (hs.ok h hstarts)
    obtain ⟨-, hv, hstill⟩ := eligible_of_ok h hstarts
    obtain ⟨ho, hw', -⟩ := asked_cases hasked (hstill.starts hstarts)
    rw [hstill.built] at ho hw'
    rw [hv] at ho hw'
    exact ⟨rfl, hstill.built, ho, hw'⟩
  cases hpromotes with
  | rejected h => cases hs.ok h hstarts
  | failed h hasked =>
      obtain ⟨rfl, hbuilt, ho, hw'⟩ := hcreate h hasked
      exact ⟨w', by rw [← ho]; rfl, hw'⟩
  | created h hasked =>
      obtain ⟨rfl, hbuilt, ho, hw'⟩ := hcreate h hasked
      refine ⟨w', ?_, hw'⟩
      rw [← ho, ← hbuilt]
      rfl

/-- What is known when a cascade gets past the resolution of its subscribers. -/
theorem resolved_of_ok {subscribers : List Stage}
    (h : (resolution .scan m).run.run (service validates stamps sink config) context w =
      (.ok subscribers, w'))
    (hstarts : (service validates stamps sink config).Starts context w) :
    ∃ stage listing, w.state.Eligible validates m cascadeCandidates stage ∧
      w.state.listStages stage.project = .ok listing ∧
      subscribers = subscribersOf listing stage.name ∧ w'.state = w.state ∧ w.Still w' := by
  obtain ⟨a, v, hrun, hresolves⟩ :=
    (service validates stamps sink config).resolution_cases context .scan m w
  rw [hrun] at h
  cases h
  cases hresolves with
  | @resolved stage listing _ x _ heligible hasked _ =>
      obtain ⟨hs, hx, hstill⟩ := eligible_of_ok heligible hstarts
      obtain ⟨ha, hv, hstill'⟩ := asked_cases hasked (hstill.starts hstarts)
      rw [hx] at ha
      exact ⟨stage, listing, hs, ha.symm, rfl, hv.trans hx, hstill.trans hstill'⟩

/-- A store that lets a stage cascade lets each of its subscribers be promoted on its own. -/
theorem Eligible.subscriber {s : Store} {stage : Stage} {listing : List Stage}
    (hs : s.Eligible validates m cascadeCandidates stage) (hsound : s.Sound)
    (hlisting : s.listStages stage.project = .ok listing) {b : Stage}
    (hb : b ∈ subscribersOf listing stage.name) (hname : b.name ≠ "") :
    s.Eligible validates ⟨m.project, b.name, m.freight⟩ promotionCandidates b := by
  obtain ⟨freight, hfreight⟩ := hs.qualified
  obtain ⟨hlisted, hsubscribes⟩ := List.mem_filter.1 hb
  have hkey := hsound.stages (getStage_eq_some hs.found)
  have hproject : stage.project = m.project := congrArg Key.project hkey
  have hget := (hsound.mem_listStages hlisting).1 hlisted
  rw [hproject] at hget
  obtain ⟨hup, -⟩ := up_of_map_ensureAvailable hlisting
  refine ⟨?_, hs.accepted, ?_, freight, ?_⟩
  · obtain ⟨hp, -, hf⟩ := Move.flaw?_eq_none.1 hs.complete
    exact Move.flaw?_eq_none.2 ⟨hp, hname, hf⟩
  · unfold getStage
    rw [ensureAvailable_of_up hup]
    exact congrArg Except.ok hget
  · -- The stage for which the freight is qualified is one of the subscriber's sources.
    obtain ⟨-, hstored, hq⟩ := getQualifiedFreight_iff.1 hfreight
    exact getQualifiedFreight_iff.2 ⟨hup, hstored, Freight.MayLeave.mayEnter hq hsubscribes⟩

/-! ## Both operations side by side -/

/-- Promoting one stage, from a world in which nothing else is done, with one stamp. -/
def alone (validates : Bool) (sink : Sink) (config : Config) (context : Context) (w : World Store)
    (m : Move) (stamp : Promotion.Stamp) : Except PromotionError Promotion × World Store :=
  (promoteStage m).run.run (service validates (fun _ => stamp) sink config) context w

/-- The outcomes of a cascade over some subscribers, and the world after it, are those of promoting
each subscriber alone. -/
structure Independent (validates : Bool) (stamps : Nat → Promotion.Stamp) (sink : Sink)
    (config : Config) (context : Context) (m : Move) (subscribers : List Stage) (w : World Store)
    (outcomes : List (Promotion × WriteOutcome)) (w' : World Store) : Prop where
  promotion_each : outcomes.map Prod.fst =
    (service validates stamps sink config).promotionsOf subscribers m.freight w.built
  /-- A subscriber with a name has the outcome that it has alone with the same identifier, whatever
  the time is in the stamp: the same promotion is created but for that time, or the failure that is
  recorded is the one that the single promotion ends with. -/
  same : ∀ (i : Nat) (b : Stage), subscribers[i]? = some b → b.name ≠ "" →
    ∃ (p : Promotion) (o : WriteOutcome), outcomes[i]? = some (p, o) ∧ ∀ t : Timestamp,
      match o with
      | .ok () => (alone validates sink config context w ⟨m.project, b.name, m.freight⟩
          ⟨(stamps (w.built + i)).id, t⟩).1 =
          .ok { p with metadata := { p.metadata with created := some t } }
      | .error e => (alone validates sink config context w ⟨m.project, b.name, m.freight⟩
          ⟨(stamps (w.built + i)).id, t⟩).1 = .error (.internal e)
  /-- Whatever the cascade creates would be accepted alone. -/
  accepted : ∀ p ∈ (Collector.ofOutcomes outcomes).finish.promotions,
    ∃ (i : Nat) (b : Stage), subscribers[i]? = some b ∧ b.name ≠ "" ∧
      (alone validates sink config context w ⟨m.project, b.name, m.freight⟩
        (stamps (w.built + i))).1 = .ok p
  /-- What is created in the end was there before, or is added by one of the single promotions. -/
  created : ∀ (id : Identity) (v : Json), w'.state.created.get? id = some v ↔
    w.state.created.get? id = some v ∨
    ∃ (i : Nat) (b : Stage), subscribers[i]? = some b ∧ b.name ≠ "" ∧
      (alone validates sink config context w ⟨m.project, b.name, m.freight⟩
        (stamps (w.built + i))).2.state.created.get? id = some v

/-- Promoting alone a stage for which the store answers as it should is creating its promotion. -/
theorem alone_eq (sink : Sink) {b : Stage}
    (heligible : w.state.Eligible validates ⟨m.project, b.name, m.freight⟩ promotionCandidates b)
    (hstarts : (service validates stamps sink config).Starts context w)
    (stamp : Promotion.Stamp) :
    (alone validates sink config context w ⟨m.project, b.name, m.freight⟩ stamp).1 =
        ((w.state.create (.promotion (.build b m.freight stamp))).1.map fun _ =>
          .build b m.freight stamp).mapError .internal ∧
      (alone validates sink config context w ⟨m.project, b.name, m.freight⟩ stamp).2.state =
        (w.state.create (.promotion (.build b m.freight stamp))).2 := by
  obtain ⟨u, hrun, hu⟩ := promoteStage_eq (fun _ => stamp) sink heligible hstarts
  rw [alone, hrun]
  exact ⟨rfl, hu⟩

/-- The creations of a cascade, one by one, are those of the single promotions. -/
theorem independent_of_createAll {subscribers : List Stage}
    {outcomes : List (Promotion × WriteOutcome)}
    (hstarts : (service validates stamps sink config).Starts context w)
    (heligible : ∀ b ∈ subscribers, b.name ≠ "" →
      w.state.Eligible validates ⟨m.project, b.name, m.freight⟩ promotionCandidates b)
    (hdistinct : ((service validates stamps sink config).promotionsOf subscribers m.freight
      w.built).Pairwise fun p q => p.identity ≠ q.identity)
    (houtcomes : createAll ((service validates stamps sink config).promotionsOf subscribers
      m.freight w.built) w.state = (outcomes, w'.state)) :
    Independent validates stamps sink config context m subscribers w outcomes w' := by
  obtain ⟨heach, hcreated⟩ := createAll_eq w.state hdistinct
  rw [houtcomes] at heach hcreated
  dsimp only at heach hcreated
  have hget (i : Nat) {b : Stage} (hb : subscribers[i]? = some b) :
      outcomes[i]? = some (.build b m.freight (stamps (w.built + i)),
        (w.state.create (.promotion (.build b m.freight (stamps (w.built + i))))).1) := by
    rw [heach, List.getElem?_map, Service.getElem?_promotionsOf, hb]
    rfl
  have hmem {p : Promotion} : p ∈ (service validates stamps sink config).promotionsOf subscribers
      m.freight w.built ↔ ∃ i b, subscribers[i]? = some b ∧
        p = .build b m.freight (stamps (w.built + i)) := Service.mem_promotionsOf
  have halone {i : Nat} {b : Stage} (hb : subscribers[i]? = some b) (hname : b.name ≠ "") :=
    alone_eq sink (heligible b (List.mem_of_getElem? hb) hname) hstarts
  refine ⟨?_, ?_, ?_, ?_⟩
  · rw [heach, List.map_map]
    exact List.map_id _
  · intro i b hb hname
    refine ⟨_, _, hget i hb, fun t => ?_⟩
    obtain ⟨ha, -⟩ := halone hb hname ⟨(stamps (w.built + i)).id, t⟩
    rw [create_restamped w.state b m.freight _ t (stamps (w.built + i)).created] at ha
    have ha : _ = ((w.state.create (.promotion (.build b m.freight
      (stamps (w.built + i))))).1.map fun _ => _).mapError _ := ha
    split
    · rename_i ho
      rw [ha, ho]
      rfl
    · rename_i e ho
      rw [ha, ho]
      rfl
  · intro p hp
    rw [Collector.ofOutcomes_eq] at hp
    have hsuccess : (p, .ok ()) ∈ outcomes := Shared.mem_successes.1 hp
    rw [heach] at hsuccess
    obtain ⟨q, hq, hpq⟩ := List.mem_map.1 hsuccess
    obtain ⟨rfl, hok⟩ := Prod.mk.inj hpq
    obtain ⟨i, b, hb, rfl⟩ := hmem.1 hq
    have hname : b.name ≠ "" := fun h => create_unnamed w.state h m.freight _ hok
    refine ⟨i, b, hb, hname, ?_⟩
    rw [(halone hb hname _).1, hok]
    rfl
  · intro id v
    rw [hcreated]
    constructor
    · rintro (hold | ⟨p, hp, hok, rfl, rfl⟩)
      · exact .inl hold
      · obtain ⟨i, b, hb, rfl⟩ := hmem.1 hp
        have hname : b.name ≠ "" := fun h => create_unnamed w.state h m.freight _ hok
        refine .inr ⟨i, b, hb, hname, ?_⟩
        rw [(halone hb hname _).2, get?_created_create]
        exact .inr ⟨hok, rfl, rfl⟩
    · rintro (hold | ⟨i, b, hb, hname, hget⟩)
      · exact .inl hold
      · rw [(halone hb hname _).2, get?_created_create] at hget
        rcases hget with hold | ⟨hok, hid, hv⟩
        · exact .inl hold
        · exact .inr ⟨_, hmem.2 ⟨i, b, hb, rfl⟩, hok, hid, hv⟩

/-- **A cascade does to every subscriber what promoting it alone would do**, on a store of its own,
under a context that has not ended, and with identifiers that differ. -/
theorem cascade_independent (hstore : w.state.Reachable)
    (hlive : context.check w.tokens w.now = .ok ()) (htimeout : config.callTimeout ≠ some 0)
    {subscribers : List Stage}
    (hresolved : ((resolution .scan m).run.run (service validates stamps sink config)
      context w).1 = .ok subscribers)
    (hids : ∀ i j, i < j → j < subscribers.length →
      (stamps (w.built + i)).id ≠ (stamps (w.built + j)).id) :
    ∃ outcomes w', (promoteSubscribers .scan m).run (service validates stamps sink config)
        context w = ((Collector.ofOutcomes outcomes).finish, w') ∧
      Independent validates stamps sink config context m subscribers w outcomes w' := by
  have hstarts : (service validates stamps sink config).Starts context w :=
    Service.check_callContext hlive htimeout
  rcases hrun : (resolution .scan m).run.run (service validates stamps sink config) context w with
    ⟨a, v⟩
  rw [hrun] at hresolved
  obtain rfl : a = .ok subscribers := hresolved
  obtain ⟨stage, listing, hs, hlisting, rfl, hstate, hstill⟩ := resolved_of_ok hrun hstarts
  -- Every subscriber could be promoted alone, and their promotions have different names.
  have heligible : ∀ b ∈ subscribersOf listing stage.name, b.name ≠ "" →
      w.state.Eligible validates ⟨m.project, b.name, m.freight⟩ promotionCandidates b :=
    fun b hb hname => hs.subscriber hstore.sound hlisting hb hname
  have hdistinct : ((service validates stamps sink config).promotionsOf
      (subscribersOf listing stage.name) m.freight w.built).Pairwise
      fun p q => p.identity ≠ q.identity := Service.pairwise_promotionsOf hids
  obtain ⟨w', hcascade, hw'⟩ := run_cascade_prompt hrun (hstill.starts hstarts)
  rw [hstate, hstill.built] at hcascade hw'
  exact ⟨_, w', hcascade, independent_of_createAll hstarts heligible hdistinct
    (Prod.ext rfl hw'.symm)⟩

/-- A stage that is its own subscriber, one that subscribes to it twice, and one that nothing can be
written for. -/
def branching : World Store where
  state := Store.changed
    [.putStage ((Stage.named "proj" "dev").withSource "dev"),
     .putStage ((Stage.named "proj" "qa").withSources ["dev", "dev"]),
     .putStage ((Stage.named "proj" "uat").withSource "dev"),
     .putFreight ((Freight.named "proj" "f1").qualifiedFor "dev" default),
     .failWritesFor ⟨"proj", "uat"⟩ "quota"] .empty

theorem cascade_independent_branching :
    ∃ outcomes w', (promoteSubscribers .scan ⟨"proj", "dev", "f1"⟩).run
        (service true (fun n => ⟨.ofNat n, default⟩) .discarding {}) ⟨0, none⟩ branching =
        ((Collector.ofOutcomes outcomes).finish, w') ∧
      Independent true (fun n => ⟨.ofNat n, default⟩) .discarding {} ⟨0, none⟩
        ⟨"proj", "dev", "f1"⟩
        [(Stage.named "proj" "dev").withSource "dev",
         (Stage.named "proj" "qa").withSources ["dev", "dev"],
         (Stage.named "proj" "uat").withSource "dev"] branching outcomes w' := by
  have hreachable : branching.state.Reachable := Reachable.empty.changed _
  have hids : ∀ j < 3, ∀ i < j, PromotionId.ofNat (0 + i) ≠ PromotionId.ofNat (0 + j) := by decide
  exact cascade_independent hreachable rfl (by decide) (by decide +kernel)
    fun i j hij hj => hids j hj i hij

end Store

end Delivery
