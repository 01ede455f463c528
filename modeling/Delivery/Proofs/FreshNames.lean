import Mathlib.Data.List.Nodup
import Mathlib.Data.List.Pairwise
import Delivery.Proofs.Names
import Delivery.Proofs.StoreEffects

/-!
# Names that are never taken

A service that stamps its promotions with identifiers which it never repeats never finds a name
taken, in a store where everything was created by it. The stamps are handed out in order, whatever
becomes of the promotions, so what was created so far is minted with some of the stamps up to now
(`Minted`), and the store has that and nothing else (`Shared.Served`). A write that finds its name
taken finds a promotion with an earlier stamp, or one of the same cascade with another stamp
(`Shared.Batch.unclashed`); both have other names.
-/

namespace Delivery

/-- The failure to create something because its name is taken. -/
def StoreError.isClash : StoreError → Bool
  | alreadyExists .. => true
  | _ => false

theorem StoreError.EndsRequest.isClash {e : StoreError} (h : e.EndsRequest) : e.isClash = false := by
  cases e <;> first | rfl | cases h

/-- The failures of calls that an error tells of. -/
def PromotionError.failures : PromotionError → List StoreError
  | internal e => [e]
  | partialFailure fs => fs.map WriteFailure.error
  | _ => []

/-- What an operation reports to its caller. -/
inductive Report where
  | promoted (answer : Except PromotionError Promotion)
  | cascaded (result : CascadeResult)

namespace Report

/-- The promotions that are reported as created. -/
def created : Report → List Promotion
  | promoted answer => answer.toOption.toList
  | cascaded result => result.promotions

def error? : Report → Option PromotionError
  | promoted (.error e) => some e
  | promoted (.ok _) => none
  | cascaded result => result.error

/-- The failures of calls that are reported. -/
def failures (r : Report) : List StoreError := r.error?.toList.flatMap PromotionError.failures

theorem failures_cascaded (c : Collector) :
    (cascaded c.finish).failures = c.failures.map WriteFailure.error := by
  obtain ⟨created, fs⟩ := c
  cases fs with
  | nil => rfl
  | cons f fs => exact List.append_nil _

end Report

/-! ## Minting -/

/-- Promotions that were built one after another with some of the stamps from one number up to
another. -/
inductive Minted (stamps : Nat → Promotion.Stamp) : Nat → List Promotion → Nat → Prop
  | nil (n : Nat) : Minted stamps n [] n
  | skip {n k ps} : Minted stamps (n + 1) ps k → Minted stamps n ps k
  | mint {n k ps} (stage : Stage) (freight : String) : Minted stamps (n + 1) ps k →
      Minted stamps n (.build stage freight (stamps n) :: ps) k

namespace Minted

variable {stamps : Nat → Promotion.Stamp} {l n k : Nat} {ps qs : List Promotion}

theorem le (h : Minted stamps n ps k) : n ≤ k := by
  induction h with
  | nil => exact Nat.le_refl _
  | skip _ ih => exact Nat.le_of_succ_le ih
  | mint _ _ _ ih => exact Nat.le_of_succ_le ih

theorem append (h : Minted stamps l ps n) (h' : Minted stamps n qs k) :
    Minted stamps l (ps ++ qs) k := by
  induction h with
  | nil => exact h'
  | skip _ ih => exact .skip (ih h')
  | mint stage freight _ ih => exact .mint stage freight (ih h')

theorem exists_stamp (h : Minted stamps n ps k) {p : Promotion} (hp : p ∈ ps) :
    ∃ i stage freight, n ≤ i ∧ i < k ∧ p = .build stage freight (stamps i) := by
  induction h with
  | nil => cases hp
  | skip _ ih =>
      obtain ⟨i, stage, freight, hle, hlt, rfl⟩ := ih hp
      exact ⟨i, stage, freight, Nat.le_of_succ_le hle, hlt, rfl⟩
  | mint stage freight hrest ih =>
      rcases List.mem_cons.1 hp with rfl | hp
      · exact ⟨_, stage, freight, Nat.le_refl _, hrest.le, rfl⟩
      · obtain ⟨i, stage, freight, hle, hlt, rfl⟩ := ih hp
        exact ⟨i, stage, freight, Nat.le_of_succ_le hle, hlt, rfl⟩

/-- The stamps of those that are left out are handed out all the same. -/
theorem sublist (h : Minted stamps n ps k) (hsub : qs.Sublist ps) : Minted stamps n qs k := by
  induction h generalizing qs with
  | nil n =>
      obtain rfl := List.sublist_nil.1 hsub
      exact .nil n
  | skip _ ih => exact .skip (ih hsub)
  | mint stage freight _ ih =>
      cases hsub with
      | cons _ hsub => exact .skip (ih hsub)
      | cons_cons _ hsub => exact .mint stage freight (ih hsub)

end Minted

/-- From one number up to another no identifier is stamped twice. -/
def NeverRepeats (stamps : Nat → Promotion.Stamp) (n k : Nat) : Prop :=
  ∀ i j, n ≤ i → i < j → j < k → (stamps i).id ≠ (stamps j).id

theorem Promotion.name_build_ne {stage stage' : Stage} {freight freight' : String}
    {stamp stamp' : Stamp} (h : stamp.id ≠ stamp'.id) :
    (build stage freight stamp).name ≠ (build stage' freight' stamp').name :=
  nameFor_ne _ _ _ _ h

theorem Promotion.name_eq_of_identity {p q : Promotion} (h : p.identity = q.identity) :
    p.name = q.name := congrArg (fun id : Identity => id.key.name) h

/-- What is minted with different identifiers has different names. -/
theorem Minted.pairwise_name {stamps : Nat → Promotion.Stamp} {n k : Nat} {ps : List Promotion}
    (h : Minted stamps n ps k) (hids : NeverRepeats stamps n k) :
    ps.Pairwise fun p q => p.name ≠ q.name := by
  induction h with
  | nil => exact .nil
  | skip _ ih => exact ih fun i j hi => hids i j (Nat.le_of_succ_le hi)
  | mint stage freight hrest ih =>
      refine List.pairwise_cons.2 ⟨?_, ih fun i j hi => hids i j (Nat.le_of_succ_le hi)⟩
      intro q hq
      obtain ⟨i, stage', freight', hle, hlt, rfl⟩ := hrest.exists_stamp hq
      exact Promotion.name_build_ne (hids _ i (Nat.le_refl _) hle hlt)

/-- The promotions of a cascade take their stamps in order. -/
theorem Service.minted_promotionsOf {σ : Type} (s : Service σ) (stages : List Stage)
    (freight : String) (n : Nat) :
    Minted s.stamps n (s.promotionsOf stages freight n) (n + stages.length) := by
  induction stages generalizing n with
  | nil => exact .nil n
  | cons stage rest ih =>
      have hlen : n + (stage :: rest).length = n + 1 + rest.length := by
        rw [List.length_cons]
        omega
      rw [Service.promotionsOf, List.zipIdx_cons, List.map_cons, hlen]
      exact .mint stage freight (ih (n + 1))

/-! ## Taken names -/

namespace Store

/-- A name is taken only by something that is stored. -/
theorem stored_of_clash {s : Store} {r : Resource} {e : StoreError}
    (h : (s.create r).1 = .error e) (he : e.isClash = true) :
    (s.created.get? r.identity).isSome = true := by
  cases hget : s.created.get? r.identity with
  | some v => rfl
  | none =>
      exfalso
      have hrefusal : s.refusal? r = some e := by
        rcases s.create_cases r with ⟨e', he', hcreate⟩ | ⟨-, -, hcreate⟩
        · rw [hcreate] at h
          cases h
          exact he'
        · rw [hcreate] at h
          cases h
      unfold refusal? ensureAvailable at hrefusal
      have hfree : s.created.contains r.identity = false := by
        rw [Table.contains, hget]
        rfl
      have hinjected : ∀ x ∈ s.injected? r, x.isClash = false := by
        intro x hx
        cases r with
        | promotion p =>
            obtain ⟨message, -, rfl⟩ := Option.map_eq_some_iff.1 hx
            rfl
        | stage | freight => cases hx
      grind [StoreError.isClash]

/-- What is stored stays when something else is created. -/
theorem stored_create {s : Store} (r : Resource) {id : Identity}
    (h : (s.created.get? id).isSome = true) :
    ((s.create r).2.created.get? id).isSome = true := by
  obtain ⟨v, hv⟩ := Option.isSome_iff_exists.1 h
  rw [get?_created_create.2 (.inl hv)]
  rfl

/-- Reading from a store never finds a name taken. -/
theorem isClash_of_reply {s : Store} {r : Request} {e : StoreError} (hr : ∀ p, r ≠ .create p)
    (h : (s.reply r).1 = .error e) : e.isClash = false := by
  have hdown {α : Type} {f : Unit → α} (h : s.ensureAvailable.map f = .error e) :
      e.isClash = false := by
    unfold ensureAvailable at h
    by_cases hs : s.unavailable = true
    · rw [if_pos hs] at h
      cases h
      rfl
    · rw [if_neg hs] at h
      cases h
  cases r with
  | create p => exact absurd rfl (hr p)
  | validate | subscribers => cases h
  | stage | stages | freight => exact hdown h

theorem failures_of_validateProject {s : Store} {project : String} {e : PromotionError}
    (h : s.validateProject project = .error e) : ∀ x ∈ e.failures, x.isClash = false := by
  unfold validateProject ensureAvailable at h
  grind [PromotionError.failures, StoreError.isClash]

end Store

/-- The failures of calls that an answer tells of. -/
def Request.failures (r : Request) (a : Except StoreError r.Answer) : List StoreError :=
  match r, a with
  | .validate _, .ok (.error e) => e.failures
  | _, .error e => [e]
  | _, .ok _ => []

namespace Shared

variable {validates : Bool} {index : Option (Shared → Stage → List Stage)}
  {stamps : Nat → Promotion.Stamp} {sink : Sink} {config : Config} {context : Context} {m : Move}
  {w w' : World Shared}

/-- No question finds a name taken. -/
theorem isClash_of_asked {r : Request} {a : Except StoreError r.Answer}
    (h : (service validates index stamps sink config).Asked context r a w w')
    (hr : ∀ p, r ≠ .create p) : ∀ e ∈ r.failures a, e.isClash = false := by
  have hended {e : StoreError} (he : e.EndsRequest) :
      ∀ x ∈ r.failures (.error e), x.isClash = false := by
    intro x hx
    have hx : x ∈ [e] := by cases r <;> exact hx
    obtain rfl := List.mem_singleton.1 hx
    exact he.isClash
  obtain ⟨v, v', -, hcall, -⟩ := h
  rcases Service.call_cases (service validates index stamps sink config) context r v with
    ⟨e, he, h⟩ | ⟨w₁, -, ⟨e, he, h, -⟩ | ⟨h, -⟩⟩
  · rw [hcall] at h
    cases h
    exact hended he.endsRequest
  · rw [hcall] at h
    cases h
    exact hended he.endsRequest
  · rw [hcall] at h
    obtain rfl := congrArg Prod.fst h
    show ∀ x ∈ r.failures (((service validates index stamps sink config).serve r v.state).1.reply
      ((service validates index stamps sink config).serve r v.state).2).1, x.isClash = false
    generalize ((service validates index stamps sink config).serve r v.state).2 = state
    rcases serve_cases validates index stamps sink config r v.state state with
      ⟨-, hreply⟩ | ⟨hown, -, -⟩
    · -- The store answers.
      rw [hreply]
      dsimp only
      generalize hstore : ((state.store.changed v.state.next.changes).reply r).1 = a
      intro x hx
      cases r with
      | create p => exact absurd rfl (hr p)
      | validate project =>
          rcases a with e | e | ⟨⟩
          · cases hstore
          · exact Store.failures_of_validateProject (Except.ok.inj hstore) x hx
          · cases hx
      | stage | stages | freight | subscribers =>
          rcases a with e | a
          · obtain rfl := List.mem_singleton.1 hx
            exact Store.isClash_of_reply hr hstore
          · cases hx
    · -- The service answers itself, and does not fail.
      intro x hx
      cases r with
      | validate project =>
          cases validates with
          | true => cases hown
          | false => cases hx
      | subscribers stage => cases hx
      | stage | stages | freight | create => cases hown

theorem isClash_of_eligible {candidates : Stage → List String} {e : PromotionError}
    (h : (service validates index stamps sink config).Eligible context m candidates (.error e)
      w w') : ∀ x ∈ e.failures, x.isClash = false := by
  cases h with
  | flawed hflaw =>
      unfold Move.flaw? at hflaw
      grind [PromotionError.failures]
  | notValidated _ h₁ => exact isClash_of_asked h₁ (by simp)
  | refused _ h₁ => exact isClash_of_asked h₁ (by simp)
  | notRead _ _ h₂ => exact isClash_of_asked h₂ (by simp)
  | noStage => exact fun x hx => absurd hx List.not_mem_nil
  | notGated _ _ _ h₃ => exact isClash_of_asked h₃ (by simp)
  | noFreight => exact fun x hx => absurd hx List.not_mem_nil

theorem isClash_of_resolves {resolver : Resolver} {e : PromotionError}
    (h : (service validates index stamps sink config).Resolves context m resolver (.error e)
      w w') : ∀ x ∈ e.failures, x.isClash = false := by
  cases h with
  | rejected h => exact isClash_of_eligible h
  | unanswered _ hasked =>
      intro x hx
      refine isClash_of_asked hasked (by cases resolver <;> simp [Resolver.request]) x ?_
      cases resolver <;> exact hx
  | noSubscribers => exact fun x hx => absurd hx List.not_mem_nil

/-- A write that finds its name taken leaves it so. -/
theorem stored_of_asked {p : Promotion} {e : StoreError}
    (h : (service validates index stamps sink config).Asked context (.create p) (.error e) w w')
    (he : e.isClash = true) : (w'.state.store.created.get? p.identity).isSome = true := by
  have hexchange := exchange_of_asked h
  generalize w.state = s at hexchange
  generalize w'.state = s' at hexchange
  generalize ho : (Except.error e : Except StoreError (Request.create p).Answer) = o at hexchange
  cases hexchange with
  | refused hends =>
      cases ho
      rw [hends.isClash] at he
      cases he
  | ended hends =>
      cases ho
      rw [hends.isClash] at he
      cases he
  | answered => exact Store.stored_create _ (Store.stored_of_clash ho.symm he)
  | own hown => cases hown

theorem stored_of_write {promotions : List Promotion} {outcomes : List (Promotion × WriteOutcome)}
    (hwrite : (service validates index stamps sink config).write context promotions w =
      (outcomes, w')) {p : Promotion} {e : StoreError} (hmem : (p, .error e) ∈ outcomes)
    (he : e.isClash = true) : (w'.state.store.created.get? p.identity).isSome = true := by
  let J : List (Promotion × WriteOutcome) → Shared → Prop := fun L s =>
    ∀ p e, (p, .error e) ∈ L → e.isClash = true →
      (s.store.created.get? p.identity).isSome = true
  obtain ⟨L, hperm, h⟩ : ∃ L,
      L.Perm ((service validates index stamps sink config).write context promotions w).1 ∧
      J L ((service validates index stamps sink config).write context promotions w).2.state := by
    refine Service.exists_landings _ context ?_ ?_ ?_ promotions (by rintro p e h; cases h)
    · intro L state p h
      exact h
    · intro L state p e hends h q e' hq he'
      rcases List.mem_append.1 hq with hq | hq
      · exact h q e' hq he'
      · obtain ⟨-, heq⟩ := Prod.mk.inj (List.mem_singleton.1 hq)
        cases heq
        rw [hends.isClash] at he'
        cases he'
    · intro L₀ L before state p _ h q e' hq he'
      have hreply : ((service validates index stamps sink config).creator p before).1.reply state =
          (((state.store.changed before.next.changes).reply (.create p)).1,
            state.answered (.create p) before.next.changes) :=
        congrFun (Call.reply_foldr_before _ _) state
      rw [hreply] at hq ⊢
      rcases List.mem_append.1 hq with hq | hq
      · have hold := h q e' hq he'
        rw [← Store.created_changed before.next.changes] at hold
        exact Store.stored_create _ hold
      · obtain ⟨rfl, heq⟩ := Prod.mk.inj (List.mem_singleton.1 hq)
        exact Store.stored_create _ (Store.stored_of_clash heq.symm he')
  rw [hwrite] at hperm h
  exact h p e (hperm.mem_iff.2 hmem) he

end Shared

/-! ## One operation -/

namespace Shared

variable {validates : Bool} {index : Option (Shared → Stage → List Stage)}
  {stamps : Nat → Promotion.Stamp} {sink : Sink} {config : Config} {context : Context} {m : Move}
  {v w : World Shared}

/-- What an operation did between two worlds: it has built promotions, one for each of some stages,
and written them with some outcomes, of which it reports. -/
structure Batch (s : Service Shared) (stages : List Stage) (freight : String)
    (L : List (Promotion × WriteOutcome)) (report : Report) (v w : World Shared) : Prop where
  built : w.built = v.built + stages.length
  promotions : L.map Prod.fst = s.promotionsOf stages freight v.built
  written : Written (fun _ => True) v.state L w.state
  clash : ∀ p e, (p, .error e) ∈ L → e.isClash = true →
    (w.state.store.created.get? p.identity).isSome = true
  created : report.created = successes L
  failures : ∀ e ∈ report.failures, e.isClash = true → ∃ p, (p, .error e) ∈ L

/-- Nothing was built, and nothing that is reported is a taken name. -/
theorem Batch.rejected {s : Service Shared} {report : Report} (freight : String)
    (hbuilt : w.built = v.built) (hwritten : Written (fun _ => True) v.state [] w.state)
    (hcreated : report.created = []) (hfailures : ∀ e ∈ report.failures, e.isClash = false) :
    Batch s [] freight [] report v w where
  built := hbuilt
  promotions := rfl
  written := hwritten
  clash p e h := absurd h List.not_mem_nil
  created := hcreated
  failures e he hclash := by
    rw [hfailures e he] at hclash
    cases hclash

theorem promoteStage_batch (m : Move) (context : Context) (v : World Shared) :
    ∃ stages L, Batch (service validates index stamps sink config) stages m.freight L
      (.promoted ((promoteStage m).run.run (service validates index stamps sink config)
        context v).1) v
      ((promoteStage m).run.run (service validates index stamps sink config) context v).2 := by
  obtain ⟨a, w, hrun, hpromotes⟩ :=
    (service validates index stamps sink config).promoteStage_cases context m v
  rw [hrun]
  cases hpromotes with
  | @rejected e _ _ h =>
      refine ⟨[], [], .rejected _ h.built (written_of_eligible h (allows_any _)) rfl ?_⟩
      intro x hx
      rw [Report.failures, Report.error?, Option.toList_some, List.flatMap_singleton] at hx
      exact isClash_of_eligible h x hx
  | @failed stage e _ u _ h hasked =>
      have hwritten := (written_of_eligible h (allows_any _)).trans
        ((exchange_of_asked hasked).written_create (allows_any _))
      refine ⟨[stage], _, ?_, ?_, hwritten, ?_, rfl, ?_⟩
      · rw [hasked.built, ← h.built]
        rfl
      · rw [← h.built]
        rfl
      · intro p e' hmem he'
        obtain ⟨rfl, heq⟩ := Prod.mk.inj (List.mem_singleton.1 hmem)
        cases heq
        exact stored_of_asked hasked he'
      · intro e' he' _
        have he' : e' ∈ [e] := he'
        obtain rfl := List.mem_singleton.1 he'
        exact ⟨_, List.mem_singleton_self _⟩
  | @created stage _ u _ h hasked =>
      have hwritten := (written_of_eligible h (allows_any _)).trans
        ((exchange_of_asked hasked).written_create (allows_any _))
      refine ⟨[stage], _, ?_, ?_, hwritten, ?_, rfl, ?_⟩
      · rw [hasked.built, ← h.built]
        rfl
      · rw [← h.built]
        rfl
      · intro p e hmem
        cases (Prod.mk.inj (List.mem_singleton.1 hmem)).2
      · exact fun e he => absurd he List.not_mem_nil

theorem promoteSubscribers_batch (resolver : Resolver) (m : Move) (context : Context)
    (v : World Shared) :
    ∃ stages L, Batch (service validates index stamps sink config) stages m.freight L
      (.cascaded ((promoteSubscribers resolver m).run
        (service validates index stamps sink config) context v).1) v
      ((promoteSubscribers resolver m).run (service validates index stamps sink config)
        context v).2 := by
  obtain ⟨r, w, hrun, hcascades⟩ := (service validates index stamps sink
    config).promoteSubscribers_cases context resolver m v
  rw [hrun]
  cases hcascades with
  | @rejected e _ h =>
      refine ⟨[], [], .rejected _ h.built (written_of_resolves h (allows_any _)) rfl ?_⟩
      intro x hx
      rw [Report.failures, Report.error?, CascadeResult.rejected, Option.toList_some,
        List.flatMap_singleton] at hx
      exact isClash_of_resolves h x hx
  | @cascaded subscribers outcomes u u' _ h hwrite hnoted =>
      have hu := written_of_resolves h (allows_any _)
      have hwritten := written_of_write hwrite (allows_any _)
      refine ⟨subscribers, outcomes, ?_, ?_, ?_, ?_, ?_, ?_⟩
      · rw [(Service.accounted_of_write hwrite hnoted).built, h.built]
      · rw [Service.map_fst_of_write hwrite, h.built]
      · rw [hnoted.state_eq]
        exact hu.trans hwritten
      · intro p e hmem he
        rw [hnoted.state_eq]
        exact stored_of_write hwrite hmem he
      · rw [Collector.ofOutcomes_eq]
        rfl
      · intro e he _
        rw [Report.failures_cascaded, Collector.ofOutcomes_eq] at he
        obtain ⟨f, hf, rfl⟩ := List.mem_map.1 he
        obtain ⟨⟨p, o⟩, hmem, hof⟩ := List.mem_filterMap.1 hf
        rcases o with e | ⟨⟩
        · cases hof
          exact ⟨p, hmem⟩
        · cases hof

theorem Batch.minted {s : Service Shared} {stages : List Stage} {freight : String}
    {L : List (Promotion × WriteOutcome)} {report : Report}
    (h : Batch s stages freight L report v w) :
    Minted s.stamps v.built (L.map Prod.fst) w.built := by
  rw [h.promotions, h.built]
  exact s.minted_promotionsOf stages freight v.built

/-- The store has the promotions that were reported as created, and nothing else. -/
structure Served (stamps : Nat → Promotion.Stamp) (n : Nat) (created : List Promotion)
    (w : World Shared) : Prop where
  minted : Minted stamps n created w.built
  stored : ∀ id v, w.state.store.created.get? id = some v ↔
    ∃ p ∈ created, id = p.identity ∧ v = p.toJson

/-- Two promotions of one operation, or of two, have different names. -/
theorem Batch.name_ne {s : Service Shared} {stages : List Stage} {freight : String}
    {L : List (Promotion × WriteOutcome)} {report : Report} {n : Nat} {created : List Promotion}
    (h : Batch s stages freight L report v w) (hv : Served s.stamps n created v)
    (hids : NeverRepeats s.stamps n w.built) :
    (created ++ L.map Prod.fst).Pairwise fun p q => p.name ≠ q.name :=
  (hv.minted.append h.minted).pairwise_name hids

/-- **Nothing that is reported is a taken name**, when no stamp is repeated. -/
theorem Batch.unclashed {s : Service Shared} {stages : List Stage} {freight : String}
    {L : List (Promotion × WriteOutcome)} {report : Report} {n : Nat} {created : List Promotion}
    (h : Batch s stages freight L report v w) (hv : Served s.stamps n created v)
    (hids : NeverRepeats s.stamps n w.built) : ∀ e ∈ report.failures, e.isClash = false := by
  intro e he
  refine Bool.eq_false_iff.2 fun hclash => ?_
  obtain ⟨p, hp⟩ := h.failures e he hclash
  obtain ⟨x, hx⟩ := Option.isSome_iff_exists.1 (h.clash p e hp hclash)
  obtain ⟨hbefore, hwithin, hacross⟩ := List.pairwise_append.1 (h.name_ne hv hids)
  rcases (h.written.created _ x).1 hx with hold | ⟨q, hq, hid, -⟩
  · -- Something from before has the name.
    obtain ⟨q, hq, hid, -⟩ := (hv.stored _ x).1 hold
    exact hacross q hq p (List.mem_map.2 ⟨_, hp, rfl⟩) (Promotion.name_eq_of_identity hid.symm)
  · -- Another promotion of this operation has it.
    have hne : (p, (.error e : WriteOutcome)) ≠ (q, .ok ()) := by
      intro heq
      cases (Prod.mk.inj heq).2
    have hsymm : Std.Symm fun a b : Promotion × WriteOutcome => a.1.name ≠ b.1.name :=
      ⟨fun _ _ hne => Ne.symm hne⟩
    exact (List.pairwise_map.1 hwithin).forall hp hq hne (Promotion.name_eq_of_identity hid)

theorem Batch.served {s : Service Shared} {stages : List Stage} {freight : String}
    {L : List (Promotion × WriteOutcome)} {report : Report} {n : Nat} {created : List Promotion}
    (h : Batch s stages freight L report v w) (hv : Served s.stamps n created v) :
    Served s.stamps n (created ++ report.created) w where
  minted := by
    rw [h.created]
    exact hv.minted.append (h.minted.sublist (List.filter_sublist.map _))
  stored id x := by
    rw [h.written.created, hv.stored, h.created]
    constructor
    · rintro (⟨p, hp, hid⟩ | ⟨p, hp, hid⟩)
      · exact ⟨p, List.mem_append_left _ hp, hid⟩
      · exact ⟨p, List.mem_append_right _ (mem_successes.2 hp), hid⟩
    · rintro ⟨p, hp, hid⟩
      rcases List.mem_append.1 hp with hp | hp
      · exact .inl ⟨p, hp, hid⟩
      · exact .inr ⟨p, mem_successes.1 hp, hid⟩

/-! ## Runs -/

/-- Operations of a service one after another, with what they report. Between two of them others
may change the store, and anything else may happen but that stamps are handed out. -/
inductive Serves (s : Service Shared) : World Shared → List Report → World Shared → Prop
  | nil (w : World Shared) : Serves s w [] w
  | meanwhile {u v w : World Shared} {log} (cs : List Store.Change) : Serves s u log v →
      w.state.store = v.state.store.changed cs → w.built = v.built → Serves s u log w
  | stage {u v : World Shared} {log} (m : Move) (context : Context) : Serves s u log v →
      Serves s u (log ++ [.promoted ((promoteStage m).run.run s context v).1])
        ((promoteStage m).run.run s context v).2
  | subscribers {u v : World Shared} {log} (m : Move) (context : Context) : Serves s u log v →
      Serves s u (log ++ [.cascaded ((promoteSubscribers s.resolver m).run s context v).1])
        ((promoteSubscribers s.resolver m).run s context v).2

variable {u : World Shared} {log : List Report}

/-- One more operation. -/
theorem Batch.next {s : Service Shared} {stages : List Stage} {freight : String}
    {L : List (Promotion × WriteOutcome)} {report : Report} {n : Nat}
    (h : Batch s stages freight L report v w)
    (hv : Served s.stamps n (log.flatMap Report.created) v) :
    Served s.stamps n ((log ++ [report]).flatMap Report.created) w := by
  rw [List.flatMap_append, List.flatMap_singleton]
  exact h.served hv

/-- At all times the store has what was reported as created. -/
theorem Serves.served (h : Serves (service validates index stamps sink config) u log w)
    (hu : u.state.store.created = .empty) :
    Served stamps u.built (log.flatMap Report.created) w := by
  induction h with
  | nil =>
      refine ⟨.nil _, fun id v => ?_⟩
      rw [hu]
      simp
  | meanwhile cs _ hstore hbuilt ih =>
      refine ⟨?_, fun id v => ?_⟩
      · rw [hbuilt]
        exact ih.minted
      · rw [hstore, Store.created_changed]
        exact ih.stored id v
  | @stage v log m context _ ih =>
      obtain ⟨stages, L, hbatch⟩ := promoteStage_batch m context v
      exact hbatch.next ih
  | @subscribers v log m context _ ih =>
      obtain ⟨stages, L, hbatch⟩ := promoteSubscribers_batch _ m context v
      exact hbatch.next ih

/-- No operation of a run reports a taken name. -/
theorem Serves.unclashed (h : Serves (service validates index stamps sink config) u log w)
    (hu : u.state.store.created = .empty) (hids : NeverRepeats stamps u.built w.built) :
    ∀ r ∈ log, ∀ e ∈ r.failures, e.isClash = false := by
  have operation {v w : World Shared} {stages freight L report} {log : List Report}
      (hrun : Serves (service validates index stamps sink config) u log v)
      (hbatch : Batch (service validates index stamps sink config) stages freight L report v w)
      (hids : NeverRepeats stamps u.built w.built)
      (ih : NeverRepeats stamps u.built v.built → ∀ r ∈ log, ∀ e ∈ r.failures, e.isClash = false) :
      ∀ r ∈ log ++ [report], ∀ e ∈ r.failures, e.isClash = false := by
    intro r hr
    rcases List.mem_append.1 hr with hr | hr
    · have hle : v.built ≤ w.built := hbatch.minted.le
      exact ih (fun i j hi hij hj => hids i j hi hij (Nat.lt_of_lt_of_le hj hle)) r hr
    · obtain rfl := List.mem_singleton.1 hr
      exact hbatch.unclashed (hrun.served hu) hids
  induction h with
  | nil => exact fun r hr => absurd hr List.not_mem_nil
  | meanwhile cs _ _ hbuilt ih =>
      rw [hbuilt] at hids
      exact ih hids
  | @stage v log m context hrun ih =>
      obtain ⟨stages, L, hbatch⟩ := promoteStage_batch m context v
      exact operation hrun hbatch hids ih
  | @subscribers v log m context hrun ih =>
      obtain ⟨stages, L, hbatch⟩ := promoteSubscribers_batch _ m context v
      exact operation hrun hbatch hids ih

/-- **Names are never taken.** In a run of operations over a store in which nothing was created
before, and with stamps whose identifiers are not repeated, no write fails because its name is
taken, all names of stored promotions are different, whatever stages, freights and projects they
are of, and the store has one promotion for every write that was reported as created. -/
theorem names_never_taken {validates : Bool} {index : Option (Shared → Stage → List Stage)}
    {stamps : Nat → Promotion.Stamp} {sink : Sink} {config : Config} {u w : World Shared}
    {log : List Report} (h : Serves (service validates index stamps sink config) u log w)
    (hu : u.state.store.created = .empty)
    (hids : ∀ i j, u.built ≤ i → i < j → j < w.built → (stamps i).id ≠ (stamps j).id) :
    (∀ r ∈ log, ∀ e ∈ r.failures, e.isClash = false) ∧
    (w.state.store.created.toList.map fun entry => entry.1.key.name).Nodup ∧
    w.state.store.created.toList.Perm
      ((log.flatMap Report.created).map fun p => (p.identity, p.toJson)) ∧
    w.state.store.created.toList.length = (log.map fun r => r.created.length).sum := by
  have hserved := h.served hu
  have hnames : ((log.flatMap Report.created).map Promotion.name).Nodup :=
    List.pairwise_map.2 (hserved.minted.pairwise_name hids)
  have hperm : w.state.store.created.toList.Perm
      ((log.flatMap Report.created).map fun p => (p.identity, p.toJson)) := by
    refine (List.perm_ext_iff_of_nodup (Table.nodup_toList _) ?_).2 ?_
    · refine List.Nodup.of_map (fun entry => entry.1.key.name) ?_
      rw [List.map_map]
      exact hnames
    · rintro ⟨id, x⟩
      rw [Table.mem_toList_iff, hserved.stored, List.mem_map]
      simp only [Prod.mk.injEq]
      constructor
      · rintro ⟨p, hp, rfl, rfl⟩
        exact ⟨p, hp, rfl, rfl⟩
      · rintro ⟨p, hp, rfl, rfl⟩
        exact ⟨p, hp, rfl, rfl⟩
  refine ⟨h.unclashed hu hids, ?_, hperm, ?_⟩
  · rw [(hperm.map fun entry => entry.1.key.name).nodup_iff, List.map_map]
    exact hnames
  · rw [hperm.length_eq, List.length_map, List.length_flatMap]

/-- A store in which one stage may be promoted onto one freight. -/
def repeating : World Shared where
  state :=
    { store := Store.changed
        [.putStage (.named "proj" "QA.0"),
         .putFreight ((Freight.named "proj" "f.1").qualifiedFor "QA.0" default)] .empty }

theorem names_never_taken_repeating :
    let s := service true none (fun n => ⟨.ofNat n, default⟩) .discarding {}
    ∃ a b w, Serves s repeating [.promoted a, .promoted b] w ∧ w.built = 2 ∧
      (∀ r ∈ [Report.promoted a, .promoted b], ∀ e ∈ r.failures, e.isClash = false) ∧
      (w.state.store.created.toList.map fun entry => entry.1.key.name).Nodup ∧
      w.state.store.created.toList.length = 2 := by
  intro s
  let first := (promoteStage ⟨"proj", "QA.0", "f.1"⟩).run.run s ⟨0, none⟩ repeating
  let second := (promoteStage ⟨"proj", "QA.0", "f.1"⟩).run.run s ⟨0, none⟩ first.2
  have hrun : Serves s repeating [.promoted first.1, .promoted second.1] second.2 :=
    .stage _ _ (.stage _ _ (.nil repeating))
  have hbuilt : second.2.built = 2 := by decide +kernel
  have hids : ∀ i j, repeating.built ≤ i → i < j → j < second.2.built →
      PromotionId.ofNat i ≠ PromotionId.ofNat j := by
    rw [hbuilt]
    intro i j _ hij hj
    obtain rfl : j = 1 := by omega
    obtain rfl : i = 0 := by omega
    decide
  have hcreated : ([Report.promoted first.1, .promoted second.1].map
      fun r => r.created.length).sum = 2 := by
    decide +kernel
  obtain ⟨hclash, hnames, -, hcount⟩ := names_never_taken hrun rfl hids
  exact ⟨_, _, _, hrun, hbuilt, hclash, hnames, hcount.trans hcreated⟩

end Shared

end Delivery
