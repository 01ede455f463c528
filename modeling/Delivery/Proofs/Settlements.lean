import Delivery.Proofs.Deeds
import Delivery.Proofs.FailureIsolation
import Delivery.Proofs.Questions

/-!
# What operations settle

If every request has a fixed answer, there is only one thing that an operation can come to
(`Plan.settle`): a value, the promotions that it tries to create on the way, and the stamps that it
uses up. For the two operations this is written out (`settle_promoteStage`,
`settle_promoteSubscribers`). They try to create a promotion with each stamp that they use
(`Deed.minted`), and nothing else that they report depends on the times in their stamps
(`Deed.settle_restamped`).
-/

namespace Delivery

variable {σ α β : Type}

/-- A fixed answer to every request. -/
abbrev Answers := (r : Request) → Except StoreError r.Answer

/-- What an operation comes to: its value, the promotions that it tries to create, and the number of
the stamp that is next after it. -/
structure Settlement (α : Type) where
  value : α
  tries : List Promotion
  built : Nat

/-- With other promotions tried before. -/
def Settlement.after (t : Settlement α) (ps : List Promotion) : Settlement α :=
  { t with tries := ps ++ t.tries }

theorem Settlement.after_nil (t : Settlement α) : t.after [] = t := rfl

theorem Settlement.after_after (t : Settlement α) (ps qs : List Promotion) :
    (t.after qs).after ps = t.after (ps ++ qs) := by
  rw [after, after, after, List.append_assoc]

/-- What a plan comes to from some number of stamps on. -/
def Plan.settle (answer : Answers) (stamps : Nat → Promotion.Stamp) :
    Plan α → Nat → Settlement α
  | done a, n => ⟨a, [], n⟩
  | note _ next, n => next.settle answer stamps n
  | call r next, n => ((next (answer r)).settle answer stamps n).after r.created
  | build stage freight next, n =>
    (next (.build stage freight (stamps n))).settle answer stamps (n + 1)
  | writes ps next, n =>
    ((next (ps.map fun p => (p, answer (.create p)))).settle answer stamps n).after ps

variable (answer : Answers) (stamps : Nat → Promotion.Stamp)

theorem Plan.settle_bind (p : Plan α) (f : α → Plan β) (n : Nat) :
    (p.bind f).settle answer stamps n =
      ((f (p.settle answer stamps n).value).settle answer stamps
        (p.settle answer stamps n).built).after (p.settle answer stamps n).tries := by
  induction p generalizing n with
  | done a => exact (Settlement.after_nil _).symm
  | note m next ih => exact ih n
  | call r next ih =>
      show Settlement.after (((next (answer r)).bind f).settle answer stamps n) r.created = _
      rw [ih, Settlement.after_after]
      rfl
  | build stage freight next ih => exact ih _ (n + 1)
  | writes ps next ih =>
      show Settlement.after (((next (ps.map fun p => (p, answer (.create p)))).bind f).settle
        answer stamps n) ps = _
      rw [ih, Settlement.after_after]
      rfl

/-- Asking tries nothing and uses up no stamp, and what it comes to does not depend on stamps. -/
theorem Plan.Inquires.settle {p : Plan α} (hp : p.Inquires) :
    ∃ a, ∀ stamps n, p.settle answer stamps n = ⟨a, [], n⟩ := by
  induction p with
  | done a => exact ⟨a, fun _ _ => rfl⟩
  | note m next ih => exact ih hp.2
  | call r next ih =>
      obtain ⟨a, ha⟩ := ih (answer r) (hp.2 _)
      refine ⟨a, fun stamps n => ?_⟩
      rw [Plan.settle, ha, Request.created_eq_nil hp.1]
      rfl
  | build stage freight next => cases hp
  | writes ps next => cases hp

theorem Operation.settle_bind (x : Operation α) (f : α → Operation β) (n : Nat) :
    (x >>= f).run.settle answer stamps n =
      (match (x.run.settle answer stamps n).value with
        | .ok a => (f a).run.settle answer stamps (x.run.settle answer stamps n).built
        | .error e => ⟨.error e, [], (x.run.settle answer stamps n).built⟩).after
        (x.run.settle answer stamps n).tries := by
  rw [ExceptT.run_bind, Plan.bind_def, Plan.settle_bind]
  cases (x.run.settle answer stamps n).value <;> rfl

/-- Making something of the value makes nothing else. -/
theorem Plan.settle_map (p : Plan α) (f : α → β) (n : Nat) :
    (p.bind fun a => .done (f a)).settle answer stamps n =
      ⟨f (p.settle answer stamps n).value, (p.settle answer stamps n).tries,
        (p.settle answer stamps n).built⟩ := by
  rw [Plan.settle_bind]
  show Settlement.mk _ (_ ++ []) _ = _
  rw [List.append_nil]
  rfl

theorem Operation.settle_step (p : Plan α) (n : Nat) :
    (step p).run.settle answer stamps n =
      ⟨.ok (p.settle answer stamps n).value, (p.settle answer stamps n).tries,
        (p.settle answer stamps n).built⟩ :=
  p.settle_map answer stamps (Except.ok : α → Except PromotionError α) n

/-! ## The two operations -/

open Operation in
/-- Promoting a stage comes to the error that is found, or tries to create one promotion of the
stage that is. -/
theorem settle_promoteStage (m : Move) : ∃ found,
    (∀ stamps n, (eligibleStage m promotionCandidates).run.settle answer stamps n =
      ⟨found, [], n⟩) ∧
    ∀ stamps n, (promoteStage m).run.settle answer stamps n =
      match found with
      | .error e => ⟨.error e, [], n⟩
      | .ok stage =>
        ⟨((answer (.create (.build stage m.freight (stamps n)))).map fun _ =>
          .build stage m.freight (stamps n)).mapError .internal,
          [.build stage m.freight (stamps n)], n + 1⟩ := by
  obtain ⟨found, hfound⟩ := (inquires_eligibleStage m promotionCandidates).settle answer
  refine ⟨found, hfound, fun stamps n => ?_⟩
  unfold promoteStage
  rw [settle_bind, settle_step]
  show Settlement.after (((eligibleStage m promotionCandidates) >>= _).run.settle
    answer stamps n) [] = _
  rw [settle_bind, hfound]
  cases found with
  | error e => rfl
  | ok stage =>
      dsimp only
      rcases hcreate : answer (.create (.build stage m.freight (stamps n))) with e | ⟨⟩
      · simp only [settle_bind, settle_step, Plan.promotion, Plan.ask, Plan.settle, hcreate]
        rfl
      · simp only [settle_bind, settle_step, Plan.promotion, Plan.ask, Plan.settle, hcreate]
        rfl

theorem settle_promotions (s : Service σ) (stages : List Stage) (freight : String) (n : Nat) :
    (Plan.promotions stages freight).settle answer s.stamps n =
      ⟨s.promotionsOf stages freight n, [], n + stages.length⟩ := by
  induction stages generalizing n with
  | nil => rfl
  | cons stage rest ih =>
      rw [Plan.promotions, Plan.settle, Plan.settle_bind, ih]
      show Settlement.mk _ _ _ = Settlement.mk _ _ _
      rw [List.length_cons, Nat.add_right_comm, Nat.add_assoc]
      rfl

theorem settle_reportOutcomes (m : Move) (outcomes : List (Promotion × WriteOutcome)) (n : Nat) :
    (reportOutcomes m outcomes).settle answer stamps n = ⟨(), [], n⟩ := by
  induction outcomes with
  | nil => rfl
  | cons o rest ih =>
      obtain ⟨p, e | ⟨⟩⟩ := o
      · exact ih
      · exact ih

theorem settle_reportCascade (m : Move) (total failed : Nat) (r : CascadeResult) (n : Nat) :
    (reportCascade m total failed r).settle answer stamps n = ⟨(), [], n⟩ := rfl

theorem settle_cascadeTo (s : Service σ) (m : Move) (subscribers : List Stage) (n : Nat) :
    (cascadeTo m subscribers).settle answer s.stamps n =
      ⟨(Collector.ofOutcomes ((s.promotionsOf subscribers m.freight n).map fun p =>
        (p, answer (.create p)))).finish,
        s.promotionsOf subscribers m.freight n, n + subscribers.length⟩ := by
  simp only [cascadeTo, Plan.bind_def, Plan.settle_bind, settle_promotions, Plan.settle,
    settle_reportOutcomes, settle_reportCascade, Plan.pure_def, Settlement.after,
    List.nil_append, List.append_nil]

open Operation in
/-- Promoting subscribers comes to the error that is found, or tries to create a promotion of each
subscriber that is. -/
theorem settle_promoteSubscribers (resolver : Resolver) (m : Move) : ∃ found,
    (∀ stamps n, (resolution resolver m).run.settle answer stamps n = ⟨found, [], n⟩) ∧
    ∀ (s : Service Store) n, (promoteSubscribers resolver m).settle answer s.stamps n =
      match found with
      | .error e => ⟨.rejected e, [], n⟩
      | .ok subscribers =>
        ⟨(Collector.ofOutcomes ((s.promotionsOf subscribers m.freight n).map fun p =>
          (p, answer (.create p)))).finish,
          s.promotionsOf subscribers m.freight n, n + subscribers.length⟩ := by
  obtain ⟨found, hfound⟩ := (inquires_resolution resolver m).settle answer
  refine ⟨found, hfound, fun s n => ?_⟩
  rw [promoteSubscribers, Plan.bind_def, Plan.settle_bind, cascade_eq, settle_bind, hfound]
  cases found with
  | error e => rfl
  | ok subscribers =>
      dsimp only
      rw [settle_step, settle_cascadeTo]
      show Settlement.mk _ (_ ++ []) _ = _
      rw [List.append_nil]
      rfl

/-- Every promotion that is tried has a stamp of its own, and no stamp is left out. -/
theorem Deed.minted (d : Deed) (resolver : Resolver) (s : Service Store) (n : Nat) :
    Minted s.stamps n ((d.plan resolver).settle answer s.stamps n).tries
      ((d.plan resolver).settle answer s.stamps n).built := by
  cases d with
  | stage m =>
      obtain ⟨e | stage, -, hsettle⟩ := settle_promoteStage answer m
      · rw [Deed.plan, Plan.settle_map, hsettle]
        exact .nil n
      · rw [Deed.plan, Plan.settle_map, hsettle]
        exact .mint stage m.freight (.nil _)
  | subscribers m =>
      obtain ⟨e | subscribers, -, hsettle⟩ := settle_promoteSubscribers answer resolver m
      · rw [Deed.plan, Plan.settle_map, hsettle]
        exact .nil n
      · rw [Deed.plan, Plan.settle_map, hsettle]
        exact s.minted_promotionsOf subscribers m.freight n

/-! ## Times -/

/-- Without the time at which it was stamped. -/
def Promotion.untimed (p : Promotion) : Promotion :=
  { p with metadata := { p.metadata with created := none } }

/-- Without the times at which promotions were stamped. -/
def Report.untimed : Report → Report
  | promoted answer => .promoted (answer.map Promotion.untimed)
  | cascaded r => .cascaded { r with promotions := r.promotions.map Promotion.untimed }

/-- A promotion is the same but for the time, if the identifier is the same. -/
theorem Promotion.untimed_build (stage : Stage) (freight : String) {stamp stamp' : Stamp}
    (h : stamp.id = stamp'.id) :
    (build stage freight stamp).untimed = (build stage freight stamp').untimed := by
  unfold build untimed
  rw [h]

/-- Outcomes without times are collected alike. -/
theorem Collector.ofOutcomes_untimed (outcomes : List (Promotion × WriteOutcome)) :
    ofOutcomes (outcomes.map fun o => (o.1.untimed, o.2)) =
      ⟨(ofOutcomes outcomes).created.map Promotion.untimed, (ofOutcomes outcomes).failures⟩ := by
  have hcreated : ((outcomes.map fun o => (o.1.untimed, o.2)).filter fun o => o.2.isOk).map
      Prod.fst = ((outcomes.filter fun o => o.2.isOk).map Prod.fst).map Promotion.untimed := by
    rw [List.filter_map, List.map_map, List.map_map]
    rfl
  have hfailures : (outcomes.map fun o => (o.1.untimed, o.2)).filterMap WriteFailure.of? =
      outcomes.filterMap WriteFailure.of? := by
    rw [List.filterMap_map]
    apply List.filterMap_congr
    rintro ⟨p, e | ⟨⟩⟩ _ <;> rfl
  rw [ofOutcomes_eq, ofOutcomes_eq, hcreated, hfailures]

/-- What a cascade reports of some outcomes, without times. -/
theorem Collector.untimed_finish (outcomes : List (Promotion × WriteOutcome)) :
    Report.untimed (.cascaded (ofOutcomes outcomes).finish) =
      .cascaded (ofOutcomes (outcomes.map fun o => (o.1.untimed, o.2))).finish := by
  rw [ofOutcomes_untimed]
  rfl

/-- The answers to creations do not depend on times. -/
def Answers.Timeless (answer : Answers) : Prop :=
  ∀ p q : Promotion, p.untimed = q.untimed → answer (.create p) = answer (.create q)

/-- What one write reports depends on the time of its promotion only in that time. -/
theorem Report.untimed_promoted {p q : Promotion} (h : p.untimed = q.untimed) (o : WriteOutcome) :
    untimed (.promoted ((o.map fun _ => p).mapError .internal)) =
      untimed (.promoted ((o.map fun _ => q).mapError .internal)) := by
  cases o with
  | error e => rfl
  | ok u => exact congrArg (fun p => promoted (.ok p)) h

/-- Promotions with the same identifiers differ in their times only. -/
theorem Service.untimed_promotionsOf (s s' : Service Store) (stages : List Stage)
    (freight : String) (n : Nat)
    (hids : ∀ k, n ≤ k → k < n + stages.length → (s'.stamps k).id = (s.stamps k).id) :
    (s'.promotionsOf stages freight n).map Promotion.untimed =
      (s.promotionsOf stages freight n).map Promotion.untimed := by
  apply List.ext_getElem?
  intro i
  rw [List.getElem?_map, List.getElem?_map, getElem?_promotionsOf, getElem?_promotionsOf]
  cases hstage : stages[i]? with
  | none => simp only [Option.map_none]
  | some stage =>
      obtain ⟨hi, -⟩ := List.getElem?_eq_some_iff.1 hstage
      have hid := hids (n + i) (Nat.le_add_right n i) (Nat.add_lt_add_left hi n)
      simp only [Option.map_some, Promotion.untimed_build stage freight hid]

/-- **Only the times in what is reported depend on times**, if the identifiers are the same. -/
theorem Deed.settle_restamped {answer : Answers} (htimeless : answer.Timeless) (d : Deed)
    (resolver : Resolver) (s s' : Service Store) (n : Nat)
    (hids : ∀ k, n ≤ k → k < ((d.plan resolver).settle answer s.stamps n).built →
      (s'.stamps k).id = (s.stamps k).id) :
    ((d.plan resolver).settle answer s'.stamps n).value.untimed =
        ((d.plan resolver).settle answer s.stamps n).value.untimed ∧
      ((d.plan resolver).settle answer s'.stamps n).tries.map Promotion.untimed =
        ((d.plan resolver).settle answer s.stamps n).tries.map Promotion.untimed := by
  cases d with
  | stage m =>
      simp only [Deed.plan, Plan.settle_map] at hids ⊢
      obtain ⟨e | stage, -, hsettle⟩ := settle_promoteStage answer m
      · simp only [hsettle, and_self]
      · simp only [hsettle, List.map_cons, List.map_nil] at hids ⊢
        have hsame := Promotion.untimed_build stage m.freight
          (hids n (Nat.le_refl n) (Nat.lt_succ_self n))
        rw [htimeless _ _ hsame, hsame]
        exact ⟨Report.untimed_promoted hsame _, rfl⟩
  | subscribers m =>
      simp only [Deed.plan, Plan.settle_map] at hids ⊢
      obtain ⟨e | subscribers, -, hsettle⟩ := settle_promoteSubscribers answer resolver m
      · simp only [hsettle, and_self]
      · simp only [hsettle] at hids ⊢
        have hsame := s.untimed_promotionsOf s' subscribers m.freight n hids
        refine ⟨?_, hsame⟩
        -- Without its time, a promotion still has the answer that it has with it.
        have hanswers : ((fun o : Promotion × WriteOutcome => (o.1.untimed, o.2)) ∘
            fun p => (p, answer (.create p))) =
            (fun p => (p, answer (.create p))) ∘ Promotion.untimed := by
          funext p
          exact congrArg (Prod.mk p.untimed) (htimeless p p.untimed rfl)
        rw [Collector.untimed_finish, Collector.untimed_finish, List.map_map, List.map_map,
          hanswers, ← List.map_map, ← List.map_map, hsame]

end Delivery
