import Delivery.Proofs.Settlements
import Delivery.Proofs.SideBySide

/-!
# Runs at different times

An operation that is carried out twice, with the same identifiers for its promotions but at other
times, can show the times in three places: in the promotions that it reports, in the calls that
create them, and in what was created. `World.Mirrored` allows for the last two. If every answer is
the same both times, both operations come to reports that are the same but for times
(`Deed.related_plan`).
-/

namespace Delivery

variable {σ α β : Type}

/-! ## Promotions at other times -/

/-- Without the time in the promotion that is to be created. -/
def Request.untimed : Request → Request
  | create p => create p.untimed
  | r => r

/-- Without the time in the promotion that was to be created. -/
def CallRecord.untimed (c : CallRecord) : CallRecord := { c with request := c.request.untimed }

theorem CallRecord.untimed_eq_self {c : CallRecord} (hc : ∀ p, c.request ≠ .create p) :
    c.untimed = c := by
  obtain ⟨request, at_, remaining, running⟩ := c
  cases request with
  | create p => exact absurd rfl (hc p)
  | _ => rfl

/-- The same promotion, which may have been stamped at another time. -/
def Promotion.Restamped (p p' : Promotion) : Prop := p'.untimed = p.untimed

theorem Promotion.Restamped.untimed_eq {p p' : Promotion} (h : p.Restamped p') :
    p'.untimed = p.untimed := h

theorem Promotion.Restamped.identity_eq {p p' : Promotion} (h : p.Restamped p') :
    p'.identity = p.identity := by
  show p'.untimed.identity = p.untimed.identity
  rw [h.untimed_eq]

theorem Report.created_untimed (r : Report) :
    r.untimed.created = r.created.map Promotion.untimed := by
  rcases r with (e | p) | r
  · rfl
  · rfl
  · rfl

/-- The second of two worlds differs from the first in times that are recorded of the calls, and in
the state, where the two are related. -/
def World.Mirrored (R : σ → σ → Prop) (w w' : World σ) : Prop :=
  ∃ calls state, w' = { w with calls, state } ∧
    calls.map CallRecord.untimed = w.calls.map CallRecord.untimed ∧ R w.state state

section Mirrored

variable {R : σ → σ → Prop} {s s' : Service σ}

theorem Service.sameNotes_mirrored (hconfig : s'.config = s.config) :
    s.SameNotes (World.Mirrored R) s' := by
  refine Service.sameNotes_of hconfig ?_
  rintro w _ ⟨calls, state, rfl, hcalls, hstate⟩
  exact ⟨rfl, fun lines sink => ⟨_, _, rfl, hcalls, hstate⟩⟩

/-- Requests that differ in times only are answered alike if they are in related states. -/
theorem Plan.related_ask_mirrored (hconfig : s'.config = s.config) {r r' : Request}
    (hr : r'.untimed = r.untimed) (hdelegates : s'.delegates r' = s.delegates r)
    {V : r.Answer → r'.Answer → Prop}
    (hserve : ∀ x x', R x x' → ∃ reply reply', s.serve r x = (.answer reply, x) ∧
      s'.serve r' x' = (.answer reply', x') ∧ Matched V (reply x).1 (reply' x').1 ∧
      R (reply x).2 (reply' x').2) :
    (Plan.ask r).Related (World.Mirrored R) s s' (Matched V) (Plan.ask r') := by
  refine related_ask hconfig ?_ ?_
  · rintro w _ ⟨calls, state, rfl, -⟩
    exact ⟨rfl, rfl⟩
  · rintro context w _ ⟨calls, state, rfl, hcalls, hstate⟩
    obtain ⟨reply, reply', hreply, hreply', hanswer, hafter⟩ := hserve _ _ hstate
    refine ⟨reply, reply', hreply, hreply', hanswer, _, _, rfl, ?_, hafter⟩
    unfold Service.recordsOf
    rw [hdelegates, List.map_append, List.map_append, hcalls]
    split
    · simp only [List.map_singleton, CallRecord.untimed, hr]
    · rfl

/-- Promotions that are built with the same identifiers differ in their times only. -/
theorem Plan.Related.build (hids : ∀ n, (s'.stamps n).id = (s.stamps n).id) (stage : Stage)
    (freight : String) {V : α → β → Prop} {next : Promotion → Plan α} {next' : Promotion → Plan β}
    (h : ∀ p p', p.Restamped p' →
      (next p).Related (World.Mirrored R) s s' V (next' p')) :
    (Plan.build stage freight next).Related (World.Mirrored R) s s' V
      (Plan.build stage freight next') := by
  rintro context w _ ⟨calls, state, rfl, hcalls, hstate⟩
  have hmirrored : World.Mirrored R { w with built := w.built + 1 }
      { w with calls, state, built := w.built + 1 } := ⟨calls, state, rfl, hcalls, hstate⟩
  exact h _ _ (Promotion.untimed_build stage freight (hids w.built)) context _ _ hmirrored

theorem Plan.related_promotions (hids : ∀ n, (s'.stamps n).id = (s.stamps n).id)
    (stages : List Stage) (freight : String) :
    (Plan.promotions stages freight).Related (World.Mirrored R) s s'
      (List.Forall₂ Promotion.Restamped) (Plan.promotions stages freight) := by
  induction stages with
  | nil => exact related_done .nil
  | cons stage rest ih =>
      refine .build hids stage freight fun p p' hp => ?_
      exact ih.bind fun ps ps' hps => related_done (.cons hp hps)

end Mirrored

/-! ## Reports -/

section Reports

variable {p p' : Promotion} {outcomes outcomes' : List (Promotion × WriteOutcome)}

theorem reportCreated_restamped (h : p.Restamped p') : reportCreated p' = reportCreated p := by
  show reportCreated p'.untimed = reportCreated p.untimed
  rw [h.untimed_eq]

theorem reportFailed_restamped (h : p.Restamped p') (e : StoreError) :
    reportFailed p' e = reportFailed p e := by
  show reportFailed p'.untimed e = reportFailed p.untimed e
  rw [h.untimed_eq]

theorem reportOutcome_restamped (m : Move) (h : p.Restamped p') (o : WriteOutcome) :
    reportOutcome m p' o = reportOutcome m p o := by
  have hreport : reportOutcome m p'.untimed o = reportOutcome m p.untimed o := by
    rw [h.untimed_eq]
  cases o <;> exact hreport

/-- The same outcomes, of promotions that may have been stamped at other times. -/
def SameOutcomes (outcomes outcomes' : List (Promotion × WriteOutcome)) : Prop :=
  List.Forall₂ (fun o o' => o.1.Restamped o'.1 ∧ o'.2 = o.2) outcomes outcomes'

theorem SameOutcomes.reportOutcomes (h : SameOutcomes outcomes outcomes') (m : Move) :
    reportOutcomes m outcomes' = reportOutcomes m outcomes := by
  induction h with
  | nil => rfl
  | @cons o o' rest rest' ho _ ih =>
      obtain ⟨p, outcome⟩ := o
      obtain ⟨p', outcome'⟩ := o'
      obtain ⟨hp, rfl⟩ : p.Restamped p' ∧ outcome' = outcome := ho
      rw [Delivery.reportOutcomes, Delivery.reportOutcomes, reportOutcome_restamped m hp, ih]

theorem SameOutcomes.map_untimed (h : SameOutcomes outcomes outcomes') :
    outcomes'.map (fun o => (o.1.untimed, o.2)) = outcomes.map fun o => (o.1.untimed, o.2) := by
  induction h with
  | nil => rfl
  | @cons o o' rest rest' ho _ ih =>
      obtain ⟨hp, houtcome⟩ := ho
      rw [List.map_cons, List.map_cons, ih, houtcome, hp.untimed_eq]

theorem SameOutcomes.collector (h : SameOutcomes outcomes outcomes') :
    (Collector.ofOutcomes outcomes').created.map Promotion.untimed =
        (Collector.ofOutcomes outcomes).created.map Promotion.untimed ∧
      (Collector.ofOutcomes outcomes').failures = (Collector.ofOutcomes outcomes).failures := by
  have hsame := congrArg Collector.ofOutcomes h.map_untimed
  rw [Collector.ofOutcomes_untimed, Collector.ofOutcomes_untimed] at hsame
  exact Collector.mk.inj hsame

theorem SameOutcomes.reportCascade (h : SameOutcomes outcomes outcomes') (m : Move) (total : Nat) :
    reportCascade m total (Collector.ofOutcomes outcomes').failed
        (Collector.ofOutcomes outcomes').finish =
      reportCascade m total (Collector.ofOutcomes outcomes).failed
        (Collector.ofOutcomes outcomes).finish := by
  obtain ⟨hcreated, hfailures⟩ := h.collector
  have hfailed : (Collector.ofOutcomes outcomes').failed =
      (Collector.ofOutcomes outcomes).failed := congrArg List.length hfailures
  have hlength : (Collector.ofOutcomes outcomes').finish.promotions.length =
      (Collector.ofOutcomes outcomes).finish.promotions.length := by
    have hlength := congrArg List.length hcreated
    rw [List.length_map, List.length_map] at hlength
    exact hlength
  have hstatus : (Collector.ofOutcomes outcomes').finish.status =
      (Collector.ofOutcomes outcomes).finish.status := by
    have hnil : (Collector.ofOutcomes outcomes').created = [] ↔
        (Collector.ofOutcomes outcomes).created = [] := by
      rw [← List.length_eq_zero_iff, ← List.length_eq_zero_iff]
      exact Eq.congr_left hlength
    simp only [Collector.status_finish, hfailures, hnil]
  unfold Delivery.reportCascade
  rw [hfailed, hlength, hstatus]

theorem SameOutcomes.untimed (h : SameOutcomes outcomes outcomes') :
    Report.untimed (.cascaded (Collector.ofOutcomes outcomes').finish) =
      Report.untimed (.cascaded (Collector.ofOutcomes outcomes).finish) := by
  rw [Collector.untimed_finish, Collector.untimed_finish, h.map_untimed]

end Reports

/-! ## Operations -/

/-- The stages for one of which the freight has to be qualified. -/
def Deed.candidates : Deed → Stage → List String
  | stage _ => promotionCandidates
  | subscribers _ => cascadeCandidates

section Operations

variable {R : σ → σ → Prop} {s s' : Service σ} {m : Move}
  (hconfig : s'.config = s.config) (hids : ∀ n, (s'.stamps n).id = (s.stamps n).id)
  (hcreate : ∀ p p', p.Restamped p' →
    (Plan.ask (.create p)).Related (World.Mirrored R) s s' (fun o o' => o' = o)
      (Plan.ask (.create p')))
include hconfig hids hcreate

open Operation in
theorem related_promoteStage {P : Stage → Prop}
    (heligible : (eligibleStage m promotionCandidates).Related (World.Mirrored R) s s'
      (fun a b => b = a ∧ P a) (eligibleStage m promotionCandidates)) :
    (promoteStage m).Related (World.Mirrored R) s s' Promotion.Restamped (promoteStage m) := by
  have hn : s.SameNotes (World.Mirrored R) s' := Service.sameNotes_mirrored hconfig
  have hnote (n : Note) : (step (Plan.note n (.done ()))).Related (World.Mirrored R) s s'
      (fun _ _ => True) (step (Plan.note n (.done ()))) :=
    related_step ((Plan.related_done trivial).note hn n)
  unfold promoteStage
  refine (related_log hn _ _ _).bind fun _ _ _ => heligible.bind ?_
  rintro _ stage ⟨rfl, -⟩
  refine (related_step (Plan.Related.build hids stage m.freight fun p p' hp =>
    Plan.related_done hp)).bind ?_
  intro p p' hp
  have hname : p'.name = p.name := congrArg (fun id : Identity => id.key.name) hp.identity_eq
  refine (related_step (hcreate p p' hp)).bind ?_
  rintro _ o rfl
  rw [hname, reportCreated_restamped hp]
  rcases o with e | ⟨⟩
  · dsimp only
    rw [reportFailed_restamped hp]
    exact (related_log hn _ _ _).bind fun _ _ _ => (hnote _).bind fun _ _ _ => related_fail _
  · exact (related_log hn _ _ _).bind fun _ _ _ => (hnote _).bind fun _ _ _ => related_pure hp

variable (hprompt : s.Prompt) (hprompt' : s'.Prompt)
include hprompt hprompt'

theorem related_cascadeTo (subscribers : List Stage) :
    (cascadeTo m subscribers).Related (World.Mirrored R) s s'
      (fun r r' => Report.untimed (.cascaded r') = Report.untimed (.cascaded r))
      (cascadeTo m subscribers) := by
  have hn : s.SameNotes (World.Mirrored R) s' := Service.sameNotes_mirrored hconfig
  refine (Plan.related_promotions hids subscribers m.freight).bind fun ps ps' hps => ?_
  refine (Plan.related_writes hprompt hprompt' hcreate hps).bind fun outcomes outcomes' h => ?_
  have h : SameOutcomes outcomes outcomes' := h
  show Plan.Related _ _ _ _ (Plan.bind _ _) (Plan.bind _ _)
  rw [h.reportOutcomes]
  refine (related_reportOutcomes hn m outcomes).bind fun _ _ _ => ?_
  dsimp only
  show Plan.Related _ _ _ _ (Plan.bind _ _) (Plan.bind _ _)
  rw [h.reportCascade]
  exact ((Plan.related_done h.untimed).note hn _).note hn _

/-- **At other times both operations come to the same, but for times**, if the answers to their
questions are the same. -/
theorem Deed.related_plan {resolver : Resolver} {P : Stage → Prop} (d : Deed)
    (heligible : (eligibleStage d.move d.candidates).Related (World.Mirrored R) s s'
      (fun a b => b = a ∧ P a) (eligibleStage d.move d.candidates))
    (hsubscribers : ∀ stage, P stage → (resolver.subscribers stage).Related (World.Mirrored R) s s'
      (Matched fun a b => b = a ∧ True) (resolver.subscribers stage)) :
    (d.plan resolver).Related (World.Mirrored R) s s' (fun r r' => r'.untimed = r.untimed)
      (d.plan resolver) := by
  cases d with
  | stage m =>
      refine Plan.Related.bind (related_promoteStage hconfig hids hcreate heligible) ?_
      rintro _ _ (e | hp)
      · exact Plan.related_done rfl
      · exact Plan.related_done (congrArg (fun p => Report.promoted (.ok p)) hp)
  | subscribers m =>
      have hresolution : (resolution resolver m).Related (World.Mirrored R) s s'
          (fun a b => b = a ∧ True) (resolution resolver m) :=
        related_resolution (Service.sameNotes_mirrored hconfig) m heligible hsubscribers
      have hcascade : (cascade resolver m).Related (World.Mirrored R) s s'
          (fun r r' => Report.untimed (.cascaded r') = Report.untimed (.cascaded r))
          (cascade resolver m) := by
        rw [cascade_eq]
        refine hresolution.bind ?_
        rintro _ subscribers ⟨rfl, -⟩
        exact Operation.related_step
          (related_cascadeTo hconfig hids hcreate hprompt hprompt' subscribers)
      refine Plan.Related.bind ?_ fun r r' h => Plan.related_done h
      refine Plan.Related.bind hcascade ?_
      rintro _ _ (e | h)
      · exact Plan.related_done rfl
      · exact Plan.related_done h

end Operations

end Delivery
