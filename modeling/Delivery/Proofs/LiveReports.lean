import Delivery.Proofs.Operations
import Delivery.Proofs.Recording

/-!
# Reports while others still write

A cascade reports an outcome as soon as it is taken, while later promotions still wait or are being
written. `Window.runReporting` works jobs off in that way. A report only goes to the log and to the
sink, and nobody reads either, so that the window does the same as if all reports were made after
the last outcome (`Window.runReporting_eq`), and so does the operation
(`Service.promoteReporting_eq`).
-/

namespace Delivery

variable {σ α β : Type}

/-! ## Reports -/

/-- Adds to the log and to the sink, and depends on nothing else. -/
def World.Reports (f : World σ → World σ) : Prop :=
  ∃ add : List LogLine × Sink → List LogLine × Sink,
    ∀ w, f w = { w with logs := (add (w.logs, w.sink)).1, sink := (add (w.logs, w.sink)).2 }

theorem World.Reports.comp {f g : World σ → World σ} (hg : World.Reports g)
    (hf : World.Reports f) : World.Reports fun w => g (f w) := by
  obtain ⟨add, hf⟩ := hf
  obtain ⟨more, hg⟩ := hg
  refine ⟨fun j => more (add j), fun w => ?_⟩
  show g (f w) = _
  rw [hg, hf]

theorem Service.reports_take (s : Service σ) (n : Note) : World.Reports (s.take n) := by
  cases n with
  | line line => exact ⟨fun j => (j.1 ++ [line], j.2), fun _ => rfl⟩
  | event event =>
      cases hemit : s.config.emitEvents with
      | true =>
          refine ⟨fun j => (j.1 ++ (j.2.emit event).2, (j.2.emit event).1), fun w => ?_⟩
          rw [take, if_pos hemit]
          rfl
      | false =>
          refine ⟨id, fun w => ?_⟩
          rw [take, if_neg (by rw [hemit]; exact Bool.false_ne_true)]
          rfl

/-- A window does the same whether a report is made before or after it. -/
theorem Window.run_report {start : α → World σ → Status σ β × World σ} (hstart : Unrecorded start)
    {f : World σ → World σ} (hf : World.Reports f) (v : Window σ α β) (w : World σ) :
    v.run start (f w) = ((v.run start w).1, f (v.run start w).2) := by
  obtain ⟨add, hf⟩ := hf
  have hunheard := World.unheard (run_recorded hstart v w)
  obtain ⟨-, hlogs, hsink⟩ := hunheard w.logs w.sink
  rw [hf, hf, hlogs, hsink]
  exact (hunheard _ _).1

/-! ## Windows that report -/

/-- Works off all jobs as `Window.run` does, and reports every outcome when it is taken. -/
def Window.runReporting (start : α → World σ → Status σ β × World σ)
    (report : α × Except StoreError β → World σ → World σ) (v : Window σ α β) (w : World σ) :
    List (α × Except StoreError β) × World σ :=
  if _hne : v.refill.slots = [] then ([], w)
  else match _ht : v.refill.take? with
    | some (taken, rest) =>
      let (outcomes, w) := runReporting start report rest (report taken w)
      (taken :: outcomes, w)
    | none =>
      match _ha : v.refill.advance start w with
      | some (v', w') => runReporting start report v' w'
      | none => runReporting start report v.refill (w.elapse v.refill.timers)
termination_by (v.jobs.length, v.unstarted, v.effort w)
decreasing_by
  · have := congrArg List.length (jobs_of_take? _ht)
    rw [jobs_refill, List.length_cons] at this
    exact Prod.Lex.left _ _ (by omega)
  · obtain ⟨hjobs, hcase⟩ := advance_eq_some _ha
    rw [jobs_refill] at hjobs
    rw [unstarted_refill, effort_refill] at hcase
    rw [hjobs]
    refine Prod.Lex.right _ ?_
    rcases hcase with hlt | ⟨heq, hlt⟩
    · exact Prod.Lex.left _ _ hlt
    · rw [heq]; exact Prod.Lex.right _ hlt
  · have := effort_elapse_lt _hne _ht _ha
    rw [effort_refill v w] at this
    rw [jobs_refill, unstarted_refill]
    exact Prod.Lex.right _ (Prod.Lex.right _ this)

/-- **Reporting outcomes as they are taken is reporting them all in the end.** -/
theorem Window.runReporting_eq {start : α → World σ → Status σ β × World σ}
    (hstart : Unrecorded start) {report : α × Except StoreError β → World σ → World σ}
    (hreport : ∀ o, World.Reports (report o)) (v : Window σ α β) (w : World σ) :
    v.runReporting start report w =
      ((v.run start w).1,
        (v.run start w).1.foldl (fun w o => report o w) (v.run start w).2) := by
  fun_induction runReporting start report v w with
  | case1 v w hne => rw [run, dif_pos hne, List.foldl_nil]
  | case2 v w hne taken rest ht outcomes w' hrec ih =>
      rw [hrec, run_report hstart (hreport taken)] at ih
      obtain ⟨houtcomes, hworld⟩ := Prod.mk.inj ih
      rw [run_take hne ht, houtcomes, hworld, List.foldl_cons]
  | case3 v w hne ht v' w' ha ih => rw [run_advance hne ht ha, ih]
  | case4 v w hne ht ha ih => rw [run_elapse hne ht ha, ih]

/-! ## Operations that report at once -/

namespace Service

variable (s : Service σ) (context : Context) (m : Move)

/-- Reports the outcome of one write. -/
def reporting (o : Promotion × WriteOutcome) (w : World σ) : World σ :=
  ((reportOutcome m o.1 o.2).run s context w).2

/-- Writes a promotion for each of some subscribers, and reports every outcome as soon as it is
taken. -/
def cascadeReporting (subscribers : List Stage) (w : World σ) : CascadeResult × World σ :=
  let promotions := s.promotionsOf subscribers m.freight w.built
  let (outcomes, w) := Window.runReporting (s.startWrite context) (s.reporting context m)
    ⟨s.config.maxConcurrentWrites, promotions, []⟩
    { w with built := w.built + subscribers.length }
  let collector := Collector.ofOutcomes outcomes
  let report := reportCascade m subscribers.length collector.failed collector.finish
  (collector.finish, (report.run s context w).2)

/-- Promotes the subscribers of a stage, and reports every outcome as soon as it is taken. -/
def promoteReporting (resolver : Resolver) (w : World σ) : CascadeResult × World σ :=
  match (resolution resolver m).run.run s context w with
  | (.ok subscribers, w) => s.cascadeReporting context m subscribers w
  | (.error e, w) => (.rejected e, w)

theorem reports_reporting (o : Promotion × WriteOutcome) :
    World.Reports (s.reporting context m o) := by
  obtain ⟨p, outcome⟩ := o
  show World.Reports fun w => ((reportOutcome m p outcome).run s context w).2
  rcases outcome with e | ⟨⟩
  · exact (s.reports_take (.event _)).comp (s.reports_take (.line _))
  · exact (s.reports_take (.event _)).comp (s.reports_take (.line _))

theorem run_reportOutcomes (outcomes : List (Promotion × WriteOutcome)) (w : World σ) :
    (reportOutcomes m outcomes).run s context w =
      ((), outcomes.foldl (fun w o => s.reporting context m o w) w) := by
  induction outcomes generalizing w with
  | nil => rfl
  | cons o rest ih =>
      obtain ⟨p, outcome⟩ := o
      rw [reportOutcomes, Plan.bind_def, Plan.run_bind, ih]
      rfl

/-- **It makes no difference to a cascade when it reports.** -/
theorem promoteReporting_eq (resolver : Resolver) (w : World σ) :
    s.promoteReporting context m resolver w =
      (promoteSubscribers resolver m).run s context w := by
  have hcascade (subscribers : List Stage) (w : World σ) :
      s.cascadeReporting context m subscribers w =
        (cascadeTo m subscribers).run s context w := by
    unfold cascadeReporting
    dsimp only
    rw [Window.runReporting_eq (s.startWrite_recorded context) (s.reports_reporting context m)]
    simp only [cascadeTo, Plan.bind_def, Plan.run_bind, Plan.run_promotions, Plan.run,
      run_reportOutcomes]
    rfl
  rw [run_promoteSubscribers, promoteReporting]
  rcases (resolution resolver m).run.run s context w with ⟨e | subscribers, w'⟩
  · rfl
  · exact hcascade subscribers w'

end Service

end Delivery
