import Delivery.Proofs.Writes
import Delivery.Promote

/-!
# What operations ask

An operation is a plan, and a plan run by a service is a chain of calls with notes between them.
Here the chains are read off once, for any service: `Service.Asked` is one link, and
`Service.Eligible` says which links the common part of both operations makes and which of them
decides its end.

* `Service.eligibleStage_cases`, `Service.promoteStage_cases`, `Service.promoteSubscribers_cases` —
  every way in which an operation can end, with the calls it has made by then.
-/

namespace Delivery

variable {σ α β : Type}

/-! ## Notes -/

/-- Between two worlds only notes were taken. -/
def World.Noted (w w' : World σ) : Prop := ∃ logs sink, w' = { w with logs, sink }

theorem World.Noted.refl (w : World σ) : w.Noted w := ⟨w.logs, w.sink, rfl⟩

theorem World.Noted.trans {u v w : World σ} (h₁ : u.Noted v) (h₂ : v.Noted w) : u.Noted w := by
  obtain ⟨_, _, rfl⟩ := h₁
  obtain ⟨logs, sink, rfl⟩ := h₂
  exact ⟨logs, sink, rfl⟩

theorem World.Noted.state_eq {w w' : World σ} (h : w.Noted w') : w'.state = w.state := by
  obtain ⟨_, _, rfl⟩ := h
  rfl

theorem Service.noted_take (s : Service σ) (n : Note) (w : World σ) : w.Noted (s.take n w) := by
  cases n with
  | line line => exact ⟨_, _, rfl⟩
  | event event =>
      show w.Noted (if s.config.emitEvents then w.emit event else w)
      by_cases h : s.config.emitEvents = true
      · rw [if_pos h]
        exact ⟨_, _, rfl⟩
      · rw [if_neg h]
        exact .refl w

/-- A request was made and answered between two worlds, with nothing but notes around it. -/
def Service.Asked (s : Service σ) (context : Context) (r : Request)
    (a : Except StoreError r.Answer) (w w' : World σ) : Prop :=
  ∃ v v', w.Noted v ∧ s.call context r v = (a, v') ∧ v'.Noted w'

theorem Service.Asked.noted {s : Service σ} {context : Context} {r : Request}
    {a : Except StoreError r.Answer} {u v w x : World σ} (h : s.Asked context r a v w)
    (hbefore : u.Noted v) (hafter : w.Noted x) : s.Asked context r a u x := by
  obtain ⟨v', w', hv, hcall, hw⟩ := h
  exact ⟨v', w', hbefore.trans hv, hcall, hw.trans hafter⟩

/-- The plan makes one request, and its value is a function of the answer. -/
def Plan.Puts (p : Plan (Except StoreError α)) (r : Request) (f : r.Answer → α) : Prop :=
  ∀ (σ : Type) (s : Service σ) (context : Context) (w : World σ),
    ∃ a w', p.run s context w = (a.map f, w') ∧ s.Asked context r a w w'

/-! ## Queries -/

section Steps

variable (s : Service σ) (context : Context) (w : World σ)

theorem Plan.run_log (level : Level) (message : String) (fields : List (String × LogValue)) :
    (Plan.log level message fields).run s context w =
      ((), s.take (.line ⟨level, message, fields⟩) w) := rfl

theorem Plan.run_ask (r : Request) : (Plan.ask r).run s context w = s.call context r w := rfl

theorem Plan.run_promotion (stage : Stage) (freight : String) :
    (Plan.promotion stage freight).run s context w =
      (.build stage freight (s.stamps w.built), { w with built := w.built + 1 }) := rfl

end Steps

theorem Plan.puts_ask (r : Request) : (Plan.ask r).Puts r id := by
  intro σ s context w
  rcases h : s.call context r w with ⟨a, w'⟩
  refine ⟨a, w', ?_, w, w', .refl w, h, .refl w'⟩
  simp only [Plan.ask, Plan.run, h]
  cases a <;> rfl

theorem puts_fetchStage (key : Key) : (fetchStage key).Puts (.stage key) id := by
  intro σ s context w
  obtain ⟨a, w', hrun, hasked⟩ := Plan.puts_ask (.stage key) σ s context
    (s.take (.line ⟨.debug, "Fetching stage", [("stage", .text key.text)]⟩) w)
  exact ⟨a, w', hrun, hasked.noted (s.noted_take _ w) (.refl w')⟩

/-- A failure is passed on; an answer is noted, and something is made of it. -/
theorem Plan.Puts.noting {p : Plan (Except StoreError α)} {r : Request} {f : r.Answer → α}
    (hp : p.Puts r f) {k : Except StoreError α → Plan (Except StoreError β)} {g : α → β}
    {n : α → Note} (herror : ∀ e, k (.error e) = .done (.error e))
    (hok : ∀ a, k (.ok a) = .note (n a) (.done (.ok (g a)))) :
    (p.bind k).Puts r fun a => g (f a) := by
  intro σ s context w
  obtain ⟨a, w', hrun, hasked⟩ := hp σ s context w
  cases a with
  | error e =>
      refine ⟨.error e, w', ?_, hasked⟩
      rw [Plan.run_bind, hrun]
      show (k (.error e)).run s context w' = _
      rw [herror]
      rfl
  | ok a =>
      refine ⟨.ok a, s.take (n (f a)) w', ?_, hasked.noted (.refl w) (s.noted_take _ w')⟩
      rw [Plan.run_bind, hrun]
      show (k (.ok (f a))).run s context w' = _
      rw [hok]
      rfl

theorem puts_listStages (project : String) : (listStages project).Puts (.stages project) id :=
  (Plan.puts_ask (.stages project)).noting (fun _ => rfl) (fun _ => rfl)

theorem puts_qualifiedFreight (key : Key) (candidates : List String) :
    (qualifiedFreight key candidates).Puts (.freight key candidates) id :=
  (Plan.puts_ask (.freight key candidates)).noting (fun _ => rfl) (fun _ => rfl)

theorem puts_scanSubscribers (stage : Stage) :
    (scanSubscribers stage).Puts (.stages stage.project) fun stages =>
      subscribersOf stages stage.name :=
  (puts_listStages stage.project).noting (fun _ => rfl) (fun _ => rfl)

/-- What a resolver asks for. -/
def Resolver.request (r : Resolver) (stage : Stage) : Request :=
  match r with
  | scan => .stages stage.project
  | index => .subscribers stage

/-- What a resolver makes of the answer. -/
def Resolver.found (r : Resolver) (stage : Stage) : (r.request stage).Answer → List Stage :=
  match r with
  | scan => fun stages => subscribersOf stages stage.name
  | index => fun stages => stages

theorem Resolver.puts_subscribers (r : Resolver) (stage : Stage) :
    (r.subscribers stage).Puts (r.request stage) (r.found stage) := by
  cases r with
  | scan => exact puts_scanSubscribers stage
  | index => exact Plan.puts_ask (.subscribers stage)

/-! ## Steps of an operation -/

namespace Operation

variable (s : Service σ) (context : Context) (w : World σ)

@[simp] theorem run_pure (a : α) :
    (pure a : Operation α).run.run s context w = (.ok a, w) := rfl

@[simp] theorem run_fail (e : PromotionError) :
    (fail e : Operation α).run.run s context w = (.error e, w) := rfl

@[simp] theorem run_step (p : Plan α) :
    (step p).run.run s context w = (.ok (p.run s context w).1, (p.run s context w).2) := by
  show (p.bind fun a => Plan.done (Except.ok a : Except PromotionError α)).run s context w = _
  rw [Plan.run_bind]
  rfl

theorem run_bind (x : Operation α) (f : α → Operation β) :
    (x >>= f).run.run s context w =
      match x.run.run s context w with
      | (.ok a, w') => (f a).run.run s context w'
      | (.error e, w') => (.error e, w') := by
  rw [ExceptT.run_bind, Plan.bind_def, Plan.run_bind]
  rcases x.run.run s context w with ⟨_ | a, w'⟩ <;> rfl

end Operation

theorem mapError_ok {ε ε' : Type} (f : ε → ε') (a : α) :
    (Except.ok a : Except ε α).mapError f = .ok a := rfl

/-- A question ends the operation when it is not answered. -/
theorem Operation.query_cases {p : Plan (Except StoreError α)} {r : Request} {f : r.Answer → α}
    (hp : p.Puts r f) (m : Move) (action : String) (s : Service σ) (context : Context)
    (w : World σ) :
    ∃ a w', s.Asked context r a w w' ∧
      (query m action p).run.run s context w = ((a.map f).mapError .internal, w') := by
  obtain ⟨a, w', hrun, hasked⟩ := hp σ s context w
  cases a with
  | error e =>
      let failed : LogLine := ⟨.error, "Collaborator call failed",
        m.stageFields ++ [("action", .text action), ("error", .text e.message)]⟩
      refine ⟨.error e, s.take (.line failed) w',
        hasked.noted (.refl w) (s.noted_take _ w'), ?_⟩
      rw [query, run_bind, run_step, hrun]
      rfl
  | ok a =>
      refine ⟨_, w', hasked, ?_⟩
      rw [query, run_bind, run_step, hrun]
      rfl

/-- A note, whatever else follows, changes nothing but the notes. -/
theorem Operation.run_note_fail (s : Service σ) (context : Context) (w : World σ)
    (level : Level) (message : String) (fields : List (String × LogValue)) (e : PromotionError) :
    ∃ w', w.Noted w' ∧
      (step (Plan.log level message fields) >>= fun _ => (fail e : Operation α)).run.run
        s context w = (.error e, w') :=
  ⟨_, s.noted_take (.line ⟨level, message, fields⟩) w, rfl⟩

/-! ## The common part -/

/-- How the common part of both operations ends. It puts its questions in turn, and the first one
that is not answered as it should be decides. -/
inductive Service.Eligible (s : Service σ) (context : Context) (m : Move)
    (candidates : Stage → List String) : Except PromotionError Stage → World σ → World σ → Prop
  | flawed {e w w'} : m.flaw? = some e → w.Noted w' →
      Eligible s context m candidates (.error e) w w'
  | notValidated {e w w'} : m.flaw? = none →
      s.Asked context (.validate m.project) (.error e) w w' →
      Eligible s context m candidates (.error (.internal e)) w w'
  | refused {e w w'} : m.flaw? = none →
      s.Asked context (.validate m.project) (.ok (.error e)) w w' →
      Eligible s context m candidates (.error e) w w'
  | notRead {e u v w} : m.flaw? = none →
      s.Asked context (.validate m.project) (.ok (.ok ())) u v →
      s.Asked context (.stage ⟨m.project, m.stage⟩) (.error e) v w →
      Eligible s context m candidates (.error (.internal e)) u w
  | noStage {u v w} : m.flaw? = none →
      s.Asked context (.validate m.project) (.ok (.ok ())) u v →
      s.Asked context (.stage ⟨m.project, m.stage⟩) (.ok none) v w →
      Eligible s context m candidates (.error m.stageNotFound) u w
  | notGated {stage e t u v w} : m.flaw? = none →
      s.Asked context (.validate m.project) (.ok (.ok ())) t u →
      s.Asked context (.stage ⟨m.project, m.stage⟩) (.ok (some stage)) u v →
      s.Asked context (.freight ⟨m.project, m.freight⟩ (candidates stage)) (.error e) v w →
      Eligible s context m candidates (.error (.internal e)) t w
  | noFreight {stage t u v w} : m.flaw? = none →
      s.Asked context (.validate m.project) (.ok (.ok ())) t u →
      s.Asked context (.stage ⟨m.project, m.stage⟩) (.ok (some stage)) u v →
      s.Asked context (.freight ⟨m.project, m.freight⟩ (candidates stage)) (.ok none) v w →
      Eligible s context m candidates (.error m.noQualifiedFreight) t w
  | eligible {stage freight t u v w} : m.flaw? = none →
      s.Asked context (.validate m.project) (.ok (.ok ())) t u →
      s.Asked context (.stage ⟨m.project, m.stage⟩) (.ok (some stage)) u v →
      s.Asked context (.freight ⟨m.project, m.freight⟩ (candidates stage)) (.ok (some freight))
        v w →
      Eligible s context m candidates (.ok stage) t w

/-- Notes taken before are no part of it. -/
theorem Service.Eligible.noted {s : Service σ} {context : Context} {m : Move}
    {candidates : Stage → List String} {a : Except PromotionError Stage} {u v w : World σ}
    (h : s.Eligible context m candidates a v w) (hbefore : u.Noted v) :
    s.Eligible context m candidates a u w := by
  cases h with
  | flawed hflaw hnoted => exact .flawed hflaw (hbefore.trans hnoted)
  | notValidated hflaw h₁ => exact .notValidated hflaw (h₁.noted hbefore (.refl _))
  | refused hflaw h₁ => exact .refused hflaw (h₁.noted hbefore (.refl _))
  | notRead hflaw h₁ h₂ => exact .notRead hflaw (h₁.noted hbefore (.refl _)) h₂
  | noStage hflaw h₁ h₂ => exact .noStage hflaw (h₁.noted hbefore (.refl _)) h₂
  | notGated hflaw h₁ h₂ h₃ => exact .notGated hflaw (h₁.noted hbefore (.refl _)) h₂ h₃
  | noFreight hflaw h₁ h₂ h₃ => exact .noFreight hflaw (h₁.noted hbefore (.refl _)) h₂ h₃
  | eligible hflaw h₁ h₂ h₃ => exact .eligible hflaw (h₁.noted hbefore (.refl _)) h₂ h₃

open Operation in
theorem Service.eligibleStage_cases (s : Service σ) (context : Context) (m : Move)
    (candidates : Stage → List String) (w : World σ) :
    ∃ a w', (eligibleStage m candidates).run.run s context w = (a, w') ∧
      s.Eligible context m candidates a w w' := by
  unfold eligibleStage
  cases hflaw : m.flaw? with
  | some e => exact ⟨.error e, w, rfl, .flawed hflaw (.refl w)⟩
  | none =>
      obtain ⟨a₁, w₁, hasked₁, hrun₁⟩ :=
        query_cases (Plan.puts_ask (.validate m.project)) m "validating project" s context w
      dsimp only
      rw [run_bind, hrun₁]
      rcases a₁ with e | e | ⟨⟩
      · exact ⟨_, w₁, rfl, .notValidated hflaw hasked₁⟩
      · exact ⟨_, w₁, rfl, .refused hflaw hasked₁⟩
      obtain ⟨a₂, w₂, hasked₂, hrun₂⟩ :=
        query_cases (puts_fetchStage ⟨m.project, m.stage⟩) m "getting stage" s context w₁
      simp only [Except.map, mapError_ok, id]
      rw [run_bind, hrun₂]
      rcases a₂ with e | _ | stage
      · exact ⟨_, w₂, rfl, .notRead hflaw hasked₁ hasked₂⟩
      · obtain ⟨w', hnoted, hrun⟩ :=
          run_note_fail (α := Stage) s context w₂ .warn "Stage not found" m.stageFields
            m.stageNotFound
        exact ⟨_, w', hrun, .noStage hflaw hasked₁ (hasked₂.noted (.refl _) hnoted)⟩
      obtain ⟨a₃, w₃, hasked₃, hrun₃⟩ :=
        query_cases (puts_qualifiedFreight ⟨m.project, m.freight⟩ (candidates stage)) m
          "getting qualified freight" s context w₂
      simp only [Except.map, mapError_ok, id]
      rw [run_bind, hrun₃]
      rcases a₃ with e | _ | freight
      · exact ⟨_, w₃, rfl, .notGated hflaw hasked₁ hasked₂ hasked₃⟩
      · obtain ⟨w', hnoted, hrun⟩ :=
          run_note_fail (α := Stage) s context w₃ .warn "No qualified freight"
            (m.fields ++ [("candidates", .text (Text.quoteAll (candidates stage)))])
            m.noQualifiedFreight
        exact ⟨_, w', hrun, .noFreight hflaw hasked₁ hasked₂ (hasked₃.noted (.refl _) hnoted)⟩
      · exact ⟨_, w₃, rfl, .eligible hflaw hasked₁ hasked₂ hasked₃⟩

/-! ## Promoting a stage -/

/-- A plan that only leaves notes. -/
def Plan.Notes (p : Plan α) : Prop :=
  ∀ (σ : Type) (s : Service σ) (context : Context) (w : World σ), w.Noted (p.run s context w).2

theorem Plan.notes_done (a : α) : (Plan.done a).Notes := fun _ _ _ w => .refl w

theorem Plan.notes_note (n : Note) : (Plan.note n (.done ())).Notes :=
  fun _ s _ w => s.noted_take n w

theorem Plan.Notes.bind {p : Plan α} {f : α → Plan β} (hp : p.Notes) (hf : ∀ a, (f a).Notes) :
    (p.bind f).Notes := by
  intro σ s context w
  rw [Plan.run_bind]
  exact (hp σ s context w).trans (hf _ σ s context _)

/-- How promoting a stage ends: before the write, or with it. -/
inductive Service.Promotes (s : Service σ) (context : Context) (m : Move) :
    Except PromotionError Promotion → World σ → World σ → Prop
  | rejected {e w w'} : s.Eligible context m promotionCandidates (.error e) w w' →
      Promotes s context m (.error e) w w'
  | failed {stage e u v w} : s.Eligible context m promotionCandidates (.ok stage) u v →
      s.Asked context (.create (.build stage m.freight (s.stamps v.built))) (.error e)
        { v with built := v.built + 1 } w →
      Promotes s context m (.error (.internal e)) u w
  | created {stage u v w} : s.Eligible context m promotionCandidates (.ok stage) u v →
      s.Asked context (.create (.build stage m.freight (s.stamps v.built))) (.ok ())
        { v with built := v.built + 1 } w →
      Promotes s context m (.ok (.build stage m.freight (s.stamps v.built))) u w

section Promoting

variable {s : Service σ} {context : Context} {m : Move} {w v : World σ}

open Operation in
/-- A stage that is not eligible is not promoted. -/
theorem run_promoteStage_error {e : PromotionError}
    (h : (eligibleStage m promotionCandidates).run.run s context
      (s.take (.line ⟨.debug, "Promoting stage", m.fields⟩) w) = (.error e, v)) :
    (promoteStage m).run.run s context w = (.error e, v) := by
  unfold promoteStage
  rw [run_bind, run_step, Plan.run_log]
  dsimp only
  rw [run_bind, h]

open Operation in
/-- A stage that is eligible is promoted by creating its promotion. -/
theorem run_promoteStage_ok {stage : Stage} {o : WriteOutcome} {v' : World σ}
    (h : (eligibleStage m promotionCandidates).run.run s context
      (s.take (.line ⟨.debug, "Promoting stage", m.fields⟩) w) = (.ok stage, v))
    (hcall : s.call context (.create (.build stage m.freight (s.stamps v.built)))
      { v with built := v.built + 1 } = (o, v')) :
    ∃ w', v'.Noted w' ∧ (promoteStage m).run.run s context w =
      ((o.map fun _ => .build stage m.freight (s.stamps v.built)).mapError .internal, w') := by
  unfold promoteStage
  rw [run_bind, run_step, Plan.run_log]
  dsimp only
  rw [run_bind, h]
  dsimp only
  rw [run_bind, run_step, Plan.run_promotion]
  dsimp only
  rw [run_bind, run_step, Plan.run_ask, hcall]
  rcases o with e | ⟨⟩
  · exact ⟨_, (s.noted_take _ v').trans (s.noted_take _ _), rfl⟩
  · exact ⟨_, (s.noted_take _ v').trans (s.noted_take _ _), rfl⟩

end Promoting

theorem Service.promoteStage_cases (s : Service σ) (context : Context) (m : Move) (w : World σ) :
    ∃ a w', (promoteStage m).run.run s context w = (a, w') ∧ s.Promotes context m a w w' := by
  have hnoted := s.noted_take (.line ⟨.debug, "Promoting stage", m.fields⟩) w
  obtain ⟨a, v, hrun, heligible⟩ := s.eligibleStage_cases context m promotionCandidates
    (s.take (.line ⟨.debug, "Promoting stage", m.fields⟩) w)
  replace heligible := heligible.noted hnoted
  cases a with
  | error e => exact ⟨_, v, run_promoteStage_error hrun, .rejected heligible⟩
  | ok stage =>
      rcases hcall : s.call context (.create (.build stage m.freight (s.stamps v.built)))
        { v with built := v.built + 1 } with ⟨e | ⟨⟩, v'⟩
      · obtain ⟨w', hnoted', hrun'⟩ := run_promoteStage_ok hrun hcall
        exact ⟨_, w', hrun', .failed heligible ⟨_, v', .refl _, hcall, hnoted'⟩⟩
      · obtain ⟨w', hnoted', hrun'⟩ := run_promoteStage_ok hrun hcall
        exact ⟨_, w', hrun', .created heligible ⟨_, v', .refl _, hcall, hnoted'⟩⟩

/-! ## Promoting subscribers -/

/-- A cascade up to its writes: the subscribers, unless the request is rejected. -/
def resolution (resolver : Resolver) (m : Move) : Operation (List Stage) := do
  Operation.step (Plan.log .debug "Promoting subscribers" m.fields)
  let stage ← eligibleStage m cascadeCandidates
  let subscribers ←
    Operation.query m "resolving subscribers" (resolver.subscribers stage)
  if subscribers.isEmpty then
    Operation.step (Plan.log .warn "Stage has no subscribers" m.stageFields)
    Operation.fail m.noSubscribers
  else return subscribers

/-- A cascade resolves the subscribers, and then writes. -/
theorem cascade_eq (resolver : Resolver) (m : Move) :
    cascade resolver m =
      resolution resolver m >>= fun subscribers => Operation.step (cascadeTo m subscribers) := by
  have hfail (e : PromotionError) (f : List Stage → Operation CascadeResult) :
      (Operation.fail e : Operation (List Stage)) >>= f = Operation.fail e := rfl
  simp only [cascade, resolution, bind_assoc]
  refine bind_congr fun _ => bind_congr fun _ => bind_congr fun subscribers => ?_
  split
  · rw [bind_assoc]
    exact bind_congr fun _ => (hfail _ _).symm
  · rw [pure_bind]

/-- How the resolution of a cascade ends. -/
inductive Service.Resolves (s : Service σ) (context : Context) (m : Move) (resolver : Resolver) :
    Except PromotionError (List Stage) → World σ → World σ → Prop
  | rejected {e w w'} : s.Eligible context m cascadeCandidates (.error e) w w' →
      Resolves s context m resolver (.error e) w w'
  | unanswered {stage e u v w} : s.Eligible context m cascadeCandidates (.ok stage) u v →
      s.Asked context (resolver.request stage) (.error e) v w →
      Resolves s context m resolver (.error (.internal e)) u w
  | noSubscribers {stage a u v w} : s.Eligible context m cascadeCandidates (.ok stage) u v →
      s.Asked context (resolver.request stage) (.ok a) v w → resolver.found stage a = [] →
      Resolves s context m resolver (.error m.noSubscribers) u w
  | resolved {stage a u v w} : s.Eligible context m cascadeCandidates (.ok stage) u v →
      s.Asked context (resolver.request stage) (.ok a) v w → resolver.found stage a ≠ [] →
      Resolves s context m resolver (.ok (resolver.found stage a)) u w

open Operation in
theorem Service.resolution_cases (s : Service σ) (context : Context) (resolver : Resolver)
    (m : Move) (w : World σ) :
    ∃ a w', (resolution resolver m).run.run s context w = (a, w') ∧
      s.Resolves context m resolver a w w' := by
  unfold resolution
  have hnoted := s.noted_take (.line ⟨.debug, "Promoting subscribers", m.fields⟩) w
  obtain ⟨a, v, hrun, heligible⟩ := s.eligibleStage_cases context m cascadeCandidates
    (s.take (.line ⟨.debug, "Promoting subscribers", m.fields⟩) w)
  replace heligible := heligible.noted hnoted
  rw [run_bind, run_step, Plan.run_log]
  dsimp only
  rw [run_bind, hrun]
  cases a with
  | error e => exact ⟨_, v, rfl, .rejected heligible⟩
  | ok stage =>
      obtain ⟨a, v', hasked, hquery⟩ :=
        query_cases (resolver.puts_subscribers stage) m "resolving subscribers" s context v
      dsimp only
      rw [run_bind, hquery]
      cases a with
      | error e => exact ⟨_, v', rfl, .unanswered heligible hasked⟩
      | ok found =>
          show ∃ a w', (Plan.run s context (ExceptT.run (if (resolver.found stage found).isEmpty
            then _ else _)) v') = (a, w') ∧ _
          by_cases hempty : (resolver.found stage found).isEmpty = true
          · obtain ⟨w', hnoted', hfail⟩ := run_note_fail (α := List Stage) s context v' .warn
              "Stage has no subscribers" m.stageFields m.noSubscribers
            rw [if_pos hempty]
            exact ⟨_, w', hfail, .noSubscribers heligible (hasked.noted (.refl _) hnoted')
              (List.isEmpty_iff.1 hempty)⟩
          · rw [if_neg hempty]
            exact ⟨_, v', rfl, .resolved heligible hasked fun h =>
              hempty (List.isEmpty_iff.2 h)⟩

/-- The promotions of some stages onto a freight, stamped from the `n`-th stamp on. -/
def Service.promotionsOf (s : Service σ) (stages : List Stage) (freight : String) (n : Nat) :
    List Promotion :=
  (stages.zipIdx n).map fun e => .build e.1 freight (s.stamps e.2)

theorem Service.getElem?_promotionsOf (s : Service σ) (stages : List Stage) (freight : String)
    (n i : Nat) :
    (s.promotionsOf stages freight n)[i]? =
      stages[i]?.map fun b => .build b freight (s.stamps (n + i)) := by
  rw [Service.promotionsOf, List.getElem?_map, List.getElem?_zipIdx, Option.map_map]
  rfl

theorem Service.mem_promotionsOf {s : Service σ} {stages : List Stage} {freight : String} {n : Nat}
    {p : Promotion} :
    p ∈ s.promotionsOf stages freight n ↔
      ∃ i b, stages[i]? = some b ∧ p = .build b freight (s.stamps (n + i)) := by
  rw [List.mem_iff_getElem?]
  constructor
  · rintro ⟨i, hi⟩
    rw [Service.getElem?_promotionsOf] at hi
    obtain ⟨b, hb, rfl⟩ := Option.map_eq_some_iff.1 hi
    exact ⟨i, b, hb, rfl⟩
  · rintro ⟨i, b, hb, rfl⟩
    refine ⟨i, ?_⟩
    rw [Service.getElem?_promotionsOf, hb]
    rfl

theorem Service.map_stage_promotionsOf (s : Service σ) (stages : List Stage) (freight : String)
    (n : Nat) : (s.promotionsOf stages freight n).map Promotion.stage = stages.map Stage.name := by
  have hstages : (stages.zipIdx n).map (Stage.name ∘ Prod.fst) = stages.map Stage.name := by
    rw [← List.map_map, List.zipIdx_map_fst]
  rw [Service.promotionsOf, List.map_map, ← hstages]
  rfl

theorem Service.length_promotionsOf (s : Service σ) (stages : List Stage) (freight : String)
    (n : Nat) : (s.promotionsOf stages freight n).length = stages.length := by
  rw [Service.promotionsOf, List.length_map, List.length_zipIdx]

theorem Plan.run_promotions (s : Service σ) (context : Context) (stages : List Stage)
    (freight : String) (w : World σ) :
    (Plan.promotions stages freight).run s context w =
      (s.promotionsOf stages freight w.built, { w with built := w.built + stages.length }) := by
  induction stages generalizing w with
  | nil => rfl
  | cons stage rest ih =>
      simp only [Plan.promotions, Plan.run, Plan.run_bind, ih, Service.promotionsOf,
        List.zipIdx_cons, List.map_cons, List.length_cons]
      rw [Nat.add_right_comm, Nat.add_assoc]

theorem notes_reportOutcomes (m : Move) (outcomes : List (Promotion × WriteOutcome)) :
    (reportOutcomes m outcomes).Notes := by
  induction outcomes with
  | nil => exact Plan.notes_done ()
  | cons o rest ih =>
      obtain ⟨p, outcome⟩ := o
      refine Plan.Notes.bind ?_ fun _ => ih
      rcases outcome with e | ⟨⟩
      · exact (Plan.notes_note _).bind fun _ => Plan.notes_note _
      · exact (Plan.notes_note _).bind fun _ => Plan.notes_note _

/-- The writes of a cascade, and what is made of their outcomes. -/
theorem run_cascadeTo (s : Service σ) (context : Context) (m : Move) (subscribers : List Stage)
    {w v : World σ} {outcomes : List (Promotion × WriteOutcome)}
    (hwrite : s.write context (s.promotionsOf subscribers m.freight w.built)
      { w with built := w.built + subscribers.length } = (outcomes, v)) :
    ∃ w', v.Noted w' ∧ (cascadeTo m subscribers).run s context w =
      ((Collector.ofOutcomes outcomes).finish, w') := by
  let collector := Collector.ofOutcomes outcomes
  let report := reportCascade m subscribers.length collector.failed collector.finish
  have hreport : report.Notes := (Plan.notes_note _).bind fun _ => Plan.notes_note _
  refine ⟨(report.run s context ((reportOutcomes m outcomes).run s context v).2).2,
    (notes_reportOutcomes m outcomes _ s context v).trans (hreport _ s context _), ?_⟩
  simp only [cascadeTo, Plan.bind_def, Plan.run_bind, Plan.run_promotions, Plan.run, hwrite]
  rfl

theorem run_promoteSubscribers (s : Service σ) (context : Context) (resolver : Resolver) (m : Move)
    (w : World σ) :
    (promoteSubscribers resolver m).run s context w =
      match (resolution resolver m).run.run s context w with
      | (.ok subscribers, w') => (cascadeTo m subscribers).run s context w'
      | (.error e, w') => (.rejected e, w') := by
  rw [promoteSubscribers, Plan.bind_def, Plan.run_bind, cascade_eq, Operation.run_bind]
  rcases (resolution resolver m).run.run s context w with ⟨e | subscribers, w'⟩
  · rfl
  · simp only [Operation.run_step]
    rfl

/-- What can come of a cascade: it is rejected, or its promotions are written and reported. -/
inductive Service.Cascades (s : Service σ) (context : Context) (m : Move) (resolver : Resolver)
    (w : World σ) : CascadeResult → World σ → Prop
  | rejected {e u} : s.Resolves context m resolver (.error e) w u →
      Cascades s context m resolver w (.rejected e) u
  | cascaded {subscribers outcomes u v w'} : s.Resolves context m resolver (.ok subscribers) w u →
      s.write context (s.promotionsOf subscribers m.freight u.built)
        { u with built := u.built + subscribers.length } = (outcomes, v) → v.Noted w' →
      Cascades s context m resolver w (Collector.ofOutcomes outcomes).finish w'

theorem Service.promoteSubscribers_cases (s : Service σ) (context : Context) (resolver : Resolver)
    (m : Move) (w : World σ) :
    ∃ r w', (promoteSubscribers resolver m).run s context w = (r, w') ∧
      s.Cascades context m resolver w r w' := by
  rw [run_promoteSubscribers]
  obtain ⟨a, u, hrun, hresolves⟩ := s.resolution_cases context resolver m w
  rw [hrun]
  cases a with
  | error e => exact ⟨_, u, rfl, .rejected hresolves⟩
  | ok subscribers =>
      rcases hwrite : s.write context (s.promotionsOf subscribers m.freight u.built)
        { u with built := u.built + subscribers.length } with ⟨outcomes, v⟩
      obtain ⟨w', hnoted, hcascade⟩ := run_cascadeTo s context m subscribers hwrite
      exact ⟨_, w', hcascade, .cascaded hresolves hwrite hnoted⟩

/-! ## What questions keep -/

section Keeps

variable {s : Service σ} {context : Context} {m : Move} {w w' : World σ}
  {R : World σ → World σ → Prop} (hnoted : ∀ {u v}, u.Noted v → R u v)
  (htrans : ∀ {u v w}, R u v → R v w → R u w)
  (hasked : ∀ {r a u v}, (∀ p, r ≠ .create p) → s.Asked context r a u v → R u v)
include hnoted htrans hasked

/-- What notes and questions keep, the common part of both operations keeps. -/
theorem Service.Eligible.keeps {candidates : Stage → List String} {a : Except PromotionError Stage}
    (h : s.Eligible context m candidates a w w') : R w w' := by
  cases h with
  | flawed _ h => exact hnoted h
  | notValidated _ h₁ => exact hasked (by simp) h₁
  | refused _ h₁ => exact hasked (by simp) h₁
  | notRead _ h₁ h₂ => exact htrans (hasked (by simp) h₁) (hasked (by simp) h₂)
  | noStage _ h₁ h₂ => exact htrans (hasked (by simp) h₁) (hasked (by simp) h₂)
  | notGated _ h₁ h₂ h₃ =>
      exact htrans (htrans (hasked (by simp) h₁) (hasked (by simp) h₂)) (hasked (by simp) h₃)
  | noFreight _ h₁ h₂ h₃ =>
      exact htrans (htrans (hasked (by simp) h₁) (hasked (by simp) h₂)) (hasked (by simp) h₃)
  | eligible _ h₁ h₂ h₃ =>
      exact htrans (htrans (hasked (by simp) h₁) (hasked (by simp) h₂)) (hasked (by simp) h₃)

/-- And so does finding the subscribers. -/
theorem Service.Resolves.keeps {resolver : Resolver} {a : Except PromotionError (List Stage)}
    (h : s.Resolves context m resolver a w w') : R w w' := by
  have hrequest (stage : Stage) : ∀ p, resolver.request stage ≠ .create p := by
    cases resolver <;> simp [Resolver.request]
  cases h with
  | rejected h => exact h.keeps hnoted htrans hasked
  | unanswered h h₄ => exact htrans (h.keeps hnoted htrans hasked) (hasked (hrequest _) h₄)
  | noSubscribers h h₄ => exact htrans (h.keeps hnoted htrans hasked) (hasked (hrequest _) h₄)
  | resolved h h₄ => exact htrans (h.keeps hnoted htrans hasked) (hasked (hrequest _) h₄)

end Keeps

/-! ## Stamps -/

section Built

variable {s : Service σ} {context : Context} {m : Move} {w w' : World σ}

theorem World.Noted.built (h : w.Noted w') : w'.built = w.built := by
  obtain ⟨_, _, rfl⟩ := h
  rfl

theorem Service.Asked.built {r : Request} {a : Except StoreError r.Answer}
    (h : s.Asked context r a w w') : w'.built = w.built := by
  obtain ⟨v, v', hv, hcall, hv'⟩ := h
  rw [hv'.built, ← hv.built]
  rcases s.call_cases context r v with ⟨e, -, h⟩ | ⟨w₁, hmade, ⟨e, -, h, -⟩ | ⟨h, -⟩⟩
  · rw [hcall] at h
    cases h
    rfl
  · rw [hcall] at h
    cases h
    exact hmade.built
  · rw [hcall] at h
    cases h
    exact hmade.built

theorem Service.Eligible.built {candidates : Stage → List String} {a : Except PromotionError Stage}
    (h : s.Eligible context m candidates a w w') : w'.built = w.built :=
  h.keeps (R := fun u v => v.built = u.built) (fun h => h.built) (fun h₁ h₂ => h₂.trans h₁)
    fun _ h => h.built

theorem Service.Resolves.built {resolver : Resolver} {a : Except PromotionError (List Stage)}
    (h : s.Resolves context m resolver a w w') : w'.built = w.built :=
  h.keeps (R := fun u v => v.built = u.built) (fun h => h.built) (fun h₁ h₂ => h₂.trans h₁)
    fun _ h => h.built

end Built

end Delivery
