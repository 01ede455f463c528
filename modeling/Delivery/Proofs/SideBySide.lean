import Delivery.Proofs.PromptStore
import Mathlib.Data.List.Forall2

/-!
# Runs side by side

Two plans, carried out by two services, are compared step by step: from worlds that are related they
come to values that are related, in worlds that are related again (`Plan.Related`). There is one
rule for each way of putting plans together, so that the two operations are compared by comparing
the answers to their questions.

* `Operation.related_eligibleStage`, `related_resolution` — both operations up to their writes;
* `Plan.related_writes` — promotions that are written one after another.
-/

namespace Delivery

variable {σ α α' β β' : Type}

/-! ## Answers -/

/-- Two answers are one failure, or values that are related. -/
inductive Matched {ε : Type} (V : α → β → Prop) : Except ε α → Except ε β → Prop
  | error (e : ε) : Matched V (.error e) (.error e)
  | ok {a : α} {b : β} : V a b → Matched V (.ok a) (.ok b)

theorem Matched.imp {ε : Type} {V V' : α → β → Prop} {a : Except ε α} {b : Except ε β}
    (h : Matched V a b) (himp : ∀ x y, V x y → V' x y) : Matched V' a b := by
  cases h with
  | error e => exact .error e
  | ok hv => exact .ok (himp _ _ hv)

/-- Answers that are the same, and of which something is known. -/
theorem matched_same {ε : Type} {P : α → Prop} {a b : Except ε α} :
    Matched (fun x y => y = x ∧ P x) a b ↔ b = a ∧ ∀ x, a = .ok x → P x := by
  constructor
  · rintro (e | ⟨rfl, hx⟩)
    · exact ⟨rfl, fun x h => by cases h⟩
    · exact ⟨rfl, fun x h => Except.ok.inj h ▸ hx⟩
  · rintro ⟨rfl, hx⟩
    cases b with
    | error e => exact .error e
    | ok x => exact .ok ⟨rfl, hx x rfl⟩

theorem Matched.refl {ε : Type} (a : Except ε α) : Matched Eq a a := by
  cases a with
  | error e => exact .error e
  | ok x => exact .ok rfl

/-! ## Plans -/

/-- From worlds in a relation, a plan of one service and a plan of another come to values in a
relation, in worlds that are in the first relation again. -/
def Plan.Related (W : World σ → World σ → Prop) (s s' : Service σ) (V : α → β → Prop)
    (p : Plan α) (p' : Plan β) : Prop :=
  ∀ (context : Context) (w w' : World σ), W w w' →
    V (p.run s context w).1 (p'.run s' context w').1 ∧
      W (p.run s context w).2 (p'.run s' context w').2

/-- A note that is taken on both sides leaves the worlds related. -/
def Service.SameNotes (W : World σ → World σ → Prop) (s s' : Service σ) : Prop :=
  ∀ n w w', W w w' → W (s.take n w) (s'.take n w')

variable {W : World σ → World σ → Prop} {s s' : Service σ} {V : α → β → Prop}
  {V' : α' → β' → Prop}

/-- Notes leave worlds related if these have the same sink and may go on to have the same new lines
and another sink. -/
theorem Service.sameNotes_of (hconfig : s'.config = s.config)
    (hW : ∀ w w', W w w' → w'.sink = w.sink ∧ ∀ lines sink,
      W { w with logs := w.logs ++ lines, sink } { w' with logs := w'.logs ++ lines, sink }) :
    s.SameNotes W s' := by
  intro n w w' hw
  obtain ⟨hsink, hnoted⟩ := hW w w' hw
  cases n with
  | line line =>
      have hlogged : w'.log line = { w' with logs := w'.logs ++ [line], sink := w.sink } := by
        rw [← hsink]
        rfl
      show W (w.log line) (w'.log line)
      rw [hlogged]
      exact hnoted [line] w.sink
  | event event =>
      unfold Service.take
      dsimp only
      rw [hconfig]
      by_cases hemit : s.config.emitEvents = true
      · rw [if_pos hemit, if_pos hemit]
        unfold World.emit
        rw [hsink]
        exact hnoted _ _
      · rw [if_neg hemit, if_neg hemit]
        exact hw

namespace Plan

theorem related_done {a : α} {b : β} (h : V a b) : (done a).Related W s s' V (done b) :=
  fun _ _ _ hw => ⟨h, hw⟩

theorem Related.imp {U : α → β → Prop} {p : Plan α} {p' : Plan β} (hp : p.Related W s s' U p')
    (himp : ∀ a b, U a b → V a b) : p.Related W s s' V p' := by
  intro context w w' hw
  obtain ⟨hvalue, hw'⟩ := hp context w w' hw
  exact ⟨himp _ _ hvalue, hw'⟩

theorem Related.bind {p : Plan α} {p' : Plan β} {f : α → Plan α'} {f' : β → Plan β'}
    (hp : p.Related W s s' V p') (hf : ∀ a b, V a b → (f a).Related W s s' V' (f' b)) :
    (p.bind f).Related W s s' V' (p'.bind f') := by
  intro context w w' hw
  obtain ⟨hvalue, hw'⟩ := hp context w w' hw
  rw [run_bind, run_bind]
  exact hf _ _ hvalue context _ _ hw'

theorem Related.note (hn : s.SameNotes W s') {p : Plan α} {p' : Plan β}
    (hp : p.Related W s s' V p') (n : Note) : (Plan.note n p).Related W s s' V (.note n p') :=
  fun context _ _ hw => hp context _ _ (hn n _ _ hw)

/-- A failure is passed on; of an answer a line is written, and something is made. -/
theorem Related.noting (hn : s.SameNotes W s') {p : Plan (Except StoreError α)}
    {p' : Plan (Except StoreError β)} (hp : p.Related W s s' (Matched V) p')
    {k : Except StoreError α → Plan (Except StoreError α')}
    {k' : Except StoreError β → Plan (Except StoreError β')}
    (herror : ∀ e, k (.error e) = .done (.error e) ∧ k' (.error e) = .done (.error e))
    (hok : ∀ a b, V a b → ∃ n x y, k (.ok a) = .note n (.done (.ok x)) ∧
      k' (.ok b) = .note n (.done (.ok y)) ∧ V' x y) :
    (p.bind k).Related W s s' (Matched V') (p'.bind k') := by
  refine hp.bind ?_
  rintro _ _ (e | hv)
  · rw [(herror e).1, (herror e).2]
    exact related_done (.error e)
  · obtain ⟨n, x, y, hk, hk', hv'⟩ := hok _ _ hv
    rw [hk, hk']
    exact (related_done (.ok hv')).note hn n

end Plan

/-- Requests that are answered at once end alike, if the clock and the tokens are the same: either
the context refuses both calls, or both are recorded and answered. -/
theorem Plan.related_ask (hconfig : s'.config = s.config)
    (hclock : ∀ w w', W w w' → w'.now = w.now ∧ w'.tokens = w.tokens) {r r' : Request}
    {V : r.Answer → r'.Answer → Prop}
    (hserve : ∀ (context : Context) (w w' : World σ), W w w' → ∃ reply reply',
      s.serve r w.state = (.answer reply, w.state) ∧
      s'.serve r' w'.state = (.answer reply', w'.state) ∧
      Matched V (reply w.state).1 (reply' w'.state).1 ∧
      W { w with
          calls := w.calls ++ s.recordsOf context r w
          state := (reply w.state).2 }
        { w' with
          calls := w'.calls ++ s'.recordsOf context r' w'
          state := (reply' w'.state).2 }) :
    (Plan.ask r).Related W s s' (Matched V) (Plan.ask r') := by
  intro context w w' hw
  obtain ⟨hnow, htokens⟩ := hclock w w' hw
  have hcontext : s'.callContext context w'.now = s.callContext context w.now := by
    unfold Service.callContext
    rw [hconfig, hnow]
  have hsame : (s'.callContext context w'.now).check w'.tokens w'.now =
      (s.callContext context w.now).check w.tokens w.now := by
    rw [hcontext, htokens, hnow]
  rw [Plan.run_ask, Plan.run_ask]
  cases hcheck : (s.callContext context w.now).check w.tokens w.now with
  | error e =>
      rw [hcheck] at hsame
      rw [Service.call_of_ended hcheck, Service.call_of_ended hsame]
      exact ⟨.error e, hw⟩
  | ok u =>
      rw [hcheck] at hsame
      obtain ⟨reply, reply', hreply, hreply', hanswer, hafter⟩ := hserve _ w w' hw
      rw [Service.call_eq_of_prompt hreply hcheck, Service.call_eq_of_prompt hreply' hsame,
        hcontext]
      exact ⟨hanswer, hafter⟩

/-! ## Operations -/

/-- Two operations end in one error, or with values in a relation. -/
def Operation.Related (W : World σ → World σ → Prop) (s s' : Service σ) (V : α → β → Prop)
    (x : Operation α) (x' : Operation β) : Prop :=
  Plan.Related W s s' (Matched V) x.run x'.run

namespace Operation

theorem related_pure {a : α} {b : β} (h : V a b) :
    (pure a : Operation α).Related W s s' V (pure b : Operation β) :=
  Plan.related_done (.ok h)

theorem related_fail (e : PromotionError) :
    (fail e : Operation α).Related W s s' V (fail e : Operation β) :=
  Plan.related_done (.error e)

theorem related_step {p : Plan α} {p' : Plan β} (hp : p.Related W s s' V p') :
    (step p).Related W s s' V (step p') :=
  hp.bind fun _ _ hv => Plan.related_done (.ok hv)

theorem Related.bind {x : Operation α} {x' : Operation β} {f : α → Operation α'}
    {f' : β → Operation β'} (hx : x.Related W s s' V x')
    (hf : ∀ a b, V a b → (f a).Related W s s' V' (f' b)) :
    (x >>= f).Related W s s' V' (x' >>= f') := by
  refine Plan.Related.bind hx ?_
  rintro _ _ (e | hv)
  · exact related_fail e
  · exact hf _ _ hv

section Notes

variable (hn : s.SameNotes W s')
include hn

theorem related_log (level : Level) (message : String) (fields : List (String × LogValue)) :
    (step (Plan.log level message fields)).Related W s s' (fun _ _ => True)
      (step (Plan.log level message fields)) :=
  related_step ((Plan.related_done trivial).note hn _)

theorem related_note_fail (level : Level) (message : String) (fields : List (String × LogValue))
    (e : PromotionError) :
    (step (Plan.log level message fields) >>= fun _ => (fail e : Operation α)).Related W s s' V
      (step (Plan.log level message fields) >>= fun _ => (fail e : Operation β)) :=
  (related_log hn level message fields).bind fun _ _ _ => related_fail e

theorem related_query (m : Move) (action : String) {p : Plan (Except StoreError α)}
    {p' : Plan (Except StoreError β)} (hp : p.Related W s s' (Matched V) p') :
    (query m action p).Related W s s' V (query m action p') := by
  refine (related_step hp).bind ?_
  rintro _ _ (e | hv)
  · exact related_note_fail hn _ _ _ _
  · exact related_pure hv

/-- The common part of both operations ends alike when the project is judged alike and the stage is
the same, and when there is qualified freight on both sides or on neither. -/
theorem related_eligibleStage (m : Move) (candidates : Stage → List String) {P : Stage → Prop}
    (hvalidate : (Plan.ask (.validate m.project)).Related W s s' (Matched Eq)
      (Plan.ask (.validate m.project)))
    (hstage : (Plan.ask (.stage ⟨m.project, m.stage⟩)).Related W s s'
      (Matched fun a b => b = a ∧ ∀ stage, a = some stage → P stage)
      (Plan.ask (.stage ⟨m.project, m.stage⟩)))
    (hfreight : ∀ stage, P stage →
      (Plan.ask (.freight ⟨m.project, m.freight⟩ (candidates stage))).Related W s s'
        (Matched fun a b => b.isSome = a.isSome)
        (Plan.ask (.freight ⟨m.project, m.freight⟩ (candidates stage)))) :
    (eligibleStage m candidates).Related W s s' (fun a b => b = a ∧ P a)
      (eligibleStage m candidates) := by
  unfold eligibleStage
  cases m.flaw? with
  | some flaw => exact related_fail flaw
  | none =>
      refine (related_query hn m _ hvalidate).bind ?_
      rintro refusal _ rfl
      cases refusal with
      | error e => exact related_fail e
      | ok u =>
          refine (related_query hn m _ (hstage.note hn _)).bind ?_
          rintro _ found ⟨rfl, hfound⟩
          cases found with
          | none => exact related_note_fail hn _ _ _ _
          | some stage =>
              have hstage : P stage := hfound stage rfl
              have hqualified : (qualifiedFreight ⟨m.project, m.freight⟩
                  (candidates stage)).Related W s s' (Matched fun a b => b.isSome = a.isSome)
                  (qualifiedFreight ⟨m.project, m.freight⟩ (candidates stage)) :=
                (hfreight stage hstage).noting hn (fun _ => ⟨rfl, rfl⟩) fun a b hsome =>
                  ⟨_, a, b, rfl, by rw [← hsome]; rfl, hsome⟩
              refine (related_query hn m _ hqualified).bind ?_
              rintro (_ | freight) (_ | freight') hsome
              · exact related_note_fail hn _ _ _ _
              · cases hsome
              · cases hsome
              · exact related_pure ⟨rfl, hstage⟩

end Notes

end Operation

section Notes

variable (hn : s.SameNotes W s')
include hn

/-- A scan finds the same subscribers in the same listing. -/
theorem related_scanSubscribers (stage : Stage)
    (hstages : (Plan.ask (.stages stage.project)).Related W s s' (Matched Eq)
      (Plan.ask (.stages stage.project))) :
    (scanSubscribers stage).Related W s s' (Matched Eq) (scanSubscribers stage) := by
  have hlist : (listStages stage.project).Related W s s' (Matched Eq)
      (listStages stage.project) :=
    hstages.noting hn (fun _ => ⟨rfl, rfl⟩) fun a _ h => ⟨_, a, a, rfl, h ▸ rfl, rfl⟩
  exact hlist.noting hn (fun _ => ⟨rfl, rfl⟩) fun a _ h => ⟨_, _, _, rfl, h ▸ rfl, rfl⟩

/-- A cascade comes as far as its writes alike when its stage is eligible alike and the subscribers
that are found are the same. -/
theorem related_resolution (m : Move) {resolver resolver' : Resolver} {P : Stage → Prop}
    {Q : List Stage → Prop}
    (heligible : (eligibleStage m cascadeCandidates).Related W s s' (fun a b => b = a ∧ P a)
      (eligibleStage m cascadeCandidates))
    (hsubscribers : ∀ stage, P stage → (resolver.subscribers stage).Related W s s'
      (Matched fun a b => b = a ∧ Q a) (resolver'.subscribers stage)) :
    (resolution resolver m).Related W s s' (fun a b => b = a ∧ Q a) (resolution resolver' m) := by
  refine (Operation.related_log hn _ _ _).bind fun _ _ _ => heligible.bind ?_
  rintro _ stage ⟨rfl, hstage⟩
  refine (Operation.related_query hn m _ (hsubscribers stage hstage)).bind ?_
  rintro _ subscribers ⟨rfl, hfound⟩
  split
  · exact Operation.related_note_fail hn _ _ _ _
  · exact Operation.related_pure ⟨rfl, hfound⟩

/-! ## Reports and writes -/

theorem related_reportOutcomes (m : Move) (outcomes : List (Promotion × WriteOutcome)) :
    (reportOutcomes m outcomes).Related W s s' (fun _ _ => True) (reportOutcomes m outcomes) := by
  induction outcomes with
  | nil => exact Plan.related_done trivial
  | cons o rest ih =>
      obtain ⟨p, outcome⟩ := o
      cases outcome with
      | error e => exact (ih.note hn _).note hn _
      | ok u => exact (ih.note hn _).note hn _

end Notes

/-- Starting a write and waiting for it is a call. -/
theorem Service.land_startWrite (s : Service σ) (context : Context) (p : Promotion) (w : World σ) :
    Status.land (s.startWrite context p w) = s.call context (.create p) w := by
  unfold Service.startWrite Service.call World.call
  dsimp only
  rcases w.start (s.callContext context w.now) _ with ⟨result | f, v⟩
  · rfl
  · rfl

/-- When everything is answered at once, promotions are written alike if each of them is created
alike. -/
theorem Plan.related_writes {U : Promotion → Promotion → Prop} (hs : s.Prompt) (hs' : s'.Prompt)
    (hcreate : ∀ p p', U p p' → (Plan.ask (.create p)).Related W s s' (fun o o' => o' = o)
      (Plan.ask (.create p')))
    {ps ps' : List Promotion} (h : List.Forall₂ U ps ps') :
    (Plan.writes ps .done).Related W s s' (List.Forall₂ fun o o' => U o.1 o'.1 ∧ o'.2 = o.2)
      (Plan.writes ps' .done) := by
  intro context w w' hw
  show List.Forall₂ _ (s.write context ps w).1 (s'.write context ps' w').1 ∧
    W (s.write context ps w).2 (s'.write context ps' w').2
  rw [hs.write_eq, hs'.write_eq]
  induction h generalizing w w' with
  | nil => exact ⟨.nil, hw⟩
  | @cons p p' rest rest' hp _ ih =>
      obtain ⟨houtcome, hw'⟩ := hcreate p p' hp context w w' hw
      obtain ⟨hrest, hend⟩ := ih _ _ hw'
      simp only [Window.oneByOne, Service.land_startWrite]
      exact ⟨.cons ⟨hp, houtcome⟩ hrest, hend⟩

end Delivery
