import Delivery.Proofs.Recording
import Delivery.Proofs.SideBySide

/-!
# Runs that agree

A request can be carried out twice: by two services that find subscribers in different ways, or over
two stores of which one has something that the other has not. `Plan.Agrees` compares the two runs.
As long as every answer is the same both times, so is the value that the plan comes to, and
everything in the world but the record of the calls, the log, and what the two states differ in.

* `Operation.agrees_eligibleStage`, `agrees_resolution` — both operations up to their writes, given
  that the answers agree;
* `Plan.agrees_ask` — answers that are given at once.
-/

namespace Delivery

variable {σ α : Type}

/-- The second of two worlds differs from the first in the recorded calls, in the log, and in the
state, where the two are related. -/
def World.Alike (R : σ → σ → Prop) (w w' : World σ) : Prop :=
  ∃ calls logs state, w' = { w with calls, logs, state } ∧ R w.state state

/-- Two services that stamp promotions alike, with one configuration. -/
structure Service.Twins (s s' : Service σ) : Prop where
  stamps : s'.stamps = s.stamps
  config : s'.config = s.config

theorem Service.Twins.refl (s : Service σ) : s.Twins s := ⟨rfl, rfl⟩

theorem World.Alike.imp {R R' : σ → σ → Prop} {w w' : World σ} (h : w.Alike R w')
    (himp : ∀ x x', R x x' → R' x x') : w.Alike R' w' := by
  obtain ⟨calls, logs, state, rfl, hstate⟩ := h
  exact ⟨calls, logs, state, rfl, himp _ _ hstate⟩

/-- Notes are taken in both worlds. -/
theorem Service.Twins.sameNotes {R : σ → σ → Prop} {s s' : Service σ} (hs : s.Twins s') :
    s.SameNotes (World.Alike R) s' := by
  refine Service.sameNotes_of hs.config ?_
  rintro w _ ⟨calls, logs, state, rfl, hstate⟩
  exact ⟨rfl, fun lines sink => ⟨_, _, _, rfl, hstate⟩⟩

/-! ## Plans -/

/-- From worlds that are alike, a plan of one service and a plan of another come to the same value,
of which something is known, in worlds that are alike again. -/
def Plan.Agrees (R : σ → σ → Prop) (s s' : Service σ) (P : α → Prop) (p p' : Plan α) : Prop :=
  ∀ (context : Context) (w w' : World σ), w.Alike R w' →
    (p'.run s' context w').1 = (p.run s context w).1 ∧ P (p.run s context w).1 ∧
      (p.run s context w).2.Alike R (p'.run s' context w').2

section Rules

variable {R : σ → σ → Prop} {s s' : Service σ} {P : α → Prop} {p p' : Plan α}

theorem Plan.agrees_iff :
    p.Agrees R s s' P p' ↔ p.Related (World.Alike R) s s' (fun a b => b = a ∧ P a) p' := by
  simp only [Agrees, Related, and_assoc]

theorem Plan.Agrees.imp {P' : α → Prop} (h : p.Agrees R s s' P p') (himp : ∀ a, P a → P' a) :
    p.Agrees R s s' P' p' :=
  agrees_iff.2 ((agrees_iff.1 h).imp fun _ _ ⟨hvalue, ha⟩ => ⟨hvalue, himp _ ha⟩)

/-- Answers that agree are one failure or the same. -/
theorem Plan.Agrees.matched {V : α → α → Prop} {p p' : Plan (Except StoreError α)}
    {P : Except StoreError α → Prop} (h : p.Agrees R s s' P p') (hV : ∀ a, P (.ok a) → V a a) :
    p.Related (World.Alike R) s s' (Matched V) p' := by
  refine (agrees_iff.1 h).imp ?_
  rintro (e | a) _ ⟨rfl, ha⟩
  · exact .error e
  · exact .ok (hV a ha)

/-- Building promotions is counted in both worlds, and their stamps are the same. -/
theorem Plan.agrees_promotions (hs : s.Twins s') (stages : List Stage) (freight : String) :
    (Plan.promotions stages freight).Agrees R s s' (fun _ => True)
      (Plan.promotions stages freight) := by
  intro context w w' hw
  obtain ⟨calls, logs, state, rfl, hstate⟩ := hw
  have hpromotions : s'.promotionsOf stages freight w.built =
      s.promotionsOf stages freight w.built := by
    unfold Service.promotionsOf
    rw [hs.stamps]
  rw [Plan.run_promotions, Plan.run_promotions]
  exact ⟨hpromotions, trivial, _, _, _, rfl, hstate⟩

end Rules

/-! ## Questions -/

/-- Answers that are given at once agree when they are the same in related states. -/
theorem Plan.agrees_ask {R : σ → σ → Prop} {s s' : Service σ} (hs : s.Twins s') {r : Request}
    {P : Except StoreError r.Answer → Prop} (herror : ∀ e, P (.error e))
    (hserve : ∀ x x', R x x' → ∃ reply reply', s.serve r x = (.answer reply, x) ∧
      s'.serve r x' = (.answer reply', x') ∧ (reply' x').1 = (reply x).1 ∧ P (reply x).1 ∧
      R (reply x).2 (reply' x').2) :
    (Plan.ask r).Agrees R s s' P (Plan.ask r) := by
  have hrelated : (Plan.ask r).Related (World.Alike R) s s'
      (Matched fun a b => b = a ∧ P (.ok a)) (Plan.ask r) := by
    refine related_ask hs.config ?_ ?_
    · rintro w _ ⟨calls, logs, state, rfl, -⟩
      exact ⟨rfl, rfl⟩
    · rintro context w _ ⟨calls, logs, state, rfl, hstate⟩
      obtain ⟨reply, reply', hreply, hreply', hsame, hanswer, hafter⟩ := hserve _ _ hstate
      refine ⟨reply, reply', hreply, hreply', matched_same.2 ⟨hsame, ?_⟩, _, logs, _, rfl, hafter⟩
      intro a ha
      rw [← ha]
      exact hanswer
  refine agrees_iff.2 (hrelated.imp ?_)
  rintro _ _ (e | ⟨rfl, ha⟩)
  · exact ⟨rfl, herror e⟩
  · exact ⟨rfl, ha⟩

/-! ## Operations -/

/-- Two operations agree, and something is known of what they come to when they do not fail. -/
def Operation.Agrees (R : σ → σ → Prop) (s s' : Service σ) (P : α → Prop) (x x' : Operation α) :
    Prop :=
  Plan.Agrees R s s' (fun a => ∀ v, a = .ok v → P v) x.run x'.run

theorem Operation.agrees_iff {R : σ → σ → Prop} {s s' : Service σ} {P : α → Prop}
    {x x' : Operation α} :
    x.Agrees R s s' P x' ↔ x.Related (World.Alike R) s s' (fun a b => b = a ∧ P a) x' := by
  unfold Operation.Agrees Operation.Related
  rw [Plan.agrees_iff]
  exact ⟨fun h => h.imp fun _ _ => matched_same.2, fun h => h.imp fun _ _ => matched_same.1⟩

/-- The common part of both operations agrees when the answers to its questions do. -/
theorem Operation.agrees_eligibleStage {R : σ → σ → Prop} {s s' : Service σ} (hs : s.Twins s')
    (m : Move) (candidates : Stage → List String) {P : Stage → Prop}
    (hvalidate : (Plan.ask (.validate m.project)).Agrees R s s' (fun _ => True)
      (Plan.ask (.validate m.project)))
    (hstage : (Plan.ask (.stage ⟨m.project, m.stage⟩)).Agrees R s s'
      (fun a => ∀ stage, a = .ok (some stage) → P stage)
      (Plan.ask (.stage ⟨m.project, m.stage⟩)))
    (hfreight : ∀ names, (Plan.ask (.freight ⟨m.project, m.freight⟩ names)).Agrees R s s'
      (fun _ => True) (Plan.ask (.freight ⟨m.project, m.freight⟩ names))) :
    (eligibleStage m candidates).Agrees R s s' P (eligibleStage m candidates) := by
  refine agrees_iff.2 (related_eligibleStage hs.sameNotes m candidates ?_ ?_ ?_)
  · exact hvalidate.matched fun _ _ => rfl
  · exact hstage.matched fun found hfound => ⟨rfl, fun stage h => hfound stage (congrArg _ h)⟩
  · exact fun stage _ => (hfreight _).matched fun _ _ => rfl

theorem agrees_scanSubscribers {R : σ → σ → Prop} {s s' : Service σ} (hs : s.Twins s')
    (stage : Stage)
    (hstages : (Plan.ask (.stages stage.project)).Agrees R s s' (fun _ => True)
      (Plan.ask (.stages stage.project))) :
    (scanSubscribers stage).Agrees R s s' (fun _ => True) (scanSubscribers stage) := by
  have hrelated : (scanSubscribers stage).Related (World.Alike R) s s' (Matched Eq)
      (scanSubscribers stage) :=
    related_scanSubscribers hs.sameNotes stage (hstages.matched fun _ _ => rfl)
  refine Plan.agrees_iff.2 (hrelated.imp ?_)
  rintro _ _ (e | rfl)
  · exact ⟨rfl, trivial⟩
  · exact ⟨rfl, trivial⟩

/-- A cascade agrees up to its writes when the answers to its questions and the subscribers that are
found do. -/
theorem agrees_resolution {R : σ → σ → Prop} {s s' : Service σ} (hs : s.Twins s') (m : Move)
    {resolver resolver' : Resolver} {P : Stage → Prop} {Q : List Stage → Prop}
    (heligible : (eligibleStage m cascadeCandidates).Agrees R s s' P
      (eligibleStage m cascadeCandidates))
    (hsubscribers : ∀ stage, P stage → (resolver.subscribers stage).Agrees R s s'
      (fun a => ∀ l, a = .ok l → Q l) (resolver'.subscribers stage)) :
    (resolution resolver m).Agrees R s s' Q (resolution resolver' m) :=
  Operation.agrees_iff.2 <| related_resolution hs.sameNotes m (Operation.agrees_iff.1 heligible)
    fun stage hstage => (hsubscribers stage hstage).matched fun l hl => ⟨rfl, hl l rfl⟩

/-! ## Writes -/

/-- Promotions are written alike from one state. -/
theorem Plan.agrees_writes {s s' : Service σ} (hwrite : s'.write = s.write)
    (promotions : List Promotion) :
    (Plan.writes promotions .done).Agrees Eq s s' (fun _ => True) (.writes promotions .done) := by
  intro context w w' hw
  obtain ⟨calls, logs, state, rfl, rfl⟩ := hw
  obtain ⟨new, hrun⟩ := Window.run_recorded (s.startWrite_recorded context)
    ⟨s.config.maxConcurrentWrites, promotions, []⟩ w
  have hquiet : (s.write context promotions w).2.sink = w.sink :=
    congrArg (fun r => r.2.sink) (hrun w.calls w.logs w.sink)
  have hwritten : s'.write context promotions { w with calls, logs } =
      ((s.write context promotions w).1,
        { (s.write context promotions w).2 with calls := calls ++ new, logs }) := by
    rw [hwrite]
    refine (hrun calls logs w.sink).trans ?_
    rw [← hquiet]
    rfl
  show (s'.write context promotions { w with calls, logs }).1 = _ ∧ True ∧
    World.Alike Eq _ (s'.write context promotions { w with calls, logs }).2
  rw [hwritten]
  exact ⟨rfl, trivial, _, logs, _, rfl, rfl⟩

/-- A cascade that has found its subscribers goes on alike from one state. -/
theorem agrees_cascadeTo {s s' : Service σ} (hs : s.Twins s') (hwrite : s'.write = s.write)
    (m : Move) (subscribers : List Stage) :
    (cascadeTo m subscribers).Agrees Eq s s' (fun _ => True) (cascadeTo m subscribers) := by
  have hn : s.SameNotes (World.Alike Eq) s' := hs.sameNotes
  refine Plan.agrees_iff.2 ?_
  refine (Plan.agrees_iff.1 (Plan.agrees_promotions hs subscribers m.freight)).bind ?_
  rintro _ promotions ⟨rfl, -⟩
  refine (Plan.agrees_iff.1 (Plan.agrees_writes hwrite promotions)).bind ?_
  rintro _ outcomes ⟨rfl, -⟩
  refine (related_reportOutcomes hn m outcomes).bind fun _ _ _ => ?_
  exact ((Plan.related_done ⟨rfl, trivial⟩).note hn _).note hn _

end Delivery
