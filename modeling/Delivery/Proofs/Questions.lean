import Delivery.Proofs.Operations

/-!
# Plans that only ask

Before they write, the operations only put questions and write lines to the log: such a plan
(`Plan.Inquires`) tells of no event, and neither builds nor creates anything. Of the common part of
both operations, and of finding subscribers, that is all there is to know.
-/

namespace Delivery

variable {α β : Type}

/-- The event that a note tells of. -/
def Note.event? : Note → Option Event
  | line _ => none
  | event e => some e

/-- What a request is to create. -/
def Request.created : Request → List Promotion
  | create p => [p]
  | _ => []

theorem Request.created_eq_nil {r : Request} (hr : ∀ p, r ≠ .create p) : r.created = [] := by
  cases r with
  | create p => exact absurd rfl (hr p)
  | _ => rfl

/-- A plan that puts questions and writes lines to the log. -/
def Plan.Inquires : Plan α → Prop
  | .done _ => True
  | .note n next => n.event? = none ∧ next.Inquires
  | .call r next => (∀ p, r ≠ .create p) ∧ ∀ a, (next a).Inquires
  | .build .. => False
  | .writes .. => False

namespace Plan

theorem inquires_done (a : α) : (Plan.done a).Inquires := trivial

theorem inquires_log (level : Level) (message : String) (fields : List (String × LogValue)) :
    (Plan.log level message fields).Inquires := ⟨rfl, trivial⟩

theorem inquires_ask {r : Request} (hr : ∀ p, r ≠ .create p) : (Plan.ask r).Inquires :=
  ⟨hr, fun _ => trivial⟩

theorem Inquires.bind {p : Plan α} {f : α → Plan β} (hp : p.Inquires)
    (hf : ∀ a, (f a).Inquires) : (p.bind f).Inquires := by
  induction p with
  | done a => exact hf a
  | note n next ih => exact ⟨hp.1, ih hp.2⟩
  | call r next ih => exact ⟨hp.1, fun a => ih a (hp.2 a)⟩
  | build stage freight next => cases hp
  | writes promotions next => cases hp

/-- A failure is passed on; of an answer only a line is written. -/
theorem Inquires.noting {p : Plan (Except StoreError α)} (hp : p.Inquires)
    {k : Except StoreError α → Plan (Except StoreError β)} {g : α → β} {line : α → LogLine}
    (herror : ∀ e, k (.error e) = .done (.error e))
    (hok : ∀ a, k (.ok a) = .note (.line (line a)) (.done (.ok (g a)))) :
    (p.bind k).Inquires := by
  apply hp.bind
  rintro (e | a)
  · rw [herror]
    trivial
  · rw [hok]
    exact ⟨rfl, trivial⟩

end Plan

/-! ## Queries -/

theorem inquires_fetchStage (key : Key) : (fetchStage key).Inquires :=
  (Plan.inquires_log _ _ _).bind fun _ => Plan.inquires_ask (by simp)

theorem inquires_listStages (project : String) : (listStages project).Inquires :=
  (Plan.inquires_ask (by simp)).noting (fun _ => rfl) (fun _ => rfl)

theorem inquires_qualifiedFreight (key : Key) (candidates : List String) :
    (qualifiedFreight key candidates).Inquires :=
  (Plan.inquires_ask (by simp)).noting (fun _ => rfl) (fun _ => rfl)

theorem Resolver.inquires_subscribers (r : Resolver) (stage : Stage) :
    (r.subscribers stage).Inquires := by
  cases r with
  | scan => exact (inquires_listStages _).noting (fun _ => rfl) (fun _ => rfl)
  | index => exact Plan.inquires_ask (by simp)

/-! ## Operations -/

namespace Operation

/-- An operation that puts questions and writes lines to the log. -/
def Inquires (x : Operation α) : Prop := x.run.Inquires

theorem inquires_pure (a : α) : Inquires (pure a : Operation α) := trivial

theorem inquires_fail (e : PromotionError) : Inquires (fail e : Operation α) := trivial

theorem inquires_step {p : Plan α} (hp : p.Inquires) : Inquires (step p) :=
  hp.bind fun a => Plan.inquires_done (Except.ok a : Except PromotionError α)

theorem Inquires.bind {x : Operation α} {f : α → Operation β} (hx : Inquires x)
    (hf : ∀ a, Inquires (f a)) : Inquires (x >>= f) := by
  apply Plan.Inquires.bind hx
  rintro (e | a)
  · exact Plan.inquires_done _
  · exact hf a

theorem inquires_note_fail (level : Level) (message : String) (fields : List (String × LogValue))
    (e : PromotionError) :
    Inquires (step (Plan.log level message fields) >>= fun _ => (fail e : Operation α)) :=
  (inquires_step (Plan.inquires_log _ _ _)).bind fun _ => inquires_fail e

theorem inquires_query (m : Move) (action : String) {p : Plan (Except StoreError α)}
    (hp : p.Inquires) : Inquires (query m action p) := by
  apply (inquires_step hp).bind
  rintro (e | a)
  · exact inquires_note_fail _ _ _ _
  · exact inquires_pure a

end Operation

open Operation in
/-- Finding out whether a stage is eligible is only asking. -/
theorem inquires_eligibleStage (m : Move) (candidates : Stage → List String) :
    Inquires (eligibleStage m candidates) := by
  unfold eligibleStage
  cases m.flaw? with
  | some e => exact inquires_fail e
  | none =>
      apply (inquires_query m _ (Plan.inquires_ask (by simp))).bind
      rintro (e | ⟨⟩)
      · exact inquires_fail e
      apply (inquires_query m _ (inquires_fetchStage _)).bind
      rintro (_ | stage)
      · exact inquires_note_fail _ _ _ _
      apply (inquires_query m _ (inquires_qualifiedFreight _ _)).bind
      rintro (_ | freight)
      · exact inquires_note_fail _ _ _ _
      · exact inquires_pure stage

/-- And so is finding the subscribers. -/
theorem inquires_resolution (resolver : Resolver) (m : Move) :
    Operation.Inquires (resolution resolver m) := by
  apply (Operation.inquires_step (Plan.inquires_log _ _ _)).bind
  intro _
  apply (inquires_eligibleStage m _).bind
  intro stage
  apply (Operation.inquires_query m _ (resolver.inquires_subscribers stage)).bind
  intro subscribers
  split
  · exact Operation.inquires_note_fail _ _ _ _
  · exact Operation.inquires_pure _

end Delivery
