import Delivery.Proofs.Accounting
import Delivery.Proofs.SharedStore

/-!
# What operations do to a store

Put together from their requests, the two operations leave exactly their reported promotions at a
shared store: promoting a stage what it returns (`Shared.promoteStage_written`), and a cascade what
its result has (`Shared.promoteSubscribers_written`).
-/

namespace Delivery.Shared

variable {validates : Bool} {index : Option (Shared → Stage → List Stage)}
  {stamps : Nat → Promotion.Stamp} {sink : Sink} {config : Config} {context : Context} {m : Move}
  {P : Store.Change → Prop} {s₀ s s' : Shared} {L : List (Promotion × WriteOutcome)}
  {w w' : World Shared}

/-! ## Stores stay sound -/

theorem Written.sound (h : Written P s₀ L s) (hs : s₀.store.Sound) : s.store.Sound := by
  obtain ⟨cs, -, hstore⟩ := h.drift
  have hchanged := hs.changed cs
  refine ⟨?_, ?_, ?_⟩
  · rw [hstore]
    exact hchanged.stages
  · rw [hstore]
    exact hchanged.freight
  · intro id v hv
    rcases (h.created id v).1 hv with hold | ⟨p, -, rfl, rfl⟩
    · exact hs.created hold
    · exact ⟨.promotion p, rfl, rfl⟩

/-- An answer that the store gave is kept beside it, with the store that gave it. -/
theorem Exchange.inquiry {r : Request} {x : r.Answer} (h : Exchange true r (.ok x) s s')
    (hs : s.store.Sound) : ∃ store : Store, store.Sound ∧ (store.reply r).1 = .ok x ∧
      s'.inquiries = s.inquiries ++ [⟨r, store⟩] := by
  generalize ha : (Except.ok x : Except StoreError r.Answer) = a at h
  cases h with
  | refused => cases ha
  | ended => cases ha
  | answered => exact ⟨s.store.changed s.next.changes, hs.changed _, rfl, rfl⟩
  | own hown => cases hown

/-! ## Up to the writes -/

theorem written_of_asked {r : Request} {a : Except StoreError r.Answer}
    (h : (service validates index stamps sink config).Asked context r a w w')
    (hr : ∀ p, r ≠ .create p) (hw : w.state.Allows P) : Written P w.state [] w'.state :=
  (exchange_of_asked h).written hr hw

/-- Finding out whether a stage is eligible leaves nothing. -/
theorem written_of_eligible {candidates : Stage → List String} {a : Except PromotionError Stage}
    (h : (service validates index stamps sink config).Eligible context m candidates a w w')
    (hw : w.state.Allows P) : Written P w.state [] w'.state :=
  h.keeps (R := fun u v => u.state.Allows P → Written P u.state [] v.state)
    (fun h _ => by rw [h.state_eq]; exact .refl _)
    (fun h₁ h₂ hu => (h₁ hu).trans (h₂ ((h₁ hu).allows hu)))
    (fun hr h hu => written_of_asked h hr hu) hw

/-- Finding its subscribers leaves nothing either. -/
theorem written_of_resolves {resolver : Resolver} {a : Except PromotionError (List Stage)}
    (h : (service validates index stamps sink config).Resolves context m resolver a w w')
    (hw : w.state.Allows P) : Written P w.state [] w'.state :=
  h.keeps (R := fun u v => u.state.Allows P → Written P u.state [] v.state)
    (fun h _ => by rw [h.state_eq]; exact .refl _)
    (fun h₁ h₂ hu => (h₁ hu).trans (h₂ ((h₁ hu).allows hu)))
    (fun hr h hu => written_of_asked h hr hu) hw

/-! ## Whole operations -/

/-- The promotions whose writes succeeded, in order. -/
def successes (L : List (Promotion × WriteOutcome)) : List Promotion :=
  (L.filter fun o => o.2.isOk).map Prod.fst

theorem mem_successes {p : Promotion} : p ∈ successes L ↔ (p, .ok ()) ∈ L := by
  unfold successes
  rw [List.mem_map]
  constructor
  · rintro ⟨⟨q, o⟩, hmem, rfl⟩
    obtain ⟨hmem, hok⟩ := List.mem_filter.1 hmem
    rcases o with e | ⟨⟩
    · cases hok
    · exact hmem
  · intro h
    exact ⟨(p, .ok ()), List.mem_filter.2 ⟨h, rfl⟩, rfl⟩

/-- What was written successfully has identities of its own. -/
theorem Written.pairwise_successes (h : Written P s₀ L s) :
    (successes L).Pairwise fun p q => p.identity ≠ q.identity := by
  unfold successes
  rw [List.pairwise_map, List.pairwise_filter]
  refine h.distinct.imp ?_
  rintro ⟨p, o⟩ ⟨q, o'⟩ hne hp hq
  rcases o with e | ⟨⟩
  · cases hp
  · rcases o' with e | ⟨⟩
    · cases hq
    · exact hne rfl rfl

/-- Promoting a stage writes what it returns, and nothing when it fails. -/
theorem promoteStage_written (m : Move) (context : Context) (w : World Shared)
    (hw : w.state.Allows P) :
    ∃ L, Written P w.state L
        ((promoteStage m).run.run (service validates index stamps sink config) context w).2.state ∧
      successes L = ((promoteStage m).run.run (service validates index stamps sink config)
        context w).1.toOption.toList := by
  obtain ⟨a, w', hrun, hpromotes⟩ :=
    (service validates index stamps sink config).promoteStage_cases context m w
  rw [hrun]
  cases hpromotes with
  | rejected h => exact ⟨[], written_of_eligible h hw, rfl⟩
  | failed h hasked =>
      have h := written_of_eligible h hw
      exact ⟨_, h.trans ((exchange_of_asked hasked).written_create (h.allows hw)), rfl⟩
  | created h hasked =>
      have h := written_of_eligible h hw
      exact ⟨_, h.trans ((exchange_of_asked hasked).written_create (h.allows hw)), rfl⟩

/-- A cascade writes what its result has. -/
theorem promoteSubscribers_written (resolver : Resolver) (m : Move) (context : Context)
    (w : World Shared) (hw : w.state.Allows P) :
    ∃ L, Written P w.state L
        ((promoteSubscribers resolver m).run (service validates index stamps sink config)
          context w).2.state ∧
      successes L =
        ((promoteSubscribers resolver m).run (service validates index stamps sink config)
          context w).1.promotions := by
  obtain ⟨r, w', hrun, hcascades⟩ := (service validates index stamps sink
    config).promoteSubscribers_cases context resolver m w
  rw [hrun]
  cases hcascades with
  | rejected h => exact ⟨[], written_of_resolves h hw, rfl⟩
  | cascaded h hwrite hnoted =>
      have hu := written_of_resolves h hw
      have hwritten := written_of_write hwrite (hu.allows hw)
      rw [hnoted.state_eq]
      refine ⟨_, hu.trans hwritten, ?_⟩
      rw [Collector.ofOutcomes_eq]
      rfl

end Delivery.Shared
