import Delivery.Proofs.FreshNames
import Delivery.Proofs.Qualification

/-!
# Deeds and what a store gains

Both operations as one plan of a report (`Deed.plan`). Whatever is asked for, a store gains what is
reported as created, and nothing else (`Shared.gains_deed`).
-/

namespace Delivery

variable {σ : Type}

/-! ## Both operations -/

/-- What a service is asked for, as a plan of a report. -/
def Deed.plan (resolver : Resolver) : Deed → Plan Report
  | .stage m => (promoteStage m).run.bind fun answer => .done (.promoted answer)
  | .subscribers m => (promoteSubscribers resolver m).bind fun result => .done (.cascaded result)

section Run

variable (s : Service σ) (context : Context) (m : Move)

theorem Deed.run_stage (r : Resolver) (w : World σ) : ((stage m).plan r).run s context w =
    (.promoted ((promoteStage m).run.run s context w).1,
      ((promoteStage m).run.run s context w).2) := Plan.run_bind ..

theorem Deed.run_subscribers (r : Resolver) (w : World σ) :
    ((subscribers m).plan r).run s context w =
      (.cascaded ((promoteSubscribers r m).run s context w).1,
        ((promoteSubscribers r m).run s context w).2) := Plan.run_bind ..

end Run

/-! ## What a store gains -/

namespace Store

/-- From one store to another some promotions were created, each under an identity of its own that
was free before, and nothing else was. -/
structure Gains (s₀ : Store) (promotions : List Promotion) (s : Store) : Prop where
  created : ∀ id v, s.created.get? id = some v ↔
    s₀.created.get? id = some v ∨ ∃ p ∈ promotions, id = p.identity ∧ v = p.toJson
  fresh : ∀ p ∈ promotions, s₀.created.get? p.identity = none
  distinct : promotions.Pairwise fun p q => p.identity ≠ q.identity

variable {s₀ s₁ s₂ : Store} {ps qs : List Promotion}

theorem Gains.refl (s : Store) : Gains s [] s where
  created id v := by simp
  fresh p hp := by cases hp
  distinct := .nil

theorem Gains.trans (h : Gains s₀ ps s₁) (h' : Gains s₁ qs s₂) : Gains s₀ (ps ++ qs) s₂ where
  created id v := by
    rw [h'.created, h.created]
    simp only [List.mem_append, or_and_right, exists_or, or_assoc]
  fresh p hp := by
    rcases List.mem_append.1 hp with hp | hp
    · exact h.fresh p hp
    · cases hold : s₀.created.get? p.identity with
      | none => rfl
      | some v =>
          have hstill := (h.created _ v).2 (.inl hold)
          rw [h'.fresh p hp] at hstill
          cases hstill
  distinct := by
    refine List.pairwise_append.2 ⟨h.distinct, h'.distinct, ?_⟩
    intro p hp q hq heq
    -- The first is stored by the time the second finds its identity free.
    have hstored := (h.created p.identity p.toJson).2 (.inr ⟨p, hp, rfl, rfl⟩)
    rw [heq, h'.fresh q hq] at hstored
    cases hstored

/-- Changes that others make create nothing. -/
theorem Gains.changed (s : Store) (cs : List Change) : Gains s [] (s.changed cs) where
  created id v := by
    rw [Store.created_changed]
    simp
  fresh p hp := by cases hp
  distinct := .nil

/-- The promotions are added to the entries of the store. -/
theorem Gains.perm (h : Gains s₀ ps s₁) : s₁.created.toList.Perm
    (s₀.created.toList ++ ps.map fun p => (p.identity, p.toJson)) := by
  refine (List.perm_ext_iff_of_nodup (Table.nodup_toList _) ?_).2 ?_
  · refine List.nodup_append.2 ⟨Table.nodup_toList _, ?_, ?_⟩
    · exact List.pairwise_map.2 (h.distinct.imp fun hne heq => hne (Prod.mk.inj heq).1)
    · rintro ⟨id, v⟩ hold _ hnew rfl
      obtain ⟨p, hp, hentry⟩ := List.mem_map.1 hnew
      obtain ⟨rfl, -⟩ := Prod.mk.inj hentry
      have hget := Table.mem_toList_iff.1 hold
      rw [h.fresh p hp] at hget
      cases hget
  · rintro ⟨id, v⟩
    rw [Table.mem_toList_iff, h.created, List.mem_append, Table.mem_toList_iff, List.mem_map]
    simp only [Prod.mk.injEq, eq_comm]

end Store

namespace Shared

variable {validates : Bool} {index : Option (Shared → Stage → List Stage)}
  {stamps : Nat → Promotion.Stamp} {sink : Sink} {config : Config}

theorem Written.gains {P : Store.Change → Prop} {s₀ s : Shared}
    {L : List (Promotion × WriteOutcome)} (h : Written P s₀ L s) :
    s₀.store.Gains (successes L) s.store where
  created id v := by
    rw [h.created]
    simp only [mem_successes]
  fresh p hp := h.fresh p (mem_successes.1 hp)
  distinct := h.pairwise_successes

/-- The store gains what is reported as created. -/
theorem gains_deed (d : Deed) (context : Context) (w : World Shared) :
    let service := service validates index stamps sink config
    let done := (d.plan service.resolver).run service context w
    w.state.store.Gains done.1.created done.2.state.store := by
  intro service done
  cases d with
  | stage m =>
      obtain ⟨L, hwritten, hreturned⟩ : ∃ L, Written (fun _ => True) w.state L
          ((promoteStage m).run.run service context w).2.state ∧ successes L = _ :=
        promoteStage_written m context w (allows_any _)
      have hgains := hwritten.gains
      rw [hreturned] at hgains
      simp only [done, Deed.run_stage]
      exact hgains
  | subscribers m =>
      obtain ⟨L, hwritten, hresult⟩ : ∃ L, Written (fun _ => True) w.state L
          ((promoteSubscribers service.resolver m).run service context w).2.state ∧
            successes L = _ :=
        promoteSubscribers_written service.resolver m context w (allows_any _)
      have hgains := hwritten.gains
      rw [hresult] at hgains
      simp only [done, Deed.run_subscribers]
      exact hgains

end Shared

end Delivery
