import Delivery.Proofs.StoreEffects

/-!
# Only qualified freight

A promotion is written only after the operation that writes it has read a freight that is qualified
for it. The reads come before the write and others may change the store in between, so what counts
is what the reads saw: the questions that the store answered during an operation are its log, and a
promotion is justified by a log (`Deed.Justifies`). `Shared.Runs` strings operations together, with
anything between them.

* `Shared.promoteStage_justified`, `Shared.promoteSubscribers_justified` — one operation;
* `Shared.stored_promotions_justified` — any number of them.
-/

namespace Delivery

/-- An operation that a service was asked for. -/
inductive Deed where
  | stage (m : Move)
  | subscribers (m : Move)

/-- What the operation was asked for. -/
def Deed.move : Deed → Move
  | stage m | subscribers m => m

/-- The questions that came before the write of a promotion, in this order, and what the store
answered. To promote a stage, the stage is read, then a freight that is qualified for it or for one
of the sources that it has as it was read; to cascade, a freight that is qualified for the stage,
then a listing in which the promotion's own stage is one of the subscribers. -/
def Deed.Grounds (log : List Inquiry) (p : Promotion) : Deed → Prop
  | .stage m => ∃ (stage : Stage) (freight : Freight) (s₁ s₂ s₃ : Store),
      [⟨.stage ⟨m.project, m.stage⟩, s₁⟩,
        ⟨.freight ⟨m.project, m.freight⟩ (promotionCandidates stage), s₂⟩,
        ⟨.create p, s₃⟩].Sublist log ∧
      s₁.getStage ⟨m.project, m.stage⟩ = .ok (some stage) ∧ p.stage = m.stage ∧
      s₂.getQualifiedFreight ⟨m.project, m.freight⟩ (promotionCandidates stage) =
        .ok (some freight) ∧
      s₂.freight.get? ⟨m.project, m.freight⟩ = some freight ∧
      freight.key = ⟨m.project, m.freight⟩ ∧
      (freight.isQualifiedFor p.stage = true ∨
        ∃ source ∈ stage.sourceNames, freight.isQualifiedFor source = true)
  | .subscribers m => ∃ (freight : Freight) (listing : List Stage) (s₁ s₂ s₃ : Store),
      [⟨.freight ⟨m.project, m.freight⟩ [m.stage], s₁⟩, ⟨.stages m.project, s₂⟩,
        ⟨.create p, s₃⟩].Sublist log ∧
      s₁.getQualifiedFreight ⟨m.project, m.freight⟩ [m.stage] = .ok (some freight) ∧
      s₁.freight.get? ⟨m.project, m.freight⟩ = some freight ∧
      freight.key = ⟨m.project, m.freight⟩ ∧ freight.isQualifiedFor m.stage = true ∧
      s₂.listStages m.project = .ok listing ∧
      ∃ subscriber ∈ listing, subscriber.name = p.stage ∧ subscriber.subscribesTo m.stage = true

/-- An operation with its log justifies a promotion: it is what was asked for, it is owned by its
stage, and it was written on grounds. -/
structure Deed.Justifies (d : Deed) (log : List Inquiry) (p : Promotion) : Prop where
  project : p.project = d.move.project
  freight : p.freight = d.move.freight
  owners : p.metadata.owners = [⟨"Stage", p.stage⟩]
  grounds : d.Grounds log p

/-! ## Candidates -/

theorem mem_distinct_go {seen names : List String} {n : String} :
    n ∈ distinct.go seen names ↔ n ∈ names ∧ n ∉ seen := by
  induction names generalizing seen with
  | nil => simp [distinct.go]
  | cons a rest ih =>
      unfold distinct.go
      by_cases ha : seen.contains a = true
      · rw [if_pos ha, ih]
        have ha : a ∈ seen := by simpa using ha
        constructor
        · exact fun h => ⟨List.mem_cons_of_mem _ h.1, h.2⟩
        · rintro ⟨h, hn⟩
          rcases List.mem_cons.1 h with rfl | h
          · exact absurd ha hn
          · exact ⟨h, hn⟩
      · rw [if_neg ha, List.mem_cons, List.mem_cons, ih, List.mem_cons]
        have ha : a ∉ seen := by simpa using ha
        by_cases hn : n = a
        · subst hn
          simp [ha]
        · simp [hn]

/-- Leaving out repetitions loses nobody. -/
theorem mem_distinct {names : List String} {n : String} : n ∈ distinct names ↔ n ∈ names := by
  unfold distinct
  rw [mem_distinct_go]
  simp

theorem qualified_of_promotionCandidates {freight : Freight} {stage : Stage}
    (h : freight.isQualifiedForAny (promotionCandidates stage) = true) :
    freight.isQualifiedFor stage.name = true ∨
      ∃ source ∈ stage.sourceNames, freight.isQualifiedFor source = true := by
  obtain ⟨candidate, hmem, hq⟩ := List.any_eq_true.1 h
  rcases List.mem_cons.1 (mem_distinct.1 hmem) with rfl | hsource
  · exact .inl hq
  · exact .inr ⟨candidate, hsource, hq⟩

namespace Shared

variable {validates : Bool} {stamps : Nat → Promotion.Stamp} {sink : Sink} {config : Config}
  {context : Context} {m : Move} {w w' : World Shared}

/-! ## What was asked before the writes -/

/-- The questions with which both operations begin: the stage, and a freight for its candidates. -/
theorem inquiries_of_eligible {index : Option (Shared → Stage → List Stage)}
    {candidates : Stage → List String} {stage : Stage}
    (h : (service validates index stamps sink config).Eligible context m candidates (.ok stage)
      w w') (hw : w.state.store.Sound) :
    ∃ (s₁ s₂ : Store) (freight : Freight) (new : List Inquiry),
      w'.state.inquiries = w.state.inquiries ++ new ∧
      [⟨.stage ⟨m.project, m.stage⟩, s₁⟩,
        ⟨.freight ⟨m.project, m.freight⟩ (candidates stage), s₂⟩].Sublist new ∧
      s₁.getStage ⟨m.project, m.stage⟩ = .ok (some stage) ∧ stage.key = ⟨m.project, m.stage⟩ ∧
      s₂.getQualifiedFreight ⟨m.project, m.freight⟩ (candidates stage) = .ok (some freight) ∧
      s₂.freight.get? ⟨m.project, m.freight⟩ = some freight ∧
      freight.key = ⟨m.project, m.freight⟩ ∧
      freight.isQualifiedForAny (candidates stage) = true := by
  cases h with
  | @eligible _ freight _ u v _ _ h₁ h₂ h₃ =>
      have hu := written_of_asked h₁ (by simp) (allows_any _)
      obtain ⟨new₁, hnew₁, -⟩ := hu.inquiries
      obtain ⟨s₁, hs₁, hstage, hnew₂⟩ := (exchange_of_asked h₂).inquiry (hu.sound hw)
      have hv := hu.trans (written_of_asked h₂ (by simp) (allows_any _))
      obtain ⟨s₂, hs₂, hfreight, hnew₃⟩ := (exchange_of_asked h₃).inquiry (hv.sound hw)
      obtain ⟨hget, hq⟩ := Store.getQualifiedFreight_eq_some hfreight
      refine ⟨s₁, s₂, freight,
        new₁ ++ [⟨.stage ⟨m.project, m.stage⟩, s₁⟩,
          ⟨.freight ⟨m.project, m.freight⟩ (candidates stage), s₂⟩], ?_,
        List.sublist_append_right _ _, hstage, hs₁.stages (Store.getStage_eq_some hstage),
        hfreight, hget, hs₂.freight hget, hq⟩
      rw [hnew₃, hnew₂, hnew₁]
      simp

/-- A promotion that an operation adds to the store is justified. -/
theorem promoteStage_justified (w : World Shared) (hw : w.state.store.Sound) {id : Identity}
    {v : Json}
    (hv : ((promoteStage m).run.run (service validates none stamps sink config)
      context w).2.state.store.created.get? id = some v) :
    w.state.store.created.get? id = some v ∨
    ∃ p : Promotion, id = p.identity ∧ v = p.toJson ∧ (Deed.stage m).Justifies
      (((promoteStage m).run.run (service validates none stamps sink config)
        context w).2.state.inquiries.drop w.state.inquiries.length) p := by
  obtain ⟨a, w', hrun, hpromotes⟩ :=
    (service validates none stamps sink config).promoteStage_cases context m w
  rw [hrun] at hv ⊢
  cases hpromotes with
  | rejected h =>
      rcases ((written_of_eligible h (allows_any _)).created id v).1 hv with hold | ⟨p, hp, -⟩
      · exact .inl hold
      · cases hp
  | @failed stage e _ u _ h hasked =>
      have hwritten := (written_of_eligible h (allows_any _)).trans
        ((exchange_of_asked hasked).written_create (allows_any _))
      rcases (hwritten.created id v).1 hv with hold | ⟨p, hp, -⟩
      · exact .inl hold
      · simp at hp
  | @created stage _ u _ h hasked =>
      have hcreate := (exchange_of_asked hasked).written_create (allows_any _)
      have hwritten := (written_of_eligible h (allows_any _)).trans hcreate
      rcases (hwritten.created id v).1 hv with hold | ⟨p, hp, rfl, rfl⟩
      · exact .inl hold
      · obtain ⟨s₁, s₂, freight, new, hnew, hsub, hstage, hkey, hfreight, hget, hfkey, hq⟩ :=
          inquiries_of_eligible h hw
        obtain ⟨new', hnew', hcreates⟩ := hcreate.inquiries
        simp only [List.nil_append, List.mem_singleton, Prod.mk.injEq, and_true] at hp
        subst hp
        obtain ⟨s₃, hs₃⟩ := hcreates _ (List.mem_singleton_self _)
        have hlog : w'.state.inquiries.drop w.state.inquiries.length = new ++ new' := by
          rw [hnew']
          show (u.state.inquiries ++ new').drop _ = _
          rw [hnew, List.append_assoc, List.drop_left]
        have hname : stage.name = m.stage := congrArg Key.name hkey
        refine .inr ⟨_, rfl, rfl, congrArg Key.project hkey, rfl, rfl, ?_⟩
        refine ⟨stage, freight, s₁, s₂, s₃, ?_, hstage, hname, hfreight, hget, hfkey,
          qualified_of_promotionCandidates hq⟩
        rw [hlog]
        exact hsub.append (List.singleton_sublist.2 hs₃)

/-- The questions before the writes of a cascade that scans: a freight that is qualified for the
stage, and a listing of the project that has all subscribers. -/
theorem inquiries_of_resolved {subscribers : List Stage}
    (h : (service validates none stamps sink config).Resolves context m .scan (.ok subscribers)
      w w') (hw : w.state.store.Sound) :
    ∃ (s₁ s₂ : Store) (freight : Freight) (listing : List Stage) (new : List Inquiry),
      w'.state.inquiries = w.state.inquiries ++ new ∧
      [⟨.freight ⟨m.project, m.freight⟩ [m.stage], s₁⟩, ⟨.stages m.project, s₂⟩].Sublist new ∧
      s₁.getQualifiedFreight ⟨m.project, m.freight⟩ [m.stage] = .ok (some freight) ∧
      s₁.freight.get? ⟨m.project, m.freight⟩ = some freight ∧
      freight.key = ⟨m.project, m.freight⟩ ∧ freight.isQualifiedFor m.stage = true ∧
      s₂.listStages m.project = .ok listing ∧
      ∀ b ∈ subscribers, b ∈ listing ∧ b.project = m.project ∧ b.subscribesTo m.stage = true := by
  cases h with
  | @resolved stage listing _ u _ h hasked _ =>
      obtain ⟨s₀, s₁, freight, new, hnew, hsub, -, hkey, hfreight, hget, hfkey, hq⟩ :=
        inquiries_of_eligible h hw
      have hu := written_of_eligible h (allows_any _)
      obtain ⟨s₂, hs₂, hlisting, hnew₂⟩ := (exchange_of_asked hasked).inquiry (hu.sound hw)
      have hproject : stage.project = m.project := congrArg Key.project hkey
      have hname : stage.name = m.stage := congrArg Key.name hkey
      replace hlisting : s₂.listStages m.project = .ok listing := by
        rw [← hproject]
        exact hlisting
      replace hnew₂ : w'.state.inquiries = u.state.inquiries ++ [⟨.stages m.project, s₂⟩] := by
        rw [← hproject]
        exact hnew₂
      have hcandidates : cascadeCandidates stage = [m.stage] := congrArg (fun n => [n]) hname
      rw [hcandidates] at hsub hfreight hq
      have hqualified : freight.isQualifiedFor m.stage = true := by
        simpa [Freight.isQualifiedForAny] using hq
      refine ⟨s₁, s₂, freight, listing, new ++ [⟨.stages m.project, s₂⟩], ?_, ?_, hfreight, hget,
        hfkey, hqualified, hlisting, ?_⟩
      · rw [hnew₂, hnew, List.append_assoc]
      · exact ((List.sublist_cons_self _ _).trans hsub).append (List.Sublist.refl [_])
      · intro b hb
        obtain ⟨hlisted, hsubscribes⟩ := List.mem_filter.1 hb
        have hbkey := hs₂.stages ((hs₂.mem_listStages hlisting).1 hlisted)
        rw [hname] at hsubscribes
        exact ⟨hlisted, congrArg Key.project hbkey, hsubscribes⟩

theorem promoteSubscribers_justified (w : World Shared) (hw : w.state.store.Sound) {id : Identity}
    {v : Json}
    (hv : ((promoteSubscribers .scan m).run (service validates none stamps sink config)
      context w).2.state.store.created.get? id = some v) :
    w.state.store.created.get? id = some v ∨
    ∃ p : Promotion, id = p.identity ∧ v = p.toJson ∧ (Deed.subscribers m).Justifies
      (((promoteSubscribers .scan m).run (service validates none stamps sink config)
        context w).2.state.inquiries.drop w.state.inquiries.length) p := by
  obtain ⟨r, w', hrun, hcascades⟩ :=
    (service validates none stamps sink config).promoteSubscribers_cases context .scan m w
  rw [hrun] at hv ⊢
  cases hcascades with
  | rejected h =>
      rcases ((written_of_resolves h (allows_any _)).created id v).1 hv with hold | ⟨p, hp, -⟩
      · exact .inl hold
      · cases hp
  | @cascaded subscribers outcomes u u' _ h hwrite hnoted =>
      have hu := written_of_resolves h (allows_any _)
      have hcreate := written_of_write hwrite (allows_any _)
      dsimp only at hv ⊢
      rw [hnoted.state_eq] at hv ⊢
      rcases ((hu.trans hcreate).created id v).1 hv with hold | ⟨p, hp, rfl, rfl⟩
      · exact .inl hold
      · obtain ⟨s₁, s₂, freight, listing, new, hnew, hsub, hfreight, hget, hfkey, hqualified,
          hlisting, hsubscribers⟩ := inquiries_of_resolved h hw
        obtain ⟨new', hnew', hcreates⟩ := hcreate.inquiries
        obtain ⟨s₃, hs₃⟩ := hcreates _ hp
        have hlog : u'.state.inquiries.drop w.state.inquiries.length = new ++ new' := by
          rw [hnew']
          show (u.state.inquiries ++ new').drop _ = _
          rw [hnew, List.append_assoc, List.drop_left]
        -- The promotion is that of one of the subscribers.
        obtain ⟨b, hb, stamp, rfl⟩ := Service.exists_subscriber hwrite hp
        obtain ⟨hlisted, hproject, hsubscribes⟩ := hsubscribers b hb
        refine .inr ⟨_, rfl, rfl, hproject, rfl, rfl, ?_⟩
        refine ⟨freight, listing, s₁, s₂, s₃, ?_, hfreight, hget, hfkey, hqualified, hlisting,
          b, hlisted, rfl, hsubscribes⟩
        rw [hlog]
        exact hsub.append (List.singleton_sublist.2 hs₃)

/-! ## Runs -/

/-- Operations of a service one after another, each listed with the questions that the store has
answered during it. Between two of them others may change the store, and anything at all may happen
that is not to the store. -/
inductive Runs (s : Service Shared) :
    World Shared → List (Deed × List Inquiry) → World Shared → Prop
  | nil (w : World Shared) : Runs s w [] w
  | meanwhile {u v w : World Shared} {log} (cs : List Store.Change) : Runs s u log v →
      w.state.store = v.state.store.changed cs → Runs s u log w
  | stage {u v : World Shared} {log} (m : Move) (context : Context) : Runs s u log v →
      Runs s u
        (log ++ [(.stage m, ((promoteStage m).run.run s context v).2.state.inquiries.drop
          v.state.inquiries.length)])
        ((promoteStage m).run.run s context v).2
  | subscribers {u v : World Shared} {log} (m : Move) (context : Context) : Runs s u log v →
      Runs s u
        (log ++ [(.subscribers m,
          ((promoteSubscribers s.resolver m).run s context v).2.state.inquiries.drop
            v.state.inquiries.length)])
        ((promoteSubscribers s.resolver m).run s context v).2

theorem Runs.sound {u : World Shared} {log : List (Deed × List Inquiry)}
    (h : Runs (service validates none stamps sink config) u log w) (hu : u.state.store.Sound) :
    w.state.store.Sound := by
  induction h with
  | nil => exact hu
  | meanwhile cs _ hstore ih =>
      rw [hstore]
      exact ih.changed cs
  | @stage v _ m context _ ih =>
      obtain ⟨L, hwritten, -⟩ := promoteStage_written m context v (allows_any _)
      exact hwritten.sound ih
  | @subscribers v _ m context _ ih =>
      obtain ⟨L, hwritten, -⟩ := promoteSubscribers_written .scan m context v (allows_any _)
      exact hwritten.sound ih

/-- **No promotion is stored without qualified freight.** Whatever a service stores in a run of
operations, which may be interleaved with changes that others make to the store, is justified by the
operation that has stored it. -/
theorem stored_promotions_justified {u w : World Shared} {log : List (Deed × List Inquiry)}
    (hu : u.state.store.Reachable)
    (h : Runs (service validates none stamps sink config) u log w) (id : Identity) (v : Json)
    (hv : w.state.store.created.get? id = some v) :
    u.state.store.created.get? id = some v ∨
    ∃ entry ∈ log, ∃ p : Promotion, id = p.identity ∧ v = p.toJson ∧
      entry.1.Justifies entry.2 p := by
  induction h with
  | nil => exact .inl hv
  | meanwhile cs _ hstore ih =>
      rw [hstore, Store.created_changed] at hv
      exact ih hv
  | @stage x log m context hrun ih =>
      rcases promoteStage_justified x (hrun.sound hu.sound) hv with hold | hnew
      · rcases ih hold with hold | ⟨entry, hentry, hp⟩
        · exact .inl hold
        · exact .inr ⟨entry, List.mem_append_left _ hentry, hp⟩
      · exact .inr ⟨_, List.mem_append_right _ (List.mem_singleton_self _), hnew⟩
  | @subscribers x log m context hrun ih =>
      rcases promoteSubscribers_justified x (hrun.sound hu.sound) hv with hold | hnew
      · rcases ih hold with hold | ⟨entry, hentry, hp⟩
        · exact .inl hold
        · exact .inr ⟨entry, List.mem_append_left _ hentry, hp⟩
      · exact .inr ⟨_, List.mem_append_right _ (List.mem_singleton_self _), hnew⟩

/-- A stage that takes freight from another one for which a freight is qualified. While the stage is
promoted it is removed, and the freight loses its qualification before the promotion is written. -/
def losing : World Shared where
  state :=
    { store := Store.changed
        [.putStage ((Stage.named "proj" "qa").withSource "dev"),
         .putFreight ((Freight.named "proj" "f1").qualifiedFor "dev" default)] .empty
      turns :=
        [{}, {}, { changes := [.removeStage ⟨"proj", "qa"⟩] },
         { changes := [.putFreight (.named "proj" "f1")] }] }

theorem stored_promotions_justified_losing :
    ∃ log w, Runs (service true none (fun n => ⟨.ofNat n, default⟩) .discarding {}) losing log w ∧
      ∃ id v, losing.state.store.created.get? id = none ∧
        w.state.store.created.get? id = some v ∧
        ∃ entry ∈ log, ∃ p : Promotion, id = p.identity ∧ v = p.toJson ∧
          entry.1.Justifies entry.2 p := by
  have hstored : (((promoteStage ⟨"proj", "qa", "f1"⟩).run.run
      (service true none (fun n => ⟨.ofNat n, default⟩) .discarding {}) ⟨0, none⟩
      losing).2.state.store.created.get?
        ⟨⟨"proj", "qa.00000000000000000000000000000000.f1"⟩, .promotion⟩).isSome = true := by
    decide +kernel
  obtain ⟨v, hv⟩ := Option.isSome_iff_exists.1 hstored
  have hrun := Runs.stage (s := service true none (fun n => ⟨.ofNat n, default⟩) .discarding {})
    ⟨"proj", "qa", "f1"⟩ ⟨0, none⟩ (.nil losing)
  have hreachable : losing.state.store.Reachable := Store.Reachable.empty.changed _
  refine ⟨_, _, hrun, _, v, rfl, hv, ?_⟩
  exact (stored_promotions_justified hreachable hrun _ v hv).resolve_left fun hold => by cases hold

end Shared

end Delivery
