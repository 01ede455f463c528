import Delivery.Proofs.PromptStore
import Delivery.Proofs.SubscriberIndexes
import Mathlib.Data.List.Sort

/-!
# Who may enter a stage

The candidates for promoting a stage are its own name and those of its sources, each once and in the
order in which they are first declared; no other list is that (`Stage.enlists_iff`). They decide
which freight may enter the stage (`Freight.mayEnter_iff`): more evidence and more sources never
shut any out, and what may leave a stage may enter each of its subscribers.

* `Freight.MayEnter.mono`, `Freight.MayLeave.mayEnter` — of the candidates alone;
* `Store.gate_iff` — of the gate, when a store answers it;
* `candidates_decide` — both.
-/

namespace Delivery

/-- A list of the names that freight for a stage may come from: the stage's own name, then those of
its sources, each name once and in the order in which the sources are first declared. -/
structure Stage.Enlists (stage : Stage) (names : List String) : Prop where
  nodup : names.Nodup
  head : names.head? = some stage.name
  mem : ∀ n, n ∈ names ↔ n = stage.name ∨ n ∈ stage.sourceNames
  order : names.tail.Pairwise fun a b => stage.sourceNames.idxOf a < stage.sourceNames.idxOf b

/-- The freight is qualified to be promoted to the stage. -/
def Freight.MayEnter (freight : Freight) (stage : Stage) : Prop :=
  freight.isQualifiedForAny (promotionCandidates stage) = true

/-- The freight is qualified to be passed on from the stage to its subscribers. -/
def Freight.MayLeave (freight : Freight) (stage : Stage) : Prop :=
  freight.isQualifiedForAny (cascadeCandidates stage) = true

/-! ## First occurrences -/

theorem pairwise_idxOf_cons {n : String} {names rest : List String} (hn : ∀ a ∈ names, a ≠ n)
    (h : names.Pairwise fun a b => rest.idxOf a < rest.idxOf b) :
    names.Pairwise fun a b => (n :: rest).idxOf a < (n :: rest).idxOf b := by
  refine h.imp_of_mem ?_
  intro a b ha hb hlt
  rw [List.idxOf_cons_ne _ (hn a ha).symm, List.idxOf_cons_ne _ (hn b hb).symm]
  exact Nat.succ_lt_succ hlt

/-- What is left keeps the order of the first occurrences, whatever was seen before. -/
theorem pairwise_distinct_go (seen names : List String) :
    (distinct.go seen names).Pairwise fun a b => names.idxOf a < names.idxOf b := by
  induction names generalizing seen with
  | nil => exact .nil
  | cons n rest ih =>
      unfold distinct.go
      by_cases hn : seen.contains n = true
      · rw [if_pos hn]
        refine pairwise_idxOf_cons ?_ (ih seen)
        rintro a ha rfl
        exact (mem_distinct_go.1 ha).2 (List.contains_iff_mem.1 hn)
      · rw [if_neg hn]
        -- What is kept behind `n` has another name, so it is first declared behind `n` as well.
        have hne : ∀ a ∈ distinct.go (n :: seen) rest, a ≠ n := by
          rintro a ha rfl
          exact (mem_distinct_go.1 ha).2 List.mem_cons_self
        refine List.pairwise_cons.2 ⟨?_, pairwise_idxOf_cons hne (ih (n :: seen))⟩
        intro a ha
        rw [List.idxOf_cons_self, List.idxOf_cons_ne _ (hne a ha).symm]
        exact Nat.succ_pos _

/-! ## The candidates -/

namespace Stage

theorem mem_promotionCandidates {stage : Stage} {n : String} :
    n ∈ promotionCandidates stage ↔ n = stage.name ∨ n ∈ stage.sourceNames :=
  mem_distinct.trans List.mem_cons

theorem enlists_promotionCandidates (stage : Stage) :
    stage.Enlists (promotionCandidates stage) where
  nodup := nodup_distinct _
  head := rfl
  mem _ := mem_promotionCandidates
  order := pairwise_distinct_go [stage.name] stage.sourceNames

/-- Behind the stage's own name are the sources with another name. -/
theorem Enlists.eq_cons {stage : Stage} {names : List String} (h : stage.Enlists names) :
    names = stage.name :: names.tail ∧
      ∀ n, n ∈ names.tail ↔ n ≠ stage.name ∧ n ∈ stage.sourceNames := by
  have hcons : names = stage.name :: names.tail := (List.cons_head?_tail h.head).symm
  refine ⟨hcons, fun n => ?_⟩
  have hnodup := h.nodup
  rw [hcons, List.nodup_cons] at hnodup
  have hmem := h.mem n
  rw [hcons, List.mem_cons] at hmem
  constructor
  · intro hn
    have hne : n ≠ stage.name := by
      rintro rfl
      exact hnodup.1 hn
    exact ⟨hne, (hmem.1 (.inr hn)).resolve_left hne⟩
  · rintro ⟨hne, hn⟩
    exact (hmem.2 (.inr hn)).resolve_left hne

/-- The order leaves no choice. -/
theorem Enlists.unique {stage : Stage} {names names' : List String} (h : stage.Enlists names)
    (h' : stage.Enlists names') : names = names' := by
  let before (a b : String) : Prop := stage.sourceNames.idxOf a < stage.sourceNames.idxOf b
  have hirrefl : Std.Irrefl before := ⟨fun _ => Nat.lt_irrefl _⟩
  have hantisymm : Std.Antisymm before := ⟨fun _ _ hab hba => absurd hba (Nat.lt_asymm hab)⟩
  obtain ⟨hcons, hmem⟩ := h.eq_cons
  obtain ⟨hcons', hmem'⟩ := h'.eq_cons
  have htail : names.tail = names'.tail :=
    List.Pairwise.eq_of_mem_iff (r := before) h.order h'.order fun n =>
      (hmem n).trans (hmem' n).symm
  rw [hcons, hcons', htail]

/-- **The candidates of a stage are determined by what they are.** -/
theorem enlists_iff {stage : Stage} {names : List String} :
    stage.Enlists names ↔ names = promotionCandidates stage := by
  constructor
  · exact fun h => h.unique stage.enlists_promotionCandidates
  · rintro rfl
    exact stage.enlists_promotionCandidates

example : promotionCandidates ((Stage.named "proj" "qa").withSources ["dev", "qa", "uat", "dev"]) =
    ["qa", "dev", "uat"] := by
  decide

@[simp] theorem name_withSources (stage : Stage) (names : List String) :
    (stage.withSources names).name = stage.name := by
  unfold withSources
  induction names generalizing stage with
  | nil => rfl
  | cons n rest ih => exact ih (stage.withSource n)

@[simp] theorem sourceNames_withSource (stage : Stage) (n : String) :
    (stage.withSource n).sourceNames = stage.sourceNames ++ [n] := List.map_append

@[simp] theorem sourceNames_withSources (stage : Stage) (names : List String) :
    (stage.withSources names).sourceNames = stage.sourceNames ++ names := by
  unfold withSources
  induction names generalizing stage with
  | nil => exact (List.append_nil _).symm
  | cons n rest ih => rw [List.foldl_cons, ih, sourceNames_withSource, List.append_assoc]; rfl

end Stage

/-! ## Who may enter -/

namespace Freight

variable {freight freight' : Freight} {stage stage' : Stage}

theorem isQualifiedFor_qualifiedFor (freight : Freight) (n m : String) (at_ : DateTime) :
    (freight.qualifiedFor n at_).isQualifiedFor m = true ↔
      m = n ∨ freight.isQualifiedFor m = true := by
  show ((freight.qualifications.insert n ⟨some at_⟩).get? m).isSome = true ↔ _
  rw [Table.get?_insert]
  by_cases hm : m = n
  · simp [hm]
  · rw [if_neg hm]
    exact ⟨.inr, fun h => h.resolve_left hm⟩

/-- Evidence stays when more of it is recorded. -/
theorem isQualifiedFor_foldl {n : String} (evidence : List (String × DateTime))
    (h : freight.isQualifiedFor n = true) :
    (evidence.foldl (fun f e => f.qualifiedFor e.1 e.2) freight).isQualifiedFor n = true := by
  induction evidence generalizing freight with
  | nil => exact h
  | cons e rest ih => exact ih ((isQualifiedFor_qualifiedFor freight e.1 n e.2).2 (.inr h))

/-- **Freight may enter a stage that it was verified in, or one with a source that it was verified
in.** -/
theorem mayEnter_iff : freight.MayEnter stage ↔ freight.isQualifiedFor stage.name = true ∨
    ∃ source ∈ stage.sourceNames, freight.isQualifiedFor source = true := by
  constructor
  · exact qualified_of_promotionCandidates
  · rintro (hown | ⟨source, hsource, hq⟩)
    · exact List.any_eq_true.2 ⟨_, Stage.mem_promotionCandidates.2 (.inl rfl), hown⟩
    · exact List.any_eq_true.2 ⟨source, Stage.mem_promotionCandidates.2 (.inr hsource), hq⟩

theorem mayLeave_iff : freight.MayLeave stage ↔ freight.isQualifiedFor stage.name = true := by
  simp [MayLeave, cascadeCandidates, isQualifiedForAny]

/-- More evidence and more sources shut no freight out. -/
theorem MayEnter.mono (h : freight.MayEnter stage)
    (hevidence : ∀ n, freight.isQualifiedFor n = true → freight'.isQualifiedFor n = true)
    (hname : stage'.name = stage.name) (hsources : stage.sourceNames ⊆ stage'.sourceNames) :
    freight'.MayEnter stage' := by
  rw [mayEnter_iff] at h ⊢
  rcases h with hown | ⟨source, hsource, hq⟩
  · exact .inl (hname ▸ hevidence _ hown)
  · exact .inr ⟨source, hsources hsource, hevidence _ hq⟩

/-- What may leave a stage may enter its subscribers. -/
theorem MayLeave.mayEnter (h : freight.MayLeave stage)
    (hsubscribes : stage'.subscribesTo stage.name = true) : freight.MayEnter stage' :=
  mayEnter_iff.2 (.inr ⟨stage.name, List.contains_iff_mem.1 hsubscribes, mayLeave_iff.1 h⟩)

end Freight

/-! ## The gate -/

/-- The gate gives the answer of the reader; all that it adds is a line in the log. -/
theorem Service.run_qualifiedFreight {σ : Type} (s : Service σ) (context : Context) (key : Key)
    (candidates : List String) (w : World σ) :
    ((qualifiedFreight key candidates).run s context w).1 =
      (s.call context (.freight key candidates) w).1 := by
  rcases hcall : s.call context (.freight key candidates) w with ⟨a, v⟩
  cases a with
  | error e => simp [qualifiedFreight, Plan.ask, Plan.bind, Plan.run, hcall]
  | ok found => simp [qualifiedFreight, Plan.ask, Plan.log, Plan.bind, Plan.run, hcall]

namespace Store

variable {validates : Bool} {stamps : Nat → Promotion.Stamp} {sink : Sink} {config : Config}
  {context : Context} {key : Key} {candidates : List String} {w : World Store} {freight : Freight}

/-- The gate lets a freight through when the request is not over and the store is available, has the
freight, and finds it qualified. -/
theorem gate_iff :
    ((qualifiedFreight key candidates).run (service validates stamps sink config) context w).1 =
        .ok (some freight) ↔
      (service validates stamps sink config).Starts context w ∧ w.state.unavailable = false ∧
        w.state.freight.get? key = some freight ∧ freight.isQualifiedForAny candidates = true := by
  rw [Service.run_qualifiedFreight, ← getQualifiedFreight_iff]
  cases hcheck : ((service validates stamps sink config).callContext context w.now).check
      w.tokens w.now with
  | error e =>
      -- The reader of a request that is over is not asked.
      have hnot : ¬ (service validates stamps sink config).Starts context w := by
        unfold Service.Starts
        rw [hcheck]
        exact fun h => by cases h
      rw [Service.call_of_ended hcheck]
      exact iff_of_false (fun h => by cases h) fun h => hnot h.1
  | ok u =>
      rw [Service.call_eq_of_prompt (serve_eq _ w.state) hcheck]
      exact ⟨fun h => ⟨hcheck, h⟩, fun h => h.2⟩

/-- Candidates that find at least as much qualified let through at least as much. -/
theorem gate_mono {candidates' : List String}
    (h : ((qualifiedFreight key candidates).run (service validates stamps sink config) context
      w).1 = .ok (some freight))
    (hcandidates : freight.isQualifiedForAny candidates = true →
      freight.isQualifiedForAny candidates' = true) :
    ((qualifiedFreight key candidates').run (service validates stamps sink config) context w).1 =
      .ok (some freight) := by
  obtain ⟨hstarts, hup, hget, hq⟩ := gate_iff.1 h
  exact gate_iff.2 ⟨hstarts, hup, hget, hcandidates hq⟩

end Store

/-- **The candidates of a stage decide which freight may enter it.** They are its own name and its
sources, each once, in the order of first declaration. Freight may enter when it was verified in one
of them, and still may after more evidence is recorded or more sources are declared. And freight
that is let through the gate from a stage is let through the gate to each of its subscribers. -/
theorem candidates_decide (stage : Stage) :
    (∀ names, stage.Enlists names ↔ names = promotionCandidates stage) ∧
    (∀ freight : Freight, freight.MayEnter stage ↔ freight.isQualifiedFor stage.name = true ∨
      ∃ source ∈ stage.sourceNames, freight.isQualifiedFor source = true) ∧
    (∀ (freight freight' : Freight) (stage' : Stage), freight.MayEnter stage →
      (∀ n, freight.isQualifiedFor n = true → freight'.isQualifiedFor n = true) →
      stage'.name = stage.name → stage.sourceNames ⊆ stage'.sourceNames →
      freight'.MayEnter stage') ∧
    (∀ (freight : Freight) (evidence : List (String × DateTime)) (sources : List String),
      freight.MayEnter stage →
      (evidence.foldl (fun f e => f.qualifiedFor e.1 e.2) freight).MayEnter
        (stage.withSources sources)) ∧
    ∀ subscriber : Stage, subscriber.subscribesTo stage.name = true →
      (∀ freight : Freight, freight.MayLeave stage → freight.MayEnter subscriber) ∧
      ∀ (validates : Bool) (stamps : Nat → Promotion.Stamp) (sink : Sink) (config : Config)
        (context : Context) (w : World Store) (key : Key) (freight : Freight),
        ((qualifiedFreight key (cascadeCandidates stage)).run
            (Store.service validates stamps sink config) context w).1 = .ok (some freight) →
        ((qualifiedFreight key (promotionCandidates subscriber)).run
            (Store.service validates stamps sink config) context w).1 = .ok (some freight) := by
  refine ⟨fun _ => Stage.enlists_iff, fun _ => Freight.mayEnter_iff, ?_, ?_, ?_⟩
  · intro freight freight' stage' h hevidence hname hsources
    exact h.mono hevidence hname hsources
  · intro freight evidence sources h
    refine h.mono (fun n => Freight.isQualifiedFor_foldl evidence) (Stage.name_withSources ..) ?_
    rw [Stage.sourceNames_withSources]
    exact List.subset_append_left _ _
  · intro subscriber hsubscribes
    refine ⟨fun freight h => h.mayEnter hsubscribes, ?_⟩
    intro validates stamps sink config context w key freight h
    exact Store.gate_mono h fun hq => Freight.MayLeave.mayEnter hq hsubscribes

end Delivery
