import Delivery.Proofs.Qualification
import Mathlib.Data.Set.Card

/-!
# An index is a scan

The index of a listing gives the subscribers that scanning the listing gives, in the same order
(`SubscriberIndex.subscribers_build`). A stage that declares a source twice is indexed once. And the
index holds no name without subscribers (`SubscriberIndex.Tight`), so its size is the number of
stages that have any (`SubscriberIndex.build_agrees_with_scan`).
-/

namespace Delivery

namespace Table

variable {κ α : Type} [Ord κ] [Std.LawfulEqOrd κ]

theorem mem_keys_iff {t : Table κ α} {k : κ} : k ∈ t.keys ↔ ∃ v, t.get? k = some v := by
  have hmem (v : α) : (k, v) ∈ t.entries ↔ t.get? k = some v := mem_toList_iff
  simp [keys, hmem]

/-- No key is listed twice. -/
theorem nodup_keys (t : Table κ α) : t.keys.Nodup := by
  refine List.pairwise_map.2 (t.sorted.imp ?_)
  intro a b hlt heq
  have hself : compare b.1 b.1 = .eq := Std.ReflCmp.compare_self
  rw [heq, hself] at hlt
  cases hlt

end Table

theorem nodup_distinct_go (seen names : List String) : (distinct.go seen names).Nodup := by
  induction names generalizing seen with
  | nil => exact List.nodup_nil
  | cons n rest ih =>
      unfold distinct.go
      by_cases hn : seen.contains n = true
      · rw [if_pos hn]
        exact ih seen
      · rw [if_neg hn]
        refine List.nodup_cons.2 ⟨?_, ih (n :: seen)⟩
        intro hmem
        exact (mem_distinct_go.1 hmem).2 List.mem_cons_self

theorem nodup_distinct (names : List String) : (distinct names).Nodup := nodup_distinct_go [] names

namespace SubscriberIndex

theorem subscribers_addTo (index : SubscriberIndex) (stage : Stage) (source u : String) :
    (index.addTo stage source).subscribers u =
      if u = source then index.subscribers u ++ [stage] else index.subscribers u := by
  unfold addTo subscribers
  rw [Table.get?_insert]
  by_cases hu : u = source
  · rw [if_pos hu, if_pos hu, hu]
    rfl
  · rw [if_neg hu, if_neg hu]

theorem subscribers_foldl_addTo {sources : List String} (hnodup : sources.Nodup)
    (index : SubscriberIndex) (stage : Stage) (u : String) :
    (sources.foldl (fun i source => i.addTo stage source) index).subscribers u =
      if u ∈ sources then index.subscribers u ++ [stage] else index.subscribers u := by
  induction sources generalizing index with
  | nil => rfl
  | cons source rest ih =>
      obtain ⟨hsource, hrest⟩ := List.nodup_cons.1 hnodup
      rw [List.foldl_cons, ih hrest, subscribers_addTo]
      by_cases hu : u = source
      · subst hu
        simp [hsource]
      · simp [hu]

/-- A stage is added to the subscribers of its sources, behind those that are there. -/
theorem subscribers_add (index : SubscriberIndex) (stage : Stage) (u : String) :
    (index.add stage).subscribers u =
      index.subscribers u ++ if stage.subscribesTo u then [stage] else [] := by
  unfold add
  rw [subscribers_foldl_addTo (nodup_distinct _)]
  by_cases hu : u ∈ stage.sourceNames
  · simp [mem_distinct, Stage.subscribesTo, hu]
  · simp [mem_distinct, Stage.subscribesTo, hu]

/-- **The index of a listing gives the subscribers that a scan of the listing gives.** -/
theorem subscribers_build (stages : List Stage) (u : String) :
    (build stages).subscribers u = subscribersOf stages u := by
  have hfoldl (index : SubscriberIndex) (stages : List Stage) :
      (stages.foldl add index).subscribers u = index.subscribers u ++ subscribersOf stages u := by
    induction stages generalizing index with
    | nil => simp [subscribersOf]
    | cons stage rest ih =>
        rw [List.foldl_cons, ih, subscribers_add]
        unfold subscribersOf
        by_cases hu : stage.subscribesTo u = true
        · simp [hu]
        · simp [hu]
  exact hfoldl {} stages

/-! ## The size of an index -/

/-- No name is kept with nobody under it. -/
def Tight (index : SubscriberIndex) : Prop := ∀ u, index.bySource.get? u ≠ some []

theorem Tight.addTo {index : SubscriberIndex} (h : index.Tight) (stage : Stage) (source : String) :
    (index.addTo stage source).Tight := by
  intro u
  unfold SubscriberIndex.addTo
  rw [Table.get?_insert]
  by_cases hu : u = source
  · rw [if_pos hu]
    exact fun heq => List.append_ne_nil_of_right_ne_nil _ (List.cons_ne_nil stage [])
      (Option.some.inj heq)
  · rw [if_neg hu]
    exact h u

theorem Tight.add {index : SubscriberIndex} (h : index.Tight) (stage : Stage) :
    (index.add stage).Tight := by
  unfold SubscriberIndex.add
  induction distinct stage.sourceNames generalizing index with
  | nil => exact h
  | cons source rest ih => exact ih (h.addTo stage source)

/-- The index of a listing has only names that somebody declares. -/
theorem tight_build (stages : List Stage) : (build stages).Tight := by
  have hfoldl {index : SubscriberIndex} (h : index.Tight) : (stages.foldl add index).Tight := by
    induction stages generalizing index with
    | nil => exact h
    | cons stage rest ih => exact ih (h.add stage)
  exact hfoldl fun u => by simp [Table.get?_empty]

theorem Tight.mem_keys_iff {index : SubscriberIndex} (h : index.Tight) {u : String} :
    u ∈ index.bySource.keys ↔ index.subscribers u ≠ [] := by
  rw [Table.mem_keys_iff]
  unfold subscribers
  cases hu : index.bySource.get? u with
  | none => simp
  | some stages =>
      refine iff_of_true ⟨stages, rfl⟩ ?_
      rintro (rfl : stages = [])
      exact h u hu

theorem subscribersOf_ne_nil {stages : List Stage} {u : String} :
    subscribersOf stages u ≠ [] ↔ ∃ stage ∈ stages, u ∈ stage.sourceNames := by
  simp [subscribersOf, List.filter_eq_nil_iff, Stage.subscribesTo]

theorem mem_keys_build {stages : List Stage} {u : String} :
    u ∈ (build stages).bySource.keys ↔ subscribersOf stages u ≠ [] := by
  rw [(tight_build stages).mem_keys_iff, subscribers_build]

/-- The size counts the names that have subscribers. -/
theorem encard_subscribersOf (stages : List Stage) :
    {u | subscribersOf stages u ≠ []}.encard = (build stages).size := by
  have hset : {u | subscribersOf stages u ≠ []} = ↑(build stages).bySource.keys.toFinset := by
    ext u
    simp [mem_keys_build]
  have hlength : (build stages).bySource.keys.length = (build stages).size := List.length_map _
  rw [hset, Set.encard_coe_eq_coe_finsetCard,
    List.toFinset_card_of_nodup (Table.nodup_keys _), hlength]

/-- An index is empty when it has no name in it, and then nobody declares any source. -/
theorem isEmpty_build (stages : List Stage) :
    (build stages).isEmpty = true ↔ ∀ stage ∈ stages, stage.sourceNames = [] := by
  have hkeys : (build stages).isEmpty = true ↔ (build stages).bySource.keys = [] := by
    simp [isEmpty, Table.isEmpty, Table.keys]
  rw [hkeys, List.eq_nil_iff_forall_not_mem]
  simp only [mem_keys_build, subscribersOf_ne_nil]
  constructor
  · intro hnone stage hstage
    exact List.eq_nil_iff_forall_not_mem.2 fun u hu => hnone u ⟨stage, hstage, hu⟩
  · rintro hnone u ⟨stage, hstage, hu⟩
    rw [hnone stage hstage] at hu
    exact absurd hu List.not_mem_nil

/-- **The index of a listing agrees with the scan of it.** It gives the same subscribers of every
name, in the same order and as many times; it counts the names that have any; and it is empty when
no stage declares a source. -/
theorem build_agrees_with_scan (stages : List Stage) :
    (∀ u, (build stages).subscribers u = subscribersOf stages u) ∧
    {u | subscribersOf stages u ≠ []}.encard = (build stages).size ∧
    ((build stages).isEmpty = true ↔ ∀ stage ∈ stages, stage.sourceNames = []) :=
  ⟨subscribers_build stages, encard_subscribersOf stages, isEmpty_build stages⟩

end SubscriberIndex

namespace SubscriberIndexes

theorem subscribers_of_get? {indexes : SubscriberIndexes} {stage : Stage} {stages : List Stage}
    (h : indexes.get? stage.project = some (.build stages)) :
    indexes.subscribers stage = subscribersOf stages stage.name := by
  unfold subscribers
  rw [h]
  exact SubscriberIndex.subscribers_build stages stage.name

/-- The index of one project is replaced, not those of others. -/
theorem get?_replace (indexes : SubscriberIndexes) (project : String) (stages : List Stage)
    (p : String) : (indexes.replace project stages).get? p =
      if p = project then some (.build stages) else indexes.get? p :=
  Table.get?_insert ..

end SubscriberIndexes

end Delivery
