import Delivery.Store

/-!
# The states of a store

A store starts empty; its owner changes stages, freight and projects, injects failures or takes it
down, and resources are created in it. Whatever it holds it holds under the key of the thing itself
(`Store.Sound`), in every state that can be reached (`Store.Reachable.sound`).

* `Store.create_cases` — a creation is refused and only counted, or adds one entry where there was
  none;
* `Store.Change.commutes` — what others change and what is created do not touch each other.
-/

namespace Delivery

/-- A change that the owner of a store makes. -/
inductive Store.Change where
  | addProject (project : String)
  | putStage (stage : Stage)
  | removeStage (key : Key)
  | putFreight (freight : Freight)
  | failWritesFor (stage : Key) (message : String)
  | setUnavailable (unavailable : Bool)

namespace Store

/-- The store after a change. -/
def Change.apply : Change → Store → Store
  | addProject project, s => s.addProject project
  | putStage stage, s => s.putStage stage
  | removeStage key, s => (s.removeStage key).2
  | putFreight freight, s => s.putFreight freight
  | failWritesFor stage message, s => s.failWritesFor stage message
  | setUnavailable unavailable, s => s.setUnavailable unavailable

/-- The store after several changes, in order. -/
def changed (cs : List Change) (s : Store) : Store := cs.foldl (fun s c => c.apply s) s

@[simp] theorem changed_nil (s : Store) : s.changed [] = s := rfl

theorem changed_append (cs ds : List Change) (s : Store) :
    s.changed (cs ++ ds) = (s.changed cs).changed ds := List.foldl_append

/-- The same store with other creations. -/
def creating (s : Store) (created : Table Identity Json) (attempts : Nat) : Store :=
  { s with created, attempts }

@[simp] theorem creating_self (s : Store) : s.creating s.created s.attempts = s := rfl

@[simp] theorem creating_creating (s : Store) (t t' : Table Identity Json) (n n' : Nat) :
    (s.creating t n).creating t' n' = s.creating t' n' := rfl

theorem Change.commutes (c : Change) (s : Store) (created : Table Identity Json) (attempts : Nat) :
    c.apply (s.creating created attempts) = (c.apply s).creating created attempts := by
  cases c <;> rfl

/-- Changes leave alone what was created, and it does not matter to them. -/
theorem changed_creating (cs : List Change) (s : Store) (created : Table Identity Json)
    (attempts : Nat) :
    (s.creating created attempts).changed cs = (s.changed cs).creating created attempts := by
  induction cs generalizing s with
  | nil => rfl
  | cons c rest ih =>
      show (c.apply (s.creating created attempts)).changed rest = _
      rw [c.commutes, ih]
      rfl

theorem created_apply (c : Change) (s : Store) : (c.apply s).created = s.created := by
  cases c <;> rfl

theorem created_changed (cs : List Change) (s : Store) : (s.changed cs).created = s.created := by
  induction cs generalizing s with
  | nil => rfl
  | cons c rest ih => exact (ih (c.apply s)).trans (created_apply c s)

/-! ## Creating -/

/-- Nothing stands against creating a resource. -/
theorem refusal?_eq_none {s : Store} {r : Resource} :
    s.refusal? r = none ↔ s.unavailable = false ∧ Subdomain.isSubdomain r.metadata.name = true ∧
      s.injected? r = none ∧ s.created.get? r.identity = none := by
  unfold refusal? ensureAvailable
  cases hdown : s.unavailable with
  | true => simp
  | false =>
      cases hname : Subdomain.isSubdomain r.metadata.name with
      | false => simp
      | true =>
          cases hinjected : s.injected? r with
          | some e => simp
          | none => cases hget : s.created.get? r.identity <;> simp [Table.contains, hget]

/-- **What can come of a creation.** It is refused, and only counted; or it adds one entry where
there was none, and reports success. -/
theorem create_cases (s : Store) (r : Resource) :
    (∃ e, s.refusal? r = some e ∧
      s.create r = (.error e, s.creating s.created (s.attempts + 1))) ∨
    s.refusal? r = none ∧ s.created.get? r.identity = none ∧
      s.create r =
        (.ok (), s.creating (s.created.insert r.identity r.toJson) (s.attempts + 1)) := by
  unfold create
  cases h : s.refusal? r with
  | some e => exact .inl ⟨e, rfl, rfl⟩
  | none => exact .inr ⟨rfl, (refusal?_eq_none.1 h).2.2.2, rfl⟩

theorem create_eq_creating (s : Store) (r : Resource) :
    (s.create r).2 = s.creating (s.create r).2.created (s.create r).2.attempts := by
  rcases s.create_cases r with ⟨e, -, h⟩ | ⟨-, -, h⟩
  · rw [h]
    rfl
  · rw [h]
    rfl

theorem get?_created_of_create {s : Store} {r : Resource} (h : (s.create r).1 = .ok ()) :
    s.created.get? r.identity = none := by
  rcases s.create_cases r with ⟨e, -, hcreate⟩ | ⟨-, hfree, -⟩
  · rw [hcreate] at h
    cases h
  · exact hfree

/-- What is stored after a creation was stored before, or is what was created. -/
theorem get?_created_create {s : Store} {r : Resource} {id : Identity} {v : Json} :
    (s.create r).2.created.get? id = some v ↔
      s.created.get? id = some v ∨ (s.create r).1 = .ok () ∧ id = r.identity ∧ v = r.toJson := by
  rcases s.create_cases r with ⟨e, -, hcreate⟩ | ⟨-, hfree, hcreate⟩
  · rw [hcreate]
    simp [creating]
  · rw [hcreate]
    show (s.created.insert r.identity r.toJson).get? id = some v ↔ _
    rw [Table.get?_insert]
    by_cases hid : id = r.identity
    · rw [if_pos hid, hid, hfree]
      simp [eq_comm]
    · rw [if_neg hid]
      simp [hid]

/-! ## Reachable states -/

/-- The states that a store can come to. -/
inductive Reachable : Store → Prop
  | empty : Reachable .empty
  | change {s} (c : Change) : Reachable s → Reachable (c.apply s)
  | create {s} (r : Resource) : Reachable s → Reachable (s.create r).2

theorem Reachable.changed {s : Store} (h : s.Reachable) (cs : List Change) :
    (s.changed cs).Reachable := by
  induction cs generalizing s with
  | nil => exact h
  | cons c rest ih => exact ih (.change c h)

/-- Everything is stored under its own key, and what was created in its JSON form. -/
structure Sound (s : Store) : Prop where
  stages : ∀ {key stage}, s.stages.get? key = some stage → stage.key = key
  freight : ∀ {key freight}, s.freight.get? key = some freight → freight.key = key
  created : ∀ {id v}, s.created.get? id = some v → ∃ r : Resource, r.identity = id ∧ v = r.toJson

theorem sound_empty : (empty : Store).Sound where
  stages h := by cases h
  freight h := by cases h
  created h := by cases h

/-- A table of things under their own keys stays one when another thing is stored. -/
theorem keyed_insert {α : Type} {t : Table Key α} {keyOf : α → Key}
    (ht : ∀ {key a}, t.get? key = some a → keyOf a = key) (b : α) {key : Key} {a : α}
    (h : (t.insert (keyOf b) b).get? key = some a) : keyOf a = key := by
  rw [Table.get?_insert] at h
  by_cases hkey : key = keyOf b
  · rw [if_pos hkey] at h
    cases h
    exact hkey.symm
  · rw [if_neg hkey] at h
    exact ht h

theorem Sound.change {s : Store} (hs : s.Sound) (c : Change) : (c.apply s).Sound := by
  cases c with
  | putStage stage => exact ⟨fun h => keyed_insert hs.stages stage h, hs.freight, hs.created⟩
  | putFreight freight => exact ⟨hs.stages, fun h => keyed_insert hs.freight freight h, hs.created⟩
  | removeStage key =>
      refine ⟨?_, hs.freight, hs.created⟩
      intro k stage h
      have h : (s.stages.erase key).get? k = some stage := h
      rw [Table.get?_erase] at h
      by_cases hk : k = key
      · rw [if_pos hk] at h
        cases h
      · rw [if_neg hk] at h
        exact hs.stages h
  | addProject | failWritesFor | setUnavailable => exact ⟨hs.stages, hs.freight, hs.created⟩

theorem Sound.changed {s : Store} (hs : s.Sound) (cs : List Change) : (s.changed cs).Sound := by
  induction cs generalizing s with
  | nil => exact hs
  | cons c rest ih => exact ih (hs.change c)

theorem Sound.create {s : Store} (hs : s.Sound) (r : Resource) : (s.create r).2.Sound := by
  refine ⟨?_, ?_, ?_⟩
  · rw [create_eq_creating]
    exact hs.stages
  · rw [create_eq_creating]
    exact hs.freight
  · intro id v h
    rcases get?_created_create.1 h with h | ⟨-, rfl, rfl⟩
    · exact hs.created h
    · exact ⟨r, rfl, rfl⟩

/-- **Every state that a store can come to is sound.** -/
theorem Reachable.sound {s : Store} (h : s.Reachable) : s.Sound := by
  induction h with
  | empty => exact sound_empty
  | change c _ ih => exact ih.change c
  | create r _ ih => exact ih.create r

/-! ## Reading -/

theorem ensureAvailable_of_up {s : Store} (hs : s.unavailable = false) :
    s.ensureAvailable = .ok () := by
  unfold ensureAvailable
  rw [hs]
  rfl

theorem ensureAvailable_of_down {s : Store} (hs : s.unavailable = true) :
    s.ensureAvailable = .error (.backend "store unavailable") := by
  unfold ensureAvailable
  rw [hs]
  rfl

/-- What is read is read from a store that is available. -/
theorem up_of_map_ensureAvailable {s : Store} {α : Type} {f : Unit → α} {a : α}
    (h : s.ensureAvailable.map f = .ok a) : s.unavailable = false ∧ f () = a := by
  cases hs : s.unavailable with
  | true =>
      rw [ensureAvailable_of_down hs] at h
      cases h
  | false =>
      rw [ensureAvailable_of_up hs] at h
      exact ⟨rfl, Except.ok.inj h⟩

theorem getStage_eq_some {s : Store} {key : Key} {stage : Stage}
    (h : s.getStage key = .ok (some stage)) : s.stages.get? key = some stage :=
  (up_of_map_ensureAvailable h).2

/-- A freight is found when the store is available, has it, and finds it qualified. -/
theorem getQualifiedFreight_iff {s : Store} {key : Key} {candidates : List String}
    {freight : Freight} : s.getQualifiedFreight key candidates = .ok (some freight) ↔
      s.unavailable = false ∧ s.freight.get? key = some freight ∧
        freight.isQualifiedForAny candidates = true := by
  constructor
  · intro h
    obtain ⟨hup, hfilter⟩ := up_of_map_ensureAvailable h
    exact ⟨hup, Option.filter_eq_some_iff.1 hfilter⟩
  · rintro ⟨hup, hfreight⟩
    unfold getQualifiedFreight
    rw [ensureAvailable_of_up hup]
    exact congrArg Except.ok (Option.filter_eq_some_iff.2 hfreight)

theorem getQualifiedFreight_eq_some {s : Store} {key : Key} {candidates : List String}
    {freight : Freight} (h : s.getQualifiedFreight key candidates = .ok (some freight)) :
    s.freight.get? key = some freight ∧ freight.isQualifiedForAny candidates = true :=
  (getQualifiedFreight_iff.1 h).2

/-- A sound store lists exactly the stages of the project. -/
theorem Sound.mem_listStages {s : Store} (hs : s.Sound) {project : String} {stages : List Stage}
    (h : s.listStages project = .ok stages) {stage : Stage} :
    stage ∈ stages ↔ s.stages.get? ⟨project, stage.name⟩ = some stage := by
  obtain ⟨-, rfl⟩ := up_of_map_ensureAvailable h
  constructor
  · intro hmem
    obtain ⟨⟨key, x⟩, hx, rfl⟩ := List.mem_map.1 hmem
    obtain ⟨hentry, hproject⟩ := List.mem_filter.1 hx
    have hget := Table.mem_toList_iff.1 hentry
    obtain rfl := hs.stages hget
    obtain rfl : x.key.project = project := by simpa using hproject
    exact hget
  · intro hget
    refine List.mem_map.2 ⟨(⟨project, stage.name⟩, stage), List.mem_filter.2 ⟨?_, ?_⟩, rfl⟩
    · exact Table.mem_toList_iff.2 hget
    · simp

end Store

end Delivery
