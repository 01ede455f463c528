import Delivery.Proofs.StoreStates
import Mathlib.Data.List.Induction

/-!
# What a store remembers

Everything that was ever done to a store is a list of `Store.Action`s: changes of its owner, calls
of its ports, and listings of what was created. Of such a history the store remembers the latest
word on every key (`Store.latest`), and its answers tell nothing else (`Store.after_remembers`).

* `Store.eq_latest` — a part of the store that some actions set is as the latest of them set it;
* `Store.perform_counting` — how many creations were attempted matters to no answer.
-/

namespace Delivery

namespace Store

/-- A call of one of the ports of a store. -/
inductive Port where
  | validateProject (project : String)
  | getStage (key : Key)
  | listStages (project : String)
  | getQualifiedFreight (key : Key) (candidates : List String)
  | create (r : Resource)

/-- Something that is done to a store. -/
inductive Action where
  | change (c : Change)
  | call (p : Port)
  /-- The created promotions of a project are listed. -/
  | promotions (project : String)

/-- What comes back from an action. -/
inductive Answer where
  | done
  | removed (stage : Option Stage)
  | validated (outcome : Except PromotionError Unit)
  | stage (found : Except StoreError (Option Stage))
  | stages (found : Except StoreError (List Stage))
  | freight (found : Except StoreError (Option Freight))
  | created (outcome : Except StoreError Unit)
  | promotions (found : Except StoreError (List Promotion))

/-- The answer to a call of a port, and the store after it. -/
def call (s : Store) : Port → Answer × Store
  | .validateProject project => (.validated (s.validateProject project), s)
  | .getStage key => (.stage (s.getStage key), s)
  | .listStages project => (.stages (s.listStages project), s)
  | .getQualifiedFreight key candidates => (.freight (s.getQualifiedFreight key candidates), s)
  | .create r => (.created (s.create r).1, (s.create r).2)

/-- What comes back from a change: the stage that was removed. -/
def Change.answer (s : Store) : Change → Answer
  | removeStage key => .removed (s.removeStage key).1
  | _ => .done

/-- Does something to a store. -/
def act (s : Store) : Action → Answer × Store
  | .change c => (c.answer s, c.apply s)
  | .call p => s.call p
  | .promotions project => (.promotions (s.promotions project), s)

/-- Does several things to a store, in order. -/
def perform : List Action → Store → List Answer × Store
  | [], s => ([], s)
  | a :: rest, s =>
    let (answer, s) := s.act a
    let (answers, s) := perform rest s
    (answer :: answers, s)

/-- The store with a history. -/
def after (h : List Action) : Store := (perform h empty).2

theorem perform_append (h k : List Action) (s : Store) :
    perform (h ++ k) s =
      ((perform h s).1 ++ (perform k (perform h s).2).1, (perform k (perform h s).2).2) := by
  induction h generalizing s with
  | nil => rfl
  | cons a rest ih => simp only [List.cons_append, perform, ih]

theorem after_append (h k : List Action) : after (h ++ k) = (perform k (after h)).2 := by
  rw [after, perform_append]
  rfl

theorem after_concat (h : List Action) (a : Action) : after (h ++ [a]) = ((after h).act a).2 :=
  after_append h [a]

/-! ## Histories and states -/

theorem call_eq_creating (s : Store) (p : Port) :
    (s.call p).2 = s.creating (s.call p).2.created (s.call p).2.attempts := by
  cases p with
  | create r => exact s.create_eq_creating r
  | _ => rfl

/-- The stores with a history are the states that a store can come to. -/
theorem reachable_iff {s : Store} : s.Reachable ↔ ∃ h, s = after h := by
  constructor
  · intro hs
    induction hs with
    | empty => exact ⟨[], rfl⟩
    | change c _ ih =>
        obtain ⟨h, rfl⟩ := ih
        exact ⟨h ++ [.change c], by rw [after_concat]; rfl⟩
    | create r _ ih =>
        obtain ⟨h, rfl⟩ := ih
        exact ⟨h ++ [.call (.create r)], by rw [after_concat]; rfl⟩
  · rintro ⟨h, rfl⟩
    induction h using List.reverseRecOn with
    | nil => exact .empty
    | append_singleton h a ih =>
        rw [after_concat]
        cases a with
        | change c => exact ih.change c
        | promotions project => exact ih
        | call p =>
            cases p with
            | create r => exact ih.create r
            | _ => exact ih

theorem sound_after (h : List Action) : (after h).Sound := (reachable_iff.2 ⟨h, rfl⟩).sound

/-! ## The latest word -/

/-- The change that an action is, if it is one. -/
def Action.change? : Action → Option Change
  | change c => some c
  | _ => none

/-- What the latest of the changes that set something have set it to. -/
def latest {α : Type} (w : Change → Option α) (h : List Action) : Option α :=
  (h.filterMap Action.change?).reverse.findSome? w

theorem latest_concat_change {α : Type} (w : Change → Option α) (h : List Action) (c : Change) :
    latest w (h ++ [.change c]) = (w c).or (latest w h) := by
  unfold latest
  rw [List.filterMap_append, List.reverse_append]
  show ([c].reverse ++ _).findSome? w = _
  rw [List.reverse_singleton, List.singleton_append, List.findSome?_cons]
  cases w c <;> rfl

theorem latest_concat_of_not_change {α : Type} (w : Change → Option α) (h : List Action)
    {a : Action} (ha : a.change? = none) : latest w (h ++ [a]) = latest w h := by
  unfold latest
  rw [List.filterMap_append, List.filterMap_cons_none ha, List.filterMap_nil, List.append_nil]

/-- The latest change that says something, which those after it do not. -/
theorem latest_eq_some {α : Type} {w : Change → Option α} {h : List Action} {x : α} :
    latest w h = some x ↔ ∃ pre c post, h.filterMap Action.change? = pre ++ c :: post ∧
      w c = some x ∧ ∀ b ∈ post, w b = none := by
  unfold latest
  rw [List.findSome?_eq_some_iff]
  constructor
  · rintro ⟨newer, c, older, heq, hc, hnewer⟩
    refine ⟨older.reverse, c, newer.reverse, ?_, hc, ?_⟩
    · rw [← List.reverse_inj, heq]
      simp
    · intro b hb
      exact hnewer b (List.mem_reverse.1 hb)
  · rintro ⟨pre, c, post, heq, hc, hpost⟩
    refine ⟨post.reverse, c, pre.reverse, by simp [heq], hc, ?_⟩
    intro b hb
    exact hpost b (List.mem_reverse.1 hb)

/-- **A part of the store that some changes set is as the latest of them set it**, when creations
have nothing to do with it. -/
theorem eq_latest {α : Type} (part : Store → α) {w : Change → Option α}
    (hchange : ∀ (s : Store) (c : Change), part (c.apply s) = (w c).getD (part s))
    (hcreating : ∀ (s : Store) created attempts, part (s.creating created attempts) = part s)
    (h : List Action) : part (after h) = (latest w h).getD (part empty) := by
  induction h using List.reverseRecOn with
  | nil => rfl
  | append_singleton h a ih =>
      rw [after_concat]
      cases a with
      | change c =>
          rw [latest_concat_change]
          refine (hchange (after h) c).trans ?_
          rw [ih]
          cases w c <;> rfl
      | call p =>
          rw [latest_concat_of_not_change w h rfl, ← ih]
          show part ((after h).call p).2 = _
          rw [call_eq_creating, hcreating]
      | promotions project =>
          rw [latest_concat_of_not_change w h rfl, ← ih]
          rfl

/-- The same of a part that is none to begin with. -/
theorem eq_join_latest {α : Type} (part : Store → Option α) {w : Change → Option (Option α)}
    (hchange : ∀ (s : Store) (c : Change), part (c.apply s) = (w c).getD (part s))
    (hcreating : ∀ (s : Store) created attempts, part (s.creating created attempts) = part s)
    (hempty : part empty = none) (h : List Action) : part (after h) = (latest w h).join := by
  rw [eq_latest part hchange hcreating, hempty]
  cases latest w h <;> rfl

namespace Change

/-- What a change makes of the stage under a key, if it has to do with it. -/
def stageAt (key : Key) : Change → Option (Option Stage)
  | putStage stage => if stage.key = key then some (some stage) else none
  | removeStage k => if k = key then some none else none
  | _ => none

/-- What a change makes of the freight under a key, if it has to do with it. -/
def freightAt (key : Key) : Change → Option (Option Freight)
  | putFreight freight => if freight.key = key then some (some freight) else none
  | _ => none

/-- The message with which the writes for a stage fail after a change, if it says so. -/
def failureAt (key : Key) : Change → Option (Option String)
  | failWritesFor k message => if k = key then some (some message) else none
  | _ => none

/-- Whether the store is down after a change, if it says so. -/
def switch : Change → Option Bool
  | setUnavailable unavailable => some unavailable
  | _ => none

/-- The project that a change registers. -/
def project? : Change → Option String
  | addProject project => some project
  | putStage stage => some stage.project
  | putFreight freight => some freight.metadata.project
  | _ => none

end Change

theorem get?_insert_eq_getD {α : Type} (t : Table Key α) (k key : Key) (x : α) :
    (t.insert k x).get? key = (if k = key then some (some x) else none).getD (t.get? key) := by
  rw [Table.get?_insert]
  by_cases hkey : key = k
  · simp [hkey]
  · simp [hkey, Ne.symm hkey]

theorem get?_stages_after (h : List Action) (key : Key) :
    (after h).stages.get? key = (latest (Change.stageAt key) h).join := by
  have hchange (s : Store) (c : Change) :
      (c.apply s).stages.get? key = (c.stageAt key).getD (s.stages.get? key) := by
    cases c with
    | putStage stage => exact get?_insert_eq_getD s.stages stage.key key stage
    | removeStage k =>
        show (s.stages.erase k).get? key = _
        rw [Table.get?_erase]
        by_cases hkey : key = k
        · simp [Change.stageAt, hkey]
        · simp [Change.stageAt, hkey, Ne.symm hkey]
    | _ => rfl
  exact eq_join_latest (fun s => s.stages.get? key) hchange (fun _ _ _ => rfl) rfl h

theorem get?_freight_after (h : List Action) (key : Key) :
    (after h).freight.get? key = (latest (Change.freightAt key) h).join := by
  have hchange (s : Store) (c : Change) :
      (c.apply s).freight.get? key = (c.freightAt key).getD (s.freight.get? key) := by
    cases c with
    | putFreight freight => exact get?_insert_eq_getD s.freight freight.key key freight
    | _ => rfl
  exact eq_join_latest (fun s => s.freight.get? key) hchange (fun _ _ _ => rfl) rfl h

theorem get?_failures_after (h : List Action) (key : Key) :
    (after h).failures.get? key = (latest (Change.failureAt key) h).join := by
  have hchange (s : Store) (c : Change) :
      (c.apply s).failures.get? key = (c.failureAt key).getD (s.failures.get? key) := by
    cases c with
    | failWritesFor k message => exact get?_insert_eq_getD s.failures k key message
    | _ => rfl
  exact eq_join_latest (fun s => s.failures.get? key) hchange (fun _ _ _ => rfl) rfl h

theorem unavailable_after (h : List Action) :
    (after h).unavailable = (latest Change.switch h).getD false := by
  refine eq_latest Store.unavailable ?_ (fun _ _ _ => rfl) h
  intro s c
  cases c <;> rfl

theorem contains_apply (c : Change) (s : Store) (project : String) :
    (c.apply s).projects.contains project = true ↔
      c.project? = some project ∨ s.projects.contains project = true := by
  have hinsert (p : String) : (s.projects.insert p ()).contains project = true ↔
      some p = some project ∨ s.projects.contains project = true := by
    unfold Table.contains
    rw [Table.get?_insert]
    by_cases hp : project = p
    · simp [hp]
    · simp [hp, Ne.symm hp]
  cases c with
  | addProject p => exact hinsert p
  | putStage stage => exact hinsert stage.project
  | putFreight freight => exact hinsert freight.metadata.project
  | removeStage key => simp [Change.apply, removeStage, Change.project?]
  | failWritesFor stage message => simp [Change.apply, failWritesFor, Change.project?]
  | setUnavailable unavailable => simp [Change.apply, setUnavailable, Change.project?]

/-- A project that was registered stays registered. -/
theorem contains_projects_after (h : List Action) (project : String) :
    (after h).projects.contains project = true ↔
      ∃ c, .change c ∈ h ∧ c.project? = some project := by
  induction h using List.reverseRecOn with
  | nil => simp [after, perform, empty, Table.contains]
  | append_singleton h a ih =>
      rw [after_concat]
      cases a with
      | change c =>
          show (c.apply (after h)).projects.contains project = true ↔ _
          rw [contains_apply, ih]
          constructor
          · rintro (hc | ⟨d, hd, hproject⟩)
            · exact ⟨c, by simp, hc⟩
            · exact ⟨d, List.mem_append_left _ hd, hproject⟩
          · rintro ⟨d, hd, hproject⟩
            rcases List.mem_append.1 hd with hd | hd
            · exact .inr ⟨d, hd, hproject⟩
            · obtain rfl := Action.change.inj (List.mem_singleton.1 hd)
              exact .inl hproject
      | call p =>
          show ((after h).call p).2.projects.contains project = true ↔ _
          rw [call_eq_creating]
          simpa [creating] using ih
      | promotions p => simpa [act] using ih

/-! ## Reading -/

theorem getStage_of_up {s : Store} (hs : s.unavailable = false) (key : Key) :
    s.getStage key = .ok (s.stages.get? key) := by
  unfold getStage
  rw [ensureAvailable_of_up hs]
  rfl

theorem getQualifiedFreight_of_up {s : Store} (hs : s.unavailable = false) (key : Key)
    (candidates : List String) : s.getQualifiedFreight key candidates =
      .ok ((s.freight.get? key).filter fun f => f.isQualifiedForAny candidates) := by
  unfold getQualifiedFreight
  rw [ensureAvailable_of_up hs]
  rfl

theorem validateProject_of_up {s : Store} (hs : s.unavailable = false) (project : String) :
    s.validateProject project = if s.projects.contains project then .ok ()
      else .error (.notFound ("project " ++ Text.quote project ++ " not found")) := by
  unfold validateProject
  rw [ensureAvailable_of_up hs]

/-- Within one project keys are ordered by name. -/
theorem name_lt_of_compare {a b : Key} (h : compare a b = .lt) (hproject : a.project = b.project) :
    a.name < b.name := by
  have hself : compare b.project b.project = .eq := Std.ReflCmp.compare_self
  rw [Key.compare_def, hproject, hself] at h
  exact compareOfLessAndEq_eq_lt.1 h

/-- A sound store lists the stages of a project in strict name order. -/
theorem Sound.exists_listStages {s : Store} (hs : s.Sound) (hup : s.unavailable = false)
    (project : String) : ∃ l, s.listStages project = .ok l ∧
      l.Pairwise fun a b => a.name < b.name := by
  let entries := s.stages.toList.filter fun e => e.1.project == project
  have hentry : ∀ e ∈ entries, e.2.key = e.1 ∧ e.1.project = project := by
    intro e he
    obtain ⟨hmem, hproject⟩ := List.mem_filter.1 he
    exact ⟨hs.stages (Table.mem_toList_iff.1 hmem), by simpa using hproject⟩
  refine ⟨entries.map Prod.snd, ?_, ?_⟩
  · unfold listStages
    rw [ensureAvailable_of_up hup]
    rfl
  · rw [List.pairwise_map]
    refine (s.stages.sorted.filter _).imp_of_mem ?_
    intro a b ha hb hlt
    obtain ⟨hkey, hproject⟩ := hentry a ha
    obtain ⟨hkey', hproject'⟩ := hentry b hb
    rw [← hkey, ← hkey'] at hlt
    refine name_lt_of_compare hlt ?_
    rw [hkey, hkey', hproject, hproject']

/-! ## Outages -/

/-- The answer of a port while the store is down. -/
def Port.refusal : Port → Answer
  | validateProject _ => .validated (.error (.internal (.backend "store unavailable")))
  | getStage _ => .stage (.error (.backend "store unavailable"))
  | listStages _ => .stages (.error (.backend "store unavailable"))
  | getQualifiedFreight .. => .freight (.error (.backend "store unavailable"))
  | create _ => .created (.error (.backend "store unavailable"))

/-- Whether a call attempts to create something. -/
def Port.creates : Port → Bool
  | create _ => true
  | _ => false

/-- The same store with more attempted creations. -/
def counting (s : Store) (n : Nat) : Store := { s with attempts := s.attempts + n }

@[simp] theorem counting_zero (s : Store) : s.counting 0 = s := rfl

theorem counting_counting (s : Store) (n k : Nat) :
    (s.counting n).counting k = s.counting (n + k) := by
  simp only [counting, Nat.add_assoc]

theorem create_of_down {s : Store} (hs : s.unavailable = true) (r : Resource) :
    s.create r = (.error (.backend "store unavailable"), s.counting 1) := by
  unfold create refusal?
  rw [ensureAvailable_of_down hs]
  rfl

/-- A store that is down refuses every call, and only counts it. -/
theorem call_of_down {s : Store} (hs : s.unavailable = true) (p : Port) :
    s.call p = (p.refusal, s.counting p.creates.toNat) := by
  cases p with
  | create r =>
      simp only [call, create_of_down hs]
      rfl
  | validateProject project =>
      simp only [call, validateProject, ensureAvailable_of_down hs]
      rfl
  | getStage key =>
      simp only [call, getStage, ensureAvailable_of_down hs]
      rfl
  | listStages project =>
      simp only [call, listStages, ensureAvailable_of_down hs]
      rfl
  | getQualifiedFreight key candidates =>
      simp only [call, getQualifiedFreight, ensureAvailable_of_down hs]
      rfl

theorem perform_of_down {s : Store} (hs : s.unavailable = true) (ports : List Port) :
    (perform (ports.map .call) s).2 = s.counting (ports.countP Port.creates) := by
  induction ports generalizing s with
  | nil => rfl
  | cons p rest ih =>
      have hrest : (s.counting p.creates.toNat).unavailable = true := hs
      have hcount : p.creates.toNat + rest.countP Port.creates =
          (p :: rest).countP Port.creates := by
        rw [List.countP_cons, Nat.add_comm]
        cases p.creates <;> rfl
      show (perform (rest.map .call) (s.call p).2).2 = _
      rw [call_of_down hs, ih hrest, counting_counting, hcount]

theorem create_counting (s : Store) (n : Nat) (r : Resource) :
    (s.counting n).create r = ((s.create r).1, (s.create r).2.counting n) := by
  have hrefusal : (s.counting n).refusal? r = s.refusal? r := by
    cases r <;> rfl
  unfold create
  rw [hrefusal]
  cases s.refusal? r <;> simp only [counting, Nat.add_right_comm]

theorem act_counting (s : Store) (n : Nat) (a : Action) :
    (s.counting n).act a = ((s.act a).1, (s.act a).2.counting n) := by
  cases a with
  | change c => cases c <;> rfl
  | promotions project => rfl
  | call p =>
      cases p with
      | create r => simp only [act, call, create_counting]
      | _ => rfl

/-- **How many creations were attempted matters to no answer.** -/
theorem perform_counting (h : List Action) (s : Store) (n : Nat) :
    perform h (s.counting n) = ((perform h s).1, (perform h s).2.counting n) := by
  induction h generalizing s with
  | nil => rfl
  | cons a rest ih => simp only [perform, act_counting, ih]

/-! ## What is remembered -/

/-- A store answers as the history says that its answers should be. -/
structure Remembers (h : List Action) (s : Store) : Prop where
  /-- The store is down when it was taken down and not up again. -/
  down : s.unavailable = (latest Change.switch h).getD false
  /-- A registered project is accepted, and no other one. -/
  projects : s.unavailable = false → ∀ project,
    (∃ c, .change c ∈ h ∧ c.project? = some project) ∧ s.validateProject project = .ok () ∨
    (∀ c, .change c ∈ h → c.project? ≠ some project) ∧ s.validateProject project =
      .error (.notFound ("project " ++ Text.quote project ++ " not found"))
  /-- The stage under a key is the one that was put there last, if it was not removed since. -/
  stage : s.unavailable = false → ∀ key,
    s.getStage key = .ok (latest (Change.stageAt key) h).join
  /-- The stages of a project are listed by name, each once. -/
  stages : s.unavailable = false → ∀ project, ∃ l, s.listStages project = .ok l ∧
    (l.Pairwise fun a b => a.name < b.name) ∧ ∀ stage, stage ∈ l ↔
      stage.project = project ∧ (latest (Change.stageAt stage.key) h).join = some stage
  /-- The freight under a key is the one that was put there last, and it is given to those who name
  a stage that it is qualified for. -/
  freight : s.unavailable = false → ∀ key candidates, ∃ found,
    s.getQualifiedFreight key candidates = .ok found ∧ ∀ f, found = some f ↔
      (latest (Change.freightAt key) h).join = some f ∧
        ∃ stage ∈ candidates, f.isQualifiedFor stage = true
  /-- While the store is down every call is refused, -/
  refused : s.unavailable = true → ∀ p : Port, (s.call p).1 = p.refusal
  /-- and nobody can tell later whether there were any, but for the creations attempted. -/
  outage : s.unavailable = true → ∀ (ports : List Port) (later : List Action),
    perform later (after (h ++ ports.map .call)) =
      ((perform later s).1, (perform later s).2.counting (ports.countP Port.creates))

/-- **A store remembers its history**, and nothing else. -/
theorem after_remembers (h : List Action) : Remembers h (after h) where
  down := unavailable_after h
  projects := by
    intro hup project
    rw [validateProject_of_up hup]
    by_cases hproject : (after h).projects.contains project = true
    · left
      rw [if_pos hproject]
      exact ⟨(contains_projects_after h project).1 hproject, rfl⟩
    · right
      rw [if_neg hproject]
      refine ⟨?_, rfl⟩
      intro c hc hregistered
      exact hproject ((contains_projects_after h project).2 ⟨c, hc, hregistered⟩)
  stage := by
    intro hup key
    rw [getStage_of_up hup, get?_stages_after]
  stages := by
    intro hup project
    obtain ⟨l, hl, hsorted⟩ := (sound_after h).exists_listStages hup project
    refine ⟨l, hl, hsorted, ?_⟩
    intro stage
    rw [(sound_after h).mem_listStages hl, ← get?_stages_after]
    -- A listing goes by the keys, and a stage stands under its own key.
    constructor
    · intro hget
      have hkey := (sound_after h).stages hget
      rw [hkey]
      exact ⟨congrArg Key.project hkey, hget⟩
    · rintro ⟨rfl, hget⟩
      exact hget
  freight := by
    intro hup key candidates
    refine ⟨_, getQualifiedFreight_of_up hup key candidates, ?_⟩
    intro f
    rw [Option.filter_eq_some_iff, get?_freight_after, Freight.isQualifiedForAny, List.any_eq_true]
  refused := by
    intro hdown p
    rw [call_of_down hdown]
  outage := by
    intro hdown ports later
    rw [after_append, perform_of_down hdown, perform_counting]

end Store

end Delivery
