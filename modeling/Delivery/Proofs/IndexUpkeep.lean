import Delivery.Proofs.Agreement
import Delivery.Proofs.SubscriberIndexes
import Delivery.Session

/-!
# Indexes that are kept up

The index of a project is as good as its last rebuild. Whatever is done to the store and to the
indexes in between (`Upkeep`), the index answers what a scan answered then, and as long as no stage
of the project has changed since, it answers what a scan answers now. A cascade that goes by the
index does then what a cascade that scans does (`Session.indexes_follow`).
-/

namespace Delivery

/-- Something that is done around the indexes of a session. -/
inductive Upkeep where
  /-- The owner of the store changes it. -/
  | change (c : Store.Change)
  | create (r : Resource)
  /-- The index of a project is to be rebuilt. -/
  | refresh (context : Context) (project : String)

/-- A change has to do with the stages of a project. -/
def Store.Change.Touches (project : String) : Store.Change → Prop
  | putStage stage => stage.project = project
  | removeStage key => key.project = project
  | _ => False

namespace Session

/-- Does something around the indexes. -/
def tend (s : Session) : Upkeep → Session
  | .change c => s.mapStore c.apply
  | .create r => (s.create r).2
  | .refresh c project => (s.refreshIndex c project).2

/-- Does several things around the indexes, in order. -/
def tended (s : Session) (h : List Upkeep) : Session := h.foldl tend s

/-- An index that was rebuilt: the session before, the context, and what was done since. -/
structure Rebuilt where
  before : Session
  context : Context
  since : List Upkeep

/-- The last time that the index of a project was rebuilt. -/
def lastRebuilt (project : String) (s : Session) : List Upkeep → Option Rebuilt
  | [] => none
  | a :: rest =>
    match lastRebuilt project (s.tend a) rest with
    | some r => some r
    | none =>
      match a with
      | .refresh c p =>
        if p = project ∧ (s.refreshIndex c p).1.isOk then some ⟨s, c, rest⟩ else none
      | _ => none

end Session

/-! ## Listings -/

theorem Table.lookup_filter {κ α : Type} [Ord κ] [Std.LawfulEqOrd κ] (q : κ → Bool) (k : κ)
    (l : List (κ × α)) :
    lookup k (l.filter fun e => q e.1) = if q k then lookup k l else none := by
  induction l with
  | nil => simp [lookup]
  | cons e rest ih =>
      obtain ⟨k', v⟩ := e
      by_cases hk : k = k'
      · subst hk
        cases hq : q k <;> simp [lookup, ih, hq]
      · cases hq : q k' <;> simp [lookup, ih, hq, hk]

/-- What is listed for a project depends on its stages alone. -/
theorem Store.listStages_congr {s t : Store} {project : String} {stages : List Stage}
    (hlisted : s.listStages project = .ok stages)
    (hstages : ∀ key : Key, key.project = project → t.stages.get? key = s.stages.get? key)
    (ht : t.unavailable = false) : t.listStages project = .ok stages := by
  have hentries : t.stages.toList.filter (fun e => e.1.project == project) =
      s.stages.toList.filter fun e => e.1.project == project := by
    refine Table.entries_ext (t.stages.sorted.filter _) (s.stages.sorted.filter _) ?_
    intro key
    have hfilter (stages : Table Key Stage) := Table.lookup_filter
      (fun key : Key => key.project == project) key stages.entries
    refine (hfilter t.stages).trans (Eq.trans ?_ (hfilter s.stages).symm)
    by_cases hkey : key.project = project
    · have hget : Table.lookup key t.stages.entries = Table.lookup key s.stages.entries :=
        hstages key hkey
      rw [hget]
    · simp [hkey]
  obtain ⟨-, rfl⟩ := up_of_map_ensureAvailable hlisted
  unfold listStages
  rw [ensureAvailable_of_up ht, hentries]
  rfl

/-! ## Collaborators without scripts -/

namespace Rehearsal

/-- What collaborators without scripts answer: what the store does. -/
def reply (validates : Bool) (r : Request) (x : Rehearsal) :
    Except StoreError r.Answer × Rehearsal :=
  ((Store.response validates r x.store).1,
    { x with store := (Store.response validates r x.store).2 })

theorem serve_eq {validates : Bool} {index : Option (Rehearsal → Stage → List Stage)}
    {stamps : Nat → Promotion.Stamp} {sink : Sink} {config : Config} {x : Rehearsal}
    (hx : x.scripts = {}) {r : Request} (hr : ∀ stage, r ≠ .subscribers stage) :
    (backend.service validates index stamps sink config).serve r x =
      (.answer (reply validates r), x) := by
  obtain ⟨store, scripts, indexes⟩ := x
  obtain rfl : scripts = {} := hx
  cases r with
  | subscribers stage => exact absurd rfl (hr stage)
  | validate project => cases validates <;> rfl
  | _ => rfl

/-- A service over such collaborators that scans for subscribers. -/
def scanning (validates : Bool) (stamps : Nat → Promotion.Stamp) (sink : Sink) (config : Config) :
    Service Rehearsal :=
  backend.service validates none stamps sink config

/-- The same service, but that it looks subscribers up in the indexes. -/
def indexing (validates : Bool) (stamps : Nat → Promotion.Stamp) (sink : Sink) (config : Config) :
    Service Rehearsal :=
  backend.service validates (some indexed) stamps sink config

theorem twins (validates : Bool) (stamps : Nat → Promotion.Stamp) (sink : Sink) (config : Config) :
    (scanning validates stamps sink config).Twins (indexing validates stamps sink config) :=
  ⟨rfl, rfl⟩

end Rehearsal

/-! ## Queries of a session -/

theorem run_listStages {σ : Type} (s : Service σ) (context : Context) (project : String)
    (w : World σ) : ∃ logs, (listStages project).run s context w =
      ((s.call context (.stages project) w).1,
        { (s.call context (.stages project) w).2 with logs }) := by
  unfold listStages
  rw [Plan.bind_def, Plan.run_bind, Plan.run_ask]
  rcases s.call context (.stages project) w with ⟨e | stages, v⟩
  · exact ⟨v.logs, rfl⟩
  · exact ⟨_, rfl⟩

theorem run_scanSubscribers {σ : Type} (s : Service σ) (context : Context) (stage : Stage)
    (w : World σ) : ∃ logs, (scanSubscribers stage).run s context w =
      ((s.call context (.stages stage.project) w).1.map fun stages =>
        subscribersOf stages stage.name,
        { (s.call context (.stages stage.project) w).2 with logs }) := by
  obtain ⟨logs, hlist⟩ := run_listStages s context stage.project w
  unfold scanSubscribers
  rw [Plan.bind_def, Plan.run_bind, hlist]
  rcases s.call context (.stages stage.project) w with ⟨e | stages, v⟩
  · exact ⟨logs, rfl⟩
  · exact ⟨_, rfl⟩

namespace Session

theorem plain_eq : plain = Rehearsal.backend.service true (some Rehearsal.indexed)
    (fun _ => ⟨.nil, default⟩) .discarding {} := rfl

/-- A listing is refused by its context, or is what the store lists. -/
theorem plain_call {s : Session} (hscripts : s.world.state.scripts = {}) (c : Context)
    (project : String) :
    (∃ e, s.check c = .error e ∧ plain.call c (.stages project) s.world = (.error e, s.world)) ∨
    s.check c = .ok () ∧ ∃ calls, plain.call c (.stages project) s.world =
      (s.store.listStages project, { s.world with calls }) := by
  have hserve : plain.serve (.stages project) s.world.state =
      (.answer (Rehearsal.reply true (.stages project)), s.world.state) := by
    rw [plain_eq]
    exact Rehearsal.serve_eq hscripts (by simp)
  cases hcheck : s.check c with
  | error e =>
      have hended : (plain.callContext c s.world.now).check s.world.tokens s.world.now =
          .error e := hcheck
      exact .inl ⟨e, rfl, Service.call_of_ended hended _⟩
  | ok u =>
      have hstarts : plain.Starts c s.world := hcheck
      exact .inr ⟨rfl, Service.call_prompt hserve hstarts⟩

/-- What a scan finds in a session: what the store lists. -/
theorem query_scan {s : Session} (hscripts : s.world.state.scripts = {}) (c : Context)
    (stage : Stage) : (s.query c (Resolver.scan.subscribers stage)).1 =
      match s.check c with
      | .error e => .error e
      | .ok () => (s.store.listStages stage.project).map fun stages =>
          subscribersOf stages stage.name := by
  show ((scanSubscribers stage).run plain c s.world).1 = _
  obtain ⟨logs, hscan⟩ := run_scanSubscribers plain c stage s.world
  rw [hscan]
  rcases plain_call hscripts c stage.project with ⟨e, hcheck, hcall⟩ | ⟨hcheck, calls, hcall⟩
  · rw [hcall, hcheck]
    rfl
  · rw [hcall, hcheck]

/-- What is found in the indexes of a session. -/
theorem query_index (s : Session) (c : Context) (stage : Stage) :
    (s.query c (Resolver.index.subscribers stage)).1 =
      match s.check c with
      | .error e => .error e
      | .ok () => .ok (s.world.state.indexes.subscribers stage) := by
  show (plain.call c (.subscribers stage) s.world).1 = _
  cases hcheck : s.check c with
  | error e =>
      have hended : (plain.callContext c s.world.now).check s.world.tokens s.world.now =
          .error e := hcheck
      rw [Service.call_of_ended hended]
  | ok u =>
      have hstarts : plain.Starts c s.world := hcheck
      obtain ⟨calls, hcall⟩ := Service.call_prompt (r := .subscribers stage) rfl hstarts
      rw [hcall]
      rfl

/-- Rebuilding an index fails and changes nothing, or puts in place what the store lists. -/
theorem refreshIndex_cases {s : Session} (hscripts : s.world.state.scripts = {}) (c : Context)
    (project : String) : s.world.Still (s.refreshIndex c project).2.world ∧
    ((∃ e, (s.refreshIndex c project).1 = .error e ∧
        (s.refreshIndex c project).2.world.state = s.world.state) ∨
      ∃ stages, s.check c = .ok () ∧ s.store.listStages project = .ok stages ∧
        (s.refreshIndex c project).1 = .ok () ∧
        (s.refreshIndex c project).2.world.state =
          { s.world.state with
            indexes := s.world.state.indexes.replace project stages }) := by
  obtain ⟨logs, hlist⟩ := run_listStages plain c project s.world
  have hquery : s.query c (listStages project) =
      ((plain.call c (.stages project) s.world).1,
        { s with
          world := { (plain.call c (.stages project) s.world).2 with logs, agenda := {} } }) := by
    unfold query during
    dsimp only
    rw [hlist]
  unfold refreshIndex
  rw [hquery]
  rcases plain_call hscripts c project with ⟨e, hcheck, hcall⟩ | ⟨hcheck, calls, hcall⟩
  · rw [hcall]
    exact ⟨⟨rfl, rfl, rfl⟩, .inl ⟨e, rfl, rfl⟩⟩
  · rw [hcall]
    cases hstages : s.store.listStages project with
    | error e => exact ⟨⟨rfl, rfl, rfl⟩, .inl ⟨e, rfl, rfl⟩⟩
    | ok stages => exact ⟨⟨rfl, rfl, rfl⟩, .inr ⟨stages, hcheck, rfl, rfl, rfl⟩⟩

/-- Rebuilding an index touches nothing but the indexes. -/
theorem refreshIndex_frame {s : Session} (hscripts : s.world.state.scripts = {}) (c : Context)
    (project : String) : ∃ indexes,
      (s.refreshIndex c project).2.world.state = { s.world.state with indexes } := by
  obtain ⟨-, ⟨e, -, hstate⟩ | ⟨stages, -, -, -, hstate⟩⟩ := refreshIndex_cases hscripts c project
  · exact ⟨_, hstate⟩
  · exact ⟨_, hstate⟩

/-! ## Histories -/

theorem tended_append (s : Session) (h k : List Upkeep) :
    s.tended (h ++ k) = (s.tended h).tended k := List.foldl_append

theorem scripts_tend {s : Session} (hscripts : s.world.state.scripts = {}) (a : Upkeep) :
    (s.tend a).world.state.scripts = {} := by
  cases a with
  | change c => exact hscripts
  | create r => exact hscripts
  | refresh c project =>
      obtain ⟨indexes, hstate⟩ := refreshIndex_frame hscripts c project
      rw [tend, hstate]
      exact hscripts

theorem scripts_tended {s : Session} (hscripts : s.world.state.scripts = {}) (h : List Upkeep) :
    (s.tended h).world.state.scripts = {} := by
  induction h generalizing s with
  | nil => exact hscripts
  | cons a rest ih => exact ih (scripts_tend hscripts a)

theorem sound_tended {s : Session} (hscripts : s.world.state.scripts = {}) (hs : s.store.Sound)
    (h : List Upkeep) : (s.tended h).store.Sound := by
  induction h generalizing s with
  | nil => exact hs
  | cons a rest ih =>
      refine ih (scripts_tend hscripts a) ?_
      cases a with
      | change c => exact hs.change c
      | create r => exact hs.create r
      | refresh c project =>
          obtain ⟨indexes, hstate⟩ := refreshIndex_frame hscripts c project
          rw [store, tend, hstate]
          exact hs

/-- Stages of a project that nobody touches stay as they are. -/
theorem get?_stages_tended {s : Session} (hscripts : s.world.state.scripts = {})
    {project : String} {h : List Upkeep}
    (huntouched : ∀ c, .change c ∈ h → ¬ Store.Change.Touches project c) {key : Key}
    (hkey : key.project = project) :
    (s.tended h).store.stages.get? key = s.store.stages.get? key := by
  induction h generalizing s with
  | nil => rfl
  | cons a rest ih =>
      refine (ih (scripts_tend hscripts a) fun c hc => huntouched c (.tail _ hc)).trans ?_
      cases a with
      | create r =>
          show (s.store.create r).2.stages.get? key = _
          rw [Store.create_eq_creating]
          rfl
      | refresh c project =>
          obtain ⟨indexes, hstate⟩ := refreshIndex_frame hscripts c project
          rw [store, tend, hstate]
          rfl
      | change c =>
          have hc := huntouched c (.head _)
          show (c.apply s.store).stages.get? key = _
          cases c with
          | putStage stage =>
              show (s.store.stages.insert stage.key stage).get? key = _
              have hne : key ≠ stage.key := by
                rintro rfl
                exact hc hkey
              rw [Table.get?_insert, if_neg hne]
          | removeStage k =>
              show (s.store.stages.erase k).get? key = _
              have hne : key ≠ k := by
                rintro rfl
                exact hc hkey
              rw [Table.get?_erase, if_neg hne]
          | _ => rfl

/-! ## The last rebuild -/

theorem lastRebuilt_eq_some {project : String} {s : Session} {h : List Upkeep} {r : Rebuilt}
    (hr : lastRebuilt project s h = some r) :
    ∃ pre, h = pre ++ .refresh r.context project :: r.since ∧ r.before = s.tended pre ∧
      (r.before.refreshIndex r.context project).1 = .ok () ∧
      lastRebuilt project (r.before.tend (.refresh r.context project)) r.since = none := by
  induction h generalizing s with
  | nil => cases hr
  | cons a rest ih =>
      -- The last rebuild is in the rest, or it is what is done first.
      unfold lastRebuilt at hr
      cases hrest : lastRebuilt project (s.tend a) rest with
      | some r' =>
          rw [hrest] at hr
          obtain rfl := Option.some.inj hr
          obtain ⟨pre, rfl, hbefore, hlast⟩ := ih hrest
          exact ⟨a :: pre, rfl, hbefore, hlast⟩
      | none =>
          rw [hrest] at hr
          cases a with
          | change c => cases hr
          | create r => cases hr
          | refresh c p =>
              dsimp only at hr
              by_cases hrebuilt : p = project ∧ (s.refreshIndex c p).1.isOk = true
              · rw [if_pos hrebuilt] at hr
                obtain rfl := Option.some.inj hr
                obtain ⟨rfl, hok⟩ := hrebuilt
                refine ⟨[], rfl, rfl, ?_, hrest⟩
                cases hresult : (s.refreshIndex c p).1 with
                | ok u => rfl
                | error e =>
                    rw [hresult] at hok
                    cases hok
              · rw [if_neg hrebuilt] at hr
                cases hr

/-- An index that is not rebuilt stays as it is. -/
theorem get?_indexes_of_none {s : Session} (hscripts : s.world.state.scripts = {})
    {project : String} {h : List Upkeep} (hnone : lastRebuilt project s h = none) :
    (s.tended h).world.state.indexes.get? project = s.world.state.indexes.get? project := by
  induction h generalizing s with
  | nil => rfl
  | cons a rest ih =>
      unfold lastRebuilt at hnone
      cases hrest : lastRebuilt project (s.tend a) rest with
      | some r =>
          rw [hrest] at hnone
          cases hnone
      | none =>
          rw [hrest] at hnone
          refine (ih (scripts_tend hscripts a) hrest).trans ?_
          cases a with
          | change c => rfl
          | create r => rfl
          | refresh c p =>
              obtain ⟨-, ⟨-, -, hstate⟩ | ⟨stages, -, -, hok, hstate⟩⟩ :=
                refreshIndex_cases hscripts c p
              · rw [tend, hstate]
              · have hne : project ≠ p := by
                  rintro rfl
                  simp [hok, Except.isOk, Except.toBool] at hnone
                rw [tend, hstate]
                exact (SubscriberIndexes.get?_replace ..).trans (if_neg hne)

/-- An index is that of what the store listed when it was rebuilt last. -/
theorem get?_indexes_of_some {s : Session} (hscripts : s.world.state.scripts = {})
    {project : String} {h : List Upkeep} {r : Rebuilt} (hr : lastRebuilt project s h = some r) :
    r.before.world.state.scripts = {} ∧ r.before.check r.context = .ok () ∧
      ∃ stages, r.before.store.listStages project = .ok stages ∧
        (s.tended h).world.state.indexes.get? project = some (.build stages) := by
  obtain ⟨pre, rfl, hbefore, hok, hnone⟩ := lastRebuilt_eq_some hr
  have hpre : r.before.world.state.scripts = {} := by
    rw [hbefore]
    exact scripts_tended hscripts pre
  obtain ⟨-, ⟨e, herror, -⟩ | ⟨stages, hcheck, hstages, -, hstate⟩⟩ :=
    refreshIndex_cases hpre r.context project
  · rw [hok] at herror
    cases herror
  · refine ⟨hpre, hcheck, stages, hstages, ?_⟩
    rw [tended_append, ← hbefore]
    refine (get?_indexes_of_none (scripts_tend hpre _) hnone).trans ?_
    rw [tend, hstate]
    exact (SubscriberIndexes.get?_replace ..).trans (if_pos rfl)

end Session

/-! ## Cascades by an index -/

section Cascades

variable {validates : Bool} {stamps : Nat → Promotion.Stamp} {sink : Sink} {config : Config}
  {x : Rehearsal}

/-- Nothing has changed yet. -/
def Unchanged (x y y' : Rehearsal) : Prop := y = x ∧ y' = x

theorem agrees_ask_unchanged (hx : x.scripts = {}) {r : Request}
    (hr : ∀ stage, r ≠ .subscribers stage) (hcreate : ∀ p, r ≠ .create p)
    {P : Except StoreError r.Answer → Prop} (herror : ∀ e, P (.error e))
    (hanswer : P (Store.response validates r x.store).1) :
    (Plan.ask r).Agrees (Unchanged x) (Rehearsal.scanning validates stamps sink config)
      (Rehearsal.indexing validates stamps sink config) P (Plan.ask r) := by
  refine Plan.agrees_ask (Rehearsal.twins ..) herror ?_
  rintro y y' ⟨rfl, rfl⟩
  have hreads : (Rehearsal.reply validates r y').2 = y' := by
    cases r with
    | create p => exact absurd rfl (hcreate p)
    | _ => rfl
  exact ⟨_, _, Rehearsal.serve_eq hx hr, Rehearsal.serve_eq hx hr, rfl, hanswer, hreads, hreads⟩

/-- Where an index has what a scan finds, asking the one is as good as the other. -/
theorem agrees_scan_index (hx : x.scripts = {}) {stage : Stage} {stages : List Stage}
    (hlisted : x.store.listStages stage.project = .ok stages)
    (hindex : x.indexes.subscribers stage = subscribersOf stages stage.name) :
    (scanSubscribers stage).Agrees (Unchanged x)
      (Rehearsal.scanning validates stamps sink config)
      (Rehearsal.indexing validates stamps sink config)
      (fun _ => True) (Plan.ask (.subscribers stage)) := by
  let scanning := Rehearsal.scanning validates stamps sink config
  let indexing := Rehearsal.indexing validates stamps sink config
  intro context w w' hw
  obtain ⟨calls, logs, y, rfl, hstate, rfl⟩ := hw
  let w' : World Rehearsal := { w with calls, logs, state := y }
  obtain ⟨lines, hscan⟩ := run_scanSubscribers scanning context stage w
  -- Both services ask one question, so the context refuses both or neither.
  cases hcheck : (scanning.callContext context w.now).check w.tokens w.now with
  | error e =>
      have hcheck' : (indexing.callContext context w'.now).check w'.tokens w'.now = .error e :=
        hcheck
      have hcall' : (Plan.ask (.subscribers stage)).run indexing context w' = (.error e, w') :=
        Service.call_of_ended hcheck' (.subscribers stage)
      rw [Service.call_of_ended hcheck] at hscan
      rw [hscan, hcall']
      exact ⟨rfl, trivial, calls, logs, y, rfl, hstate, rfl⟩
  | ok u =>
      have hserve : scanning.serve (.stages stage.project) w.state =
          (.answer (Rehearsal.reply validates (.stages stage.project)), w.state) :=
        Rehearsal.serve_eq (by rw [hstate]; exact hx) (by simp)
      obtain ⟨recorded, hcall⟩ := Service.call_prompt hserve hcheck
      obtain ⟨recorded', hcall'⟩ := Service.call_prompt (s := indexing) (r := .subscribers stage)
        (w := w') rfl hcheck
      have hlisting : (Rehearsal.reply validates (.stages stage.project) w.state).1 =
          .ok stages := by
        rw [hstate]
        exact hlisted
      have hfound : (Plan.ask (.subscribers stage)).run indexing context w' =
          (.ok (y.indexes.subscribers stage), { w' with calls := recorded' }) := hcall'
      rw [hcall, hlisting] at hscan
      rw [hscan, hfound, hindex]
      exact ⟨rfl, trivial, recorded', logs, y, rfl, hstate, rfl⟩

/-- Up to its writes a cascade goes the same way, if the index has what a scan finds. -/
theorem agrees_resolution_index (hx : x.scripts = {}) (hsound : x.store.Sound) {m : Move}
    {stages : List Stage} (hlisted : x.store.listStages m.project = .ok stages)
    (hindex : ∀ stage : Stage, stage.project = m.project →
      x.indexes.subscribers stage = subscribersOf stages stage.name) :
    (resolution .scan m).Agrees (Unchanged x) (Rehearsal.scanning validates stamps sink config)
      (Rehearsal.indexing validates stamps sink config) (fun _ => True) (resolution .index m) := by
  have htwins := Rehearsal.twins validates stamps sink config
  have hstage : ∀ stage, (Store.response validates (.stage ⟨m.project, m.stage⟩) x.store).1 =
      .ok (some stage) → stage.project = m.project := by
    intro stage hanswer
    exact congrArg Key.project (hsound.stages (Store.getStage_eq_some hanswer))
  have heligible : (eligibleStage m cascadeCandidates).Agrees (Unchanged x)
      (Rehearsal.scanning validates stamps sink config)
      (Rehearsal.indexing validates stamps sink config) (fun stage => stage.project = m.project)
      (eligibleStage m cascadeCandidates) :=
    Operation.agrees_eligibleStage htwins m cascadeCandidates
      (agrees_ask_unchanged hx (by simp) (by simp) (fun _ => trivial) trivial)
      (agrees_ask_unchanged hx (by simp) (by simp) (by simp) hstage)
      (fun _ => agrees_ask_unchanged hx (by simp) (by simp) (fun _ => trivial) trivial)
  refine agrees_resolution htwins m heligible ?_
  intro stage hproject
  have hagrees : (scanSubscribers stage).Agrees (Unchanged x)
      (Rehearsal.scanning validates stamps sink config)
      (Rehearsal.indexing validates stamps sink config) (fun _ => True)
      (Plan.ask (.subscribers stage)) :=
    agrees_scan_index hx (by rw [hproject]; exact hlisted) (hindex stage hproject)
  exact hagrees.imp fun _ _ _ _ => trivial

/-- From one world a cascade that scans and a cascade that goes by an index come to the same, if the
index has what a scan finds. -/
theorem agrees_promoteSubscribers (hx : x.scripts = {}) (hsound : x.store.Sound) {m : Move}
    {stages : List Stage} (hlisted : x.store.listStages m.project = .ok stages)
    (hindex : ∀ stage : Stage, stage.project = m.project →
      x.indexes.subscribers stage = subscribersOf stages stage.name) (context : Context)
    {w : World Rehearsal} (hw : w.state = x) :
    ((promoteSubscribers .index m).run (Rehearsal.indexing validates stamps sink config)
        context w).1 =
      ((promoteSubscribers .scan m).run (Rehearsal.scanning validates stamps sink config)
        context w).1 ∧
    World.Alike Eq
      ((promoteSubscribers .scan m).run (Rehearsal.scanning validates stamps sink config)
        context w).2
      ((promoteSubscribers .index m).run (Rehearsal.indexing validates stamps sink config)
        context w).2 := by
  have hresolution : (resolution .scan m).Agrees (Unchanged x)
      (Rehearsal.scanning validates stamps sink config)
      (Rehearsal.indexing validates stamps sink config) (fun _ => True) (resolution .index m) :=
    agrees_resolution_index hx hsound hlisted hindex
  obtain ⟨hvalue, -, halike⟩ := hresolution context w w ⟨w.calls, w.logs, w.state, rfl, hw, hw⟩
  rw [run_promoteSubscribers, run_promoteSubscribers]
  generalize (resolution .scan m).run.run (Rehearsal.scanning validates stamps sink config)
    context w = scanned at hvalue halike ⊢
  generalize (resolution .index m).run.run (Rehearsal.indexing validates stamps sink config)
    context w = indexed at hvalue halike ⊢
  obtain ⟨a, v⟩ := scanned
  obtain ⟨a', v'⟩ := indexed
  obtain rfl : a' = a := hvalue
  have hequal : v.Alike Eq v' := halike.imp fun y y' hy => hy.1.trans hy.2.symm
  cases a' with
  | error e => exact ⟨rfl, hequal⟩
  | ok subscribers =>
      have htwins := Rehearsal.twins validates stamps sink config
      obtain ⟨hresult, -, hafter⟩ := agrees_cascadeTo htwins rfl m subscribers context v v' hequal
      exact ⟨hresult, hafter⟩

end Cascades

namespace Session

/-- The session with another service. -/
def withService (s : Session) (service : Service Rehearsal) : Session :=
  { s with service := some service }

/-- The world in which something is begun for which a cancellation is planned. -/
def begun (s : Session) (c : Context) : Option (Duration × String) → World Rehearsal
  | some (after, reason) => s.world.cancelLater (s.world.now.afterSleep after) ⟨c.token, reason⟩
  | none => s.world

theorem state_begun (s : Session) (c : Context) (planned : Option (Duration × String)) :
    (s.begun c planned).state = s.world.state := by
  rcases planned with _ | ⟨after, reason⟩ <;> rfl

theorem promoteSubscribers_withService (s : Session) (service : Service Rehearsal) (c : Context)
    (planned : Option (Duration × String)) (m : Move) :
    ∃ t, (s.withService service).promoteSubscribers c planned m =
        some (((Delivery.promoteSubscribers service.resolver m).run service c
          (s.begun c planned)).1, t) ∧
      t.world = { ((Delivery.promoteSubscribers service.resolver m).run service c
        (s.begun c planned)).2 with agenda := {} } := by
  rcases planned with _ | ⟨after, reason⟩
  · exact ⟨_, rfl, rfl⟩
  · exact ⟨_, rfl, rfl⟩

/-- The index of a project is as good as a scan. -/
structure Current (s : Session) (project : String) : Prop where
  /-- Both find the same subscribers, -/
  found : ∀ (stage : Stage) (c : Context), stage.project = project →
    (s.query c (Resolver.index.subscribers stage)).1 =
      (s.query c (Resolver.scan.subscribers stage)).1
  /-- and with either a cascade comes to the same result, the same events and the same store. -/
  promoted : ∀ (validates : Bool) (stamps : Nat → Promotion.Stamp) (sink : Sink) (config : Config)
    (c : Context) (planned : Option (Duration × String)) (m : Move), m.project = project →
    ∃ result t t',
      (s.withService (Rehearsal.scanning validates stamps sink config)).promoteSubscribers
        c planned m = some (result, t) ∧
      (s.withService (Rehearsal.indexing validates stamps sink config)).promoteSubscribers
        c planned m = some (result, t') ∧
      t'.world.sink = t.world.sink ∧ t'.store = t.store

theorem current_of_indexed {s : Session} (hscripts : s.world.state.scripts = {})
    (hsound : s.store.Sound) {project : String} {stages : List Stage}
    (hlisted : s.store.listStages project = .ok stages)
    (hindex : s.world.state.indexes.get? project = some (.build stages)) : s.Current project := by
  have hsubscribers (stage : Stage) (hstage : stage.project = project) :
      s.world.state.indexes.subscribers stage = subscribersOf stages stage.name :=
    SubscriberIndexes.subscribers_of_get? (by rw [hstage, hindex])
  refine ⟨?_, ?_⟩
  · intro stage c hstage
    rw [query_index, query_scan hscripts, hsubscribers stage hstage, hstage, hlisted]
    rfl
  · rintro validates stamps sink config c planned m rfl
    let scanning := Rehearsal.scanning validates stamps sink config
    let indexing := Rehearsal.indexing validates stamps sink config
    let scanned := (Delivery.promoteSubscribers .scan m).run scanning c (s.begun c planned)
    let indexed := (Delivery.promoteSubscribers .index m).run indexing c (s.begun c planned)
    have hagrees : indexed.1 = scanned.1 ∧ scanned.2.Alike Eq indexed.2 :=
      agrees_promoteSubscribers hscripts hsound hlisted hsubscribers c (s.state_begun c planned)
    obtain ⟨hresult, calls, logs, state, hafter, hstate⟩ := hagrees
    obtain ⟨t, hscanned, ht⟩ := s.promoteSubscribers_withService scanning c planned m
    obtain ⟨t', hindexed, ht'⟩ := s.promoteSubscribers_withService indexing c planned m
    have ht : t.world = { scanned.2 with agenda := {} } := ht
    have ht' : t'.world = { indexed.2 with agenda := {} } := ht'
    have hsame : indexed.2.sink = scanned.2.sink ∧ indexed.2.state = scanned.2.state := by
      rw [hafter]
      exact ⟨rfl, hstate.symm⟩
    refine ⟨scanned.1, t, t', hscanned, hindexed.trans ?_, ?_, ?_⟩
    · exact congrArg (fun result => some (result, t')) hresult
    · rw [ht, ht']
      exact hsame.1
    · rw [store, store, ht, ht']
      exact congrArg Rehearsal.store hsame.2

/-- **What an index is worth.** Take a session in which nothing is scripted and no index has been
built, and change its store and rebuild indexes in any order.

* The index of a project answers what a scan answered when the index was rebuilt last, in the
  context of the rebuild, and without a rebuild nothing;
* when no stage of the project has changed since, and the store is available, it answers what a scan
  answers, and a cascade that goes by it does what a cascade that scans does;
* a rebuild that fails changes no answer, nor does a rebuild for another project. -/
structure IndexesFollow (s : Session) (h : List Upkeep) : Prop where
  remembers : ∀ (stage : Stage) (c : Context), (s.tended h).check c = .ok () →
    ((s.tended h).query c (Resolver.index.subscribers stage)).1 =
      match lastRebuilt stage.project s h with
      | none => .ok []
      | some r => (r.before.query r.context (Resolver.scan.subscribers stage)).1
  fresh : ∀ project r, lastRebuilt project s h = some r →
    (∀ c, .change c ∈ r.since → ¬ Store.Change.Touches project c) →
    (s.tended h).store.unavailable = false → (s.tended h).Current project
  unaffected : ∀ (c : Context) (project : String) (stage : Stage) (c' : Context),
    ((s.tended h).refreshIndex c project).1 ≠ .ok () ∨ stage.project ≠ project →
    (((s.tended h).refreshIndex c project).2.query c' (Resolver.index.subscribers stage)).1 =
      ((s.tended h).query c' (Resolver.index.subscribers stage)).1

theorem remembers_tended {s : Session} (hscripts : s.world.state.scripts = {})
    (hindexes : s.world.state.indexes = .empty) (h : List Upkeep) (stage : Stage) {c : Context}
    (hcheck : (s.tended h).check c = .ok ()) :
    ((s.tended h).query c (Resolver.index.subscribers stage)).1 =
      match lastRebuilt stage.project s h with
      | none => .ok []
      | some r => (r.before.query r.context (Resolver.scan.subscribers stage)).1 := by
  rw [query_index, hcheck]
  dsimp only
  cases hlast : lastRebuilt stage.project s h with
  | none =>
      have hget : (s.tended h).world.state.indexes.get? stage.project = none := by
        rw [get?_indexes_of_none hscripts hlast, hindexes]
        rfl
      rw [SubscriberIndexes.subscribers, hget]
      rfl
  | some r =>
      obtain ⟨hbefore, hlive, stages, hlisted, hget⟩ := get?_indexes_of_some hscripts hlast
      dsimp only
      rw [query_scan hbefore, hlive, hlisted, SubscriberIndexes.subscribers_of_get? hget]
      rfl

theorem current_tended {s : Session} (hscripts : s.world.state.scripts = {})
    (hstore : s.store.Reachable) {h : List Upkeep} {project : String} {r : Rebuilt}
    (hr : lastRebuilt project s h = some r)
    (huntouched : ∀ c, .change c ∈ r.since → ¬ Store.Change.Touches project c)
    (hup : (s.tended h).store.unavailable = false) : (s.tended h).Current project := by
  obtain ⟨hbefore, -, stages, hlisted, hget⟩ := get?_indexes_of_some hscripts hr
  -- The rebuild itself touches no stage, so none has changed since the session before it.
  have htended : s.tended h = r.before.tended (.refresh r.context project :: r.since) := by
    obtain ⟨pre, rfl, hpre, -⟩ := lastRebuilt_eq_some hr
    rw [tended_append, hpre]
  have huntouched' (c : Store.Change) (hc : .change c ∈ .refresh r.context project :: r.since) :
      ¬ c.Touches project := by
    rcases hc with _ | ⟨-, hc⟩
    exact huntouched c hc
  have hlistedNow : (s.tended h).store.listStages project = .ok stages := by
    refine Store.listStages_congr hlisted ?_ hup
    intro key hkey
    rw [htended]
    exact get?_stages_tended hbefore huntouched' hkey
  exact current_of_indexed (scripts_tended hscripts h) (sound_tended hscripts hstore.sound h)
    hlistedNow hget

theorem query_index_refreshIndex {s : Session} (hscripts : s.world.state.scripts = {})
    {c : Context} {project : String} {stage : Stage} (c' : Context)
    (h : (s.refreshIndex c project).1 ≠ .ok () ∨ stage.project ≠ project) :
    ((s.refreshIndex c project).2.query c' (Resolver.index.subscribers stage)).1 =
      (s.query c' (Resolver.index.subscribers stage)).1 := by
  obtain ⟨hstill, hcases⟩ := refreshIndex_cases hscripts c project
  have hcheck : (s.refreshIndex c project).2.check c' = s.check c' := by
    rw [check, check, hstill.now, hstill.tokens]
  have hget : (s.refreshIndex c project).2.world.state.indexes.get? stage.project =
      s.world.state.indexes.get? stage.project := by
    rcases hcases with ⟨e, -, hstate⟩ | ⟨stages, -, -, hok, hstate⟩
    · rw [hstate]
    · have hne : stage.project ≠ project := h.resolve_left fun hfailed => hfailed hok
      rw [hstate]
      exact (SubscriberIndexes.get?_replace ..).trans (if_neg hne)
  rw [query_index, query_index, hcheck, SubscriberIndexes.subscribers,
    SubscriberIndexes.subscribers, hget]

theorem indexes_follow {s : Session} (hscripts : s.world.state.scripts = {})
    (hindexes : s.world.state.indexes = .empty) (hstore : s.store.Reachable) (h : List Upkeep) :
    s.IndexesFollow h where
  remembers stage _ hcheck := remembers_tended hscripts hindexes h stage hcheck
  fresh _ _ hr huntouched hup := current_tended hscripts hstore hr huntouched hup
  unaffected _ _ _ c' hother := query_index_refreshIndex (scripts_tended hscripts h) c' hother

/-- After a rebuild another project changes, and the next rebuild fails. -/
def outage : List Upkeep :=
  [.change (.putStage (.named "proj" "dev")),
   .change (.putStage ((Stage.named "proj" "qa").withSource "dev")),
   .refresh ⟨0, none⟩ "proj",
   .change (.putStage ((Stage.named "other" "qa").withSource "dev")),
   .change (.setUnavailable true),
   .refresh ⟨0, none⟩ "proj",
   .change (.setUnavailable false)]

/-- The index of the one project is as good as a scan, that of the other was never built. -/
theorem indexes_follow_outage :
    (((start none {}).tended outage).query ⟨0, none⟩
        (Resolver.index.subscribers (.named "proj" "dev"))).1 =
      .ok [(Stage.named "proj" "qa").withSource "dev"] ∧
    (((start none {}).tended outage).query ⟨0, none⟩
        (Resolver.index.subscribers (.named "other" "dev"))).1 = .ok [] ∧
    ((start none {}).tended outage).Current "proj" := by
  have hfollow := indexes_follow (s := start none {}) rfl rfl Store.Reachable.empty outage
  refine ⟨(hfollow.remembers _ _ rfl).trans rfl, (hfollow.remembers _ _ rfl).trans rfl,
    hfollow.fresh "proj" _ rfl ?_ rfl⟩
  simp [Store.Change.Touches, Stage.project, Stage.withSource, Stage.named, Stage.subscribing]

end Session

end Delivery
