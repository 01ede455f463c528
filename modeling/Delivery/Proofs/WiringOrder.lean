import Delivery.Proofs.PromptStore

/-!
# What a wiring is made of

A list of settings sets the parts of a service one after another, some of them several times, and a
backend five at once. What counts in the end is, port by port, the part that was given last
(`Wiring.part_ofSettings`), so settings of different ports may come in any order
(`Wiring.ofSettings_of_rearranged`).

* `Wiring.built_from_last_settings` — when there is a service, what it is made of, and what is
  missing when there is none.
-/

namespace Delivery

/-- A place of a service that a part is set for. -/
inductive Port where
  | validator
  | reader
  | lister
  | freight
  | creator
  | index
  | stamps
  | sink
  | config
  deriving DecidableEq

/-- What is set for a port. -/
abbrev Port.Part (σ : Type) : Port → Type
  | validator => Responder σ String (Except PromotionError Unit)
  | reader => Responder σ Key (Option Stage)
  | lister => Responder σ String (List Stage)
  | freight => Responder σ (Key × List String) (Option Freight)
  | creator => Responder σ Promotion Unit
  | index => σ → Stage → List Stage
  | stamps => Nat → Promotion.Stamp
  | sink => Sink
  | config => Config

/-- What a service has at a port that nothing was given for. -/
def Port.default {σ : Type} (fresh : Nat → Promotion.Stamp) : (p : Port) → Option (p.Part σ)
  | stamps => some fresh
  | sink => some .discarding
  | config => some {}
  | _ => none

/-- The port that a request goes to. -/
def Request.port : Request → Port
  | .validate _ => .validator
  | .stage _ => .reader
  | .stages _ => .lister
  | .freight .. => .freight
  | .create _ => .creator
  | .subscribers _ => .index

/-- What the part at its port does with a request. -/
def Request.answeredBy {σ : Type} :
    (r : Request) → r.port.Part σ → σ → Call σ (Except StoreError r.Answer) × σ
  | .validate project, responder => responder project
  | .stage key, responder => responder key
  | .stages project, responder => responder project
  | .freight key candidates, responder => responder (key, candidates)
  | .create p, responder => responder p
  | .subscribers source, find =>
    fun state => (.answer fun state => (.ok (find state source), state), state)

/-- The port of a collaborator that is required. -/
def Collaborator.port : Collaborator → Port
  | stageReader => .reader
  | stageLister => .lister
  | freightReader => .freight
  | resourceCreator => .creator

/-- The collaborators that are required, in the order in which they are missed. -/
def Collaborator.required : List Collaborator :=
  [stageReader, stageLister, freightReader, resourceCreator]

namespace Service

variable {σ : Type} {service : Service σ}

/-- What a service has at a port. -/
def part (service : Service σ) : (p : Port) → Option (p.Part σ)
  | .validator => service.validator
  | .reader => some service.reader
  | .lister => some service.lister
  | .freight => some service.freight
  | .creator => some service.creator
  | .index => service.index
  | .stamps => some service.stamps
  | .sink => some service.sink
  | .config => some service.config

/-- Subscribers are found by listing, as the stages of a project are listed, and all stages are
listed through one lister. -/
structure Scans (service : Service σ) (lister : Responder σ String (List Stage)) : Prop where
  lists : ∀ project state, service.serve (.stages project) state = lister project state
  finds : ∀ (stage : Stage) (context : Context) (w : World σ),
    let listed := (listStages stage.project).run service context w
    let found := (service.resolver.subscribers stage).run service context w
    found.1 = listed.1.map (subscribersOf · stage.name) ∧ listed.2.Noted found.2

/-- Subscribers are looked up, as long as the request is not over, and nothing is listed. -/
def LooksUp (service : Service σ) (find : σ → Stage → List Stage) : Prop :=
  ∀ (stage : Stage) (context : Context) (w : World σ),
    (service.resolver.subscribers stage).run service context w =
      (((service.callContext context w.now).check w.tokens w.now).map fun _ =>
        find w.state stage, w)

/-! ## What a part is for -/

/-- A request is answered by the part at its port. -/
theorem serve_of_part {r : Request} {a : r.port.Part σ} (h : service.part r.port = some a) :
    service.serve r = r.answeredBy a := by
  cases r with
  | validate project =>
      have hvalidator : service.validator = some a := h
      funext state
      simp only [serve, hvalidator]
      rfl
  | subscribers stage =>
      have hindex : service.index = some a := h
      funext state
      simp only [serve, hindex]
      rfl
  | _ =>
      cases h
      rfl

/-- Without a validator every project is accepted, and nobody is asked. -/
theorem serve_validate_of_none (h : service.part .validator = none) (project : String) (state : σ) :
    service.serve (.validate project) state =
      (.answer fun state => (.ok (.ok ()), state), state) := by
  have hvalidator : service.validator = none := h
  simp only [serve, hvalidator]

theorem scans_of_part {lister : Responder σ String (List Stage)}
    (hindex : service.part .index = none) (hlister : service.part .lister = some lister) :
    service.Scans lister where
  lists project state := congrFun (serve_of_part (r := .stages project) hlister) state
  finds stage context w := by
    have hresolver : service.resolver = .scan := by
      have hindex : service.index = none := hindex
      rw [resolver, hindex]
      rfl
    show _ = _ ∧ World.Noted _ _
    rw [hresolver, Resolver.subscribers, scanSubscribers, Plan.bind_def, Plan.run_bind]
    rcases (listStages stage.project).run service context w with ⟨a, v⟩
    cases a with
    | error e => exact ⟨rfl, .refl v⟩
    | ok stages =>
        refine ⟨rfl, ?_⟩
        show v.Noted (service.take (.line ⟨.debug, "Resolved subscribers by namespace scan", _⟩) v)
        exact service.noted_take _ v

theorem looksUp_of_part {find : σ → Stage → List Stage} (h : service.part .index = some find) :
    service.LooksUp find := by
  intro stage context w
  have hresolver : service.resolver = .index := by
    have hindex : service.index = some find := h
    rw [resolver, hindex]
    rfl
  have hserve : service.serve (.subscribers stage) w.state = _ :=
    congrFun (serve_of_part (r := .subscribers stage) h) w.state
  rw [hresolver]
  show service.call context (.subscribers stage) w = _
  cases hcheck : (service.callContext context w.now).check w.tokens w.now with
  | error e => exact call_of_ended hcheck _
  | ok u =>
      -- Looking up asks no collaborator, so there is nothing to record.
      rw [call_eq_of_prompt hserve hcheck, recordsOf, if_neg (by simp [delegates]), List.append_nil]
      rfl

end Service

namespace Wiring

variable {σ : Type} {settings settings' : List (Setting σ)} {w w' : Wiring σ}
  {s t : Setting σ} {fresh : Nat → Promotion.Stamp} {service : Service σ}

/-- What a setting gives for a port. -/
def Setting.gives : Setting σ → (p : Port) → Option (p.Part σ)
  | .backend b, .validator => some b.validator
  | .backend b, .reader => some b.reader
  | .backend b, .lister => some b.lister
  | .backend b, .freight => some b.freight
  | .backend b, .creator => some b.creator
  | .validator responder, .validator => some responder
  | .reader responder, .reader => some responder
  | .lister responder, .lister => some responder
  | .freight responder, .freight => some responder
  | .creator responder, .creator => some responder
  | .index find, .index => some find
  | .stamps source, .stamps => some source
  | .sink s, .sink => some s
  | .config c, .config => some c
  | _, _ => none

/-- What was given last for a port. -/
def lastGiven (settings : List (Setting σ)) (p : Port) : Option (p.Part σ) :=
  (settings.filterMap (·.gives p)).getLast?

/-- The configuration that was given last, or the default. -/
def lastConfig (settings : List (Setting σ)) : Config := (lastGiven settings .config).getD {}

/-- Two settings set no port in common. -/
def Setting.Apart (s t : Setting σ) : Prop := ∀ p, s.gives p = none ∨ t.gives p = none

/-- The same settings in another order: neighbours change places while they set no port in
common. -/
inductive Rearranged : List (Setting σ) → List (Setting σ) → Prop
  | nil : Rearranged [] []
  | cons (s : Setting σ) {rest rest' : List (Setting σ)} :
      Rearranged rest rest' → Rearranged (s :: rest) (s :: rest')
  | swap {s t : Setting σ} (rest : List (Setting σ)) :
      s.Apart t → Rearranged (s :: t :: rest) (t :: s :: rest)
  | trans {u v w : List (Setting σ)} : Rearranged u v → Rearranged v w → Rearranged u w

/-- What stands at a port of a wiring. -/
def part (w : Wiring σ) : (p : Port) → Option (p.Part σ)
  | .validator => w.validator
  | .reader => w.reader
  | .lister => w.lister
  | .freight => w.freight
  | .creator => w.creator
  | .index => w.index
  | .stamps => w.stamps
  | .sink => w.sink
  | .config => some w.config

/-! ## One setting after another -/

/-- A wiring is nothing but its parts. -/
theorem ext_part (h : ∀ p, w.part p = w'.part p) : w = w' := by
  obtain ⟨validator, reader, lister, freight, creator, index, stamps, sink, config⟩ := w
  obtain rfl : validator = w'.validator := h .validator
  obtain rfl : reader = w'.reader := h .reader
  obtain rfl : lister = w'.lister := h .lister
  obtain rfl : freight = w'.freight := h .freight
  obtain rfl : creator = w'.creator := h .creator
  obtain rfl : index = w'.index := h .index
  obtain rfl : stamps = w'.stamps := h .stamps
  obtain rfl : sink = w'.sink := h .sink
  obtain rfl : config = w'.config := Option.some.inj (h .config)
  rfl

/-- A setting replaces what it gives, and leaves everything else. -/
theorem part_set (w : Wiring σ) (s : Setting σ) (p : Port) :
    (w.set s).part p = (s.gives p).or (w.part p) := by
  cases s <;> cases p <;> rfl

theorem lastGiven_cons (s : Setting σ) (settings : List (Setting σ)) (p : Port) :
    lastGiven (s :: settings) p = (lastGiven settings p).or (s.gives p) := by
  unfold lastGiven
  cases hs : s.gives p with
  | none => simp only [List.filterMap_cons, hs, Option.or_none]
  | some a =>
      simp only [List.filterMap_cons, hs, List.getLast?_cons]
      cases (settings.filterMap (·.gives p)).getLast? <;> rfl

theorem part_foldl (w : Wiring σ) (settings : List (Setting σ)) (p : Port) :
    (settings.foldl set w).part p = (lastGiven settings p).or (w.part p) := by
  induction settings generalizing w with
  | nil => rfl
  | cons s rest ih => rw [List.foldl_cons, ih, part_set, lastGiven_cons, Option.or_assoc]

/-- **The last part given for a port counts.** Without one, the port is empty, or has the default
configuration. -/
theorem part_ofSettings (settings : List (Setting σ)) (p : Port) :
    (ofSettings settings).part p = (lastGiven settings p).or (({} : Wiring σ).part p) :=
  part_foldl {} settings p

theorem config_ofSettings (settings : List (Setting σ)) :
    (ofSettings settings).config = lastConfig settings := by
  have h : some (ofSettings settings).config = (lastGiven settings .config).or (some {}) :=
    part_ofSettings settings .config
  rw [lastConfig]
  cases hlast : lastGiven settings .config with
  | none =>
      rw [hlast] at h
      exact Option.some.inj h
  | some c =>
      rw [hlast] at h
      exact Option.some.inj h

/-- A port that is required holds what was given last for it. -/
theorem part_required (settings : List (Setting σ)) (c : Collaborator) :
    (ofSettings settings).part c.port = lastGiven settings c.port := by
  rw [part_ofSettings]
  cases c <;> exact Option.or_none

theorem isSome_lastGiven {p : Port} :
    (lastGiven settings p).isSome = true ↔ ∃ s ∈ settings, (s.gives p).isSome = true := by
  induction settings with
  | nil => simp [lastGiven]
  | cons s rest ih =>
      rw [lastGiven_cons, Option.isSome_or, Bool.or_eq_true, ih, or_comm]
      simp

/-! ## The order of settings -/

/-- A wiring is determined by what was given last for each port. -/
theorem ofSettings_congr (h : ∀ p, lastGiven settings p = lastGiven settings' p) :
    ofSettings settings = ofSettings settings' := by
  refine ext_part fun p => ?_
  rw [part_ofSettings, part_ofSettings, h p]

/-- Settings without a common port may change places. -/
theorem lastGiven_of_rearranged (h : Rearranged settings settings') (p : Port) :
    lastGiven settings p = lastGiven settings' p := by
  induction h with
  | nil => rfl
  | cons s _ ih => rw [lastGiven_cons, lastGiven_cons, ih]
  | swap rest hapart =>
      simp only [lastGiven_cons]
      rcases hapart p with hs | ht
      · rw [hs, Option.or_none, Option.or_none]
      · rw [ht, Option.or_none, Option.or_none]
  | trans _ _ ih ih' => exact ih.trans ih'

/-- **Settings of different ports may come in any order.** -/
theorem ofSettings_of_rearranged (h : Rearranged settings settings') :
    ofSettings settings = ofSettings settings' :=
  ofSettings_congr (lastGiven_of_rearranged h)

/-! ## Building -/

/-- A wiring with an accepted configuration and all that is required is built into its parts. -/
theorem build_of_complete {reader : Responder σ Key (Option Stage)}
    {lister : Responder σ String (List Stage)}
    {freight : Responder σ (Key × List String) (Option Freight)}
    {creator : Responder σ Promotion Unit} (hvalid : w.config.validate = .ok ())
    (hreader : w.reader = some reader) (hlister : w.lister = some lister)
    (hfreight : w.freight = some freight) (hcreator : w.creator = some creator) :
    w.build fresh = .ok
      { validator := w.validator
        reader, lister, freight, creator
        index := w.index
        stamps := w.stamps.getD fresh
        sink := w.sink.getD .discarding
        config := w.config } := by
  unfold build
  rw [hvalid, hreader, hlister, hfreight, hcreator]
  rfl

theorem build_of_flaw {flaw : ConfigFlaw} (h : w.config.flaw? = some flaw) :
    w.build fresh = .error (.invalid flaw) := by
  have hvalidate : w.config.validate = .error (.invalid flaw) := by
    unfold Config.validate
    rw [h]
  unfold build
  rw [hvalidate]
  rfl

/-- The first collaborator that a wiring lacks. -/
def missing? (w : Wiring σ) : Option Collaborator :=
  Collaborator.required.find? fun c => (w.part c.port).isNone

theorem missing?_eq_none_iff : w.missing? = none ↔ ∀ c : Collaborator, w.part c.port ≠ none := by
  have hrequired : ∀ c : Collaborator, c ∈ Collaborator.required := by
    intro c
    cases c <;> decide
  simp [missing?, List.find?_eq_none, hrequired]

theorem build_of_missing {c : Collaborator} (hvalid : w.config.validate = .ok ())
    (h : w.missing? = some c) : w.build fresh = .error (.missing c) := by
  unfold build
  rw [hvalid]
  -- The parts are asked for in the order in which they are looked for.
  simp only [missing?, Collaborator.required, List.find?_cons, Collaborator.port, part] at h
  rcases hreader : w.reader with _ | reader <;> rw [hreader] at h
  · cases h
    rfl
  rcases hlister : w.lister with _ | lister <;> rw [hlister] at h
  · cases h
    rfl
  rcases hfreight : w.freight with _ | freight <;> rw [hfreight] at h
  · cases h
    rfl
  rcases hcreator : w.creator with _ | creator <;> rw [hcreator] at h
  · cases h
    rfl
  · cases h

theorem parts_of_complete (hvalid : w.config.validate = .ok ()) (hcomplete : w.missing? = none) :
    ∃ service, w.build fresh = .ok service ∧
      ∀ p, service.part p = (w.part p).or (p.default fresh) := by
  have hset := missing?_eq_none_iff.1 hcomplete
  obtain ⟨reader, hreader⟩ := Option.ne_none_iff_exists'.1 (hset .stageReader)
  obtain ⟨lister, hlister⟩ := Option.ne_none_iff_exists'.1 (hset .stageLister)
  obtain ⟨freight, hfreight⟩ := Option.ne_none_iff_exists'.1 (hset .freightReader)
  obtain ⟨creator, hcreator⟩ := Option.ne_none_iff_exists'.1 (hset .resourceCreator)
  refine ⟨_, build_of_complete hvalid hreader hlister hfreight hcreator, fun p => ?_⟩
  cases p with
  | validator => exact Option.or_none.symm
  | index => exact Option.or_none.symm
  | reader => exact hreader.symm.trans Option.or_none.symm
  | lister => exact hlister.symm.trans Option.or_none.symm
  | freight => exact hfreight.symm.trans Option.or_none.symm
  | creator => exact hcreator.symm.trans Option.or_none.symm
  | stamps =>
      show some (w.stamps.getD fresh) = w.stamps.or (some fresh)
      cases w.stamps <;> rfl
  | sink =>
      show some (w.sink.getD .discarding) = w.sink.or (some .discarding)
      cases w.sink <;> rfl
  | config => rfl

/-- **How a wiring is built.** The configuration is refused, or something is missing, or there is a
service made of the parts of the wiring. -/
theorem build_cases (w : Wiring σ) (fresh : Nat → Promotion.Stamp) :
    (∃ flaw, w.config.flaw? = some flaw ∧ w.build fresh = .error (.invalid flaw)) ∨
    (w.config.validate = .ok () ∧
      ((∃ c, w.missing? = some c ∧ w.build fresh = .error (.missing c)) ∨
        w.missing? = none ∧ ∃ service, w.build fresh = .ok service ∧
          ∀ p, service.part p = (w.part p).or (p.default fresh))) := by
  cases hflaw : w.config.flaw? with
  | some flaw => exact .inl ⟨flaw, rfl, build_of_flaw hflaw⟩
  | none =>
      have hvalid : w.config.validate = .ok () := by
        unfold Config.validate
        rw [hflaw]
      refine .inr ⟨hvalid, ?_⟩
      cases hmissing : w.missing? with
      | some c => exact .inl ⟨c, rfl, build_of_missing hvalid hmissing⟩
      | none => exact .inr ⟨rfl, parts_of_complete hvalid hmissing⟩

/-- A service that was built has an accepted configuration and lacks nothing. -/
theorem of_build (h : w.build fresh = .ok service) :
    w.config.validate = .ok () ∧ w.missing? = none ∧
      ∀ p, service.part p = (w.part p).or (p.default fresh) := by
  rcases w.build_cases fresh with
    ⟨flaw, -, hbuild⟩ | ⟨hvalid, ⟨c, -, hbuild⟩ | ⟨hcomplete, built, hbuild, hparts⟩⟩
  · rw [hbuild] at h
    cases h
  · rw [hbuild] at h
    cases h
  · rw [hbuild] at h
    cases h
    exact ⟨hvalid, hcomplete, hparts⟩

theorem config_of_build (h : w.build fresh = .ok service) : service.config = w.config :=
  Option.some.inj ((of_build h).2.2 .config)

/-! ## What was given last -/

/-- What a list of settings is built into. -/
structure BuiltFromLast (settings : List (Setting σ)) (fresh : Nat → Promotion.Stamp) : Prop where
  /-- There is a service when the configuration given last is accepted, and each collaborator that
  is required was set. -/
  succeeds : (∃ service, (ofSettings settings).build fresh = .ok service) ↔
    (lastConfig settings).validate = .ok () ∧
      ∀ c : Collaborator, ∃ s ∈ settings, (s.gives c.port).isSome = true
  /-- Else the configuration is told first, -/
  invalid : ∀ flaw, (lastConfig settings).flaw? = some flaw →
    (ofSettings settings).build fresh = .error (.invalid flaw)
  /-- and then the first collaborator that was not set. -/
  missing : (lastConfig settings).validate = .ok () →
    ∀ c ∈ Collaborator.required.find? fun c => (lastGiven settings c.port).isNone,
      (ofSettings settings).build fresh = .error (.missing c)
  /-- A service has at each port what was given last, or the default, -/
  parts : ∀ service, (ofSettings settings).build fresh = .ok service →
    ∀ p, service.part p = (lastGiven settings p).or (p.default fresh)
  /-- which answers all that is asked there. -/
  serves : ∀ service, (ofSettings settings).build fresh = .ok service →
    ∀ (r : Request) (a : r.port.Part σ), lastGiven settings r.port = some a →
      service.serve r = r.answeredBy a
  /-- Where no validator was set, every project is accepted. -/
  accepts : ∀ service, (ofSettings settings).build fresh = .ok service →
    lastGiven settings .validator = none → ∀ project state,
      service.serve (.validate project) state =
        (.answer fun state => (.ok (.ok ()), state), state)
  /-- Subscribers are looked up where this was set, -/
  looksUp : ∀ service, (ofSettings settings).build fresh = .ok service →
    ∀ find ∈ lastGiven settings .index, service.LooksUp find
  /-- and else found by listing, with the lister that was given last. -/
  scans : ∀ service, (ofSettings settings).build fresh = .ok service →
    lastGiven settings .index = none → ∃ lister ∈ lastGiven settings .lister, service.Scans lister
  /-- Nothing but what was given last matters, -/
  determined : ∀ settings', (∀ p, lastGiven settings p = lastGiven settings' p) →
    (ofSettings settings').build fresh = (ofSettings settings).build fresh
  /-- and so settings that set different ports may come in any order. -/
  rearranged : ∀ settings', Rearranged settings settings' →
    (ofSettings settings').build fresh = (ofSettings settings).build fresh

theorem missing?_ofSettings (settings : List (Setting σ)) :
    (ofSettings settings).missing? =
      Collaborator.required.find? fun c => (lastGiven settings c.port).isNone := by
  simp only [missing?, part_required]

theorem parts_of_build (h : (ofSettings settings).build fresh = .ok service) (p : Port) :
    service.part p = (lastGiven settings p).or (p.default fresh) := by
  rw [(of_build h).2.2 p, part_ofSettings]
  cases p <;> cases lastGiven settings _ <;> rfl

/-- A service has what was given last for a port. -/
theorem part_of_given (h : (ofSettings settings).build fresh = .ok service) {p : Port}
    {a : p.Part σ} (ha : lastGiven settings p = some a) : service.part p = some a := by
  rw [parts_of_build h, ha, Option.some_or]

/-- **A service is built from what was set last.** -/
theorem built_from_last_settings (settings : List (Setting σ)) (fresh : Nat → Promotion.Stamp) :
    BuiltFromLast settings fresh where
  succeeds := by
    have hset : (ofSettings settings).missing? = none ↔
        ∀ c : Collaborator, ∃ s ∈ settings, (s.gives c.port).isSome = true := by
      refine missing?_eq_none_iff.trans (forall_congr' fun c => ?_)
      rw [part_required, ← Option.isSome_iff_ne_none, isSome_lastGiven]
    rw [← config_ofSettings, ← hset]
    constructor
    · rintro ⟨service, h⟩
      exact ⟨(of_build h).1, (of_build h).2.1⟩
    · rintro ⟨hvalid, hcomplete⟩
      obtain ⟨service, h, -⟩ := parts_of_complete hvalid hcomplete
      exact ⟨service, h⟩
  invalid flaw h := by
    rw [← config_ofSettings] at h
    exact build_of_flaw h
  missing hvalid c hc := by
    rw [← config_ofSettings] at hvalid
    rw [← missing?_ofSettings] at hc
    exact build_of_missing hvalid hc
  parts service h := parts_of_build h
  serves service h r a ha := Service.serve_of_part (part_of_given h ha)
  accepts service h hnone := by
    refine Service.serve_validate_of_none ?_
    rw [parts_of_build h, hnone]
    rfl
  looksUp service h find hfind := Service.looksUp_of_part (part_of_given h hfind)
  scans service h hindex := by
    have hlister : (ofSettings settings).part .lister ≠ none :=
      missing?_eq_none_iff.1 (of_build h).2.1 .stageLister
    obtain ⟨lister, hlister⟩ := Option.ne_none_iff_exists'.1 hlister
    have hgiven : lastGiven settings .lister = some lister :=
      (part_required settings .stageLister).symm.trans hlister
    refine ⟨lister, hgiven, Service.scans_of_part ?_ (part_of_given h hgiven)⟩
    rw [parts_of_build h, hindex]
    rfl
  determined settings' h := by rw [ofSettings_congr h]
  rearranged settings' h := by rw [ofSettings_of_rearranged h]

/-- A backend replaces the reader before it, and is itself replaced as lister. -/
example (b : Backend σ) (reader : Responder σ Key (Option Stage))
    (lister : Responder σ String (List Stage)) :
    ((ofSettings [.reader reader, .backend b, .lister lister]).build fresh).toOption.map
      (fun service => (service.part .reader, service.part .lister)) =
        some (some b.reader, some lister) := rfl

end Wiring

end Delivery
