import Delivery.Proofs.PromptWindows
import Delivery.Proofs.SharedStore

/-!
# A store on its own

A service that has a store to itself is answered at once, so that under a context that has not ended
nothing depends on time: a request is a step of the store (`Store.asked_cases`), and the writes of a
cascade are creations one after another, whatever the size of the window (`Store.write_eq`,
`Store.run_cascade_prompt`).
-/

namespace Delivery

/-- From one world to the other neither time nor any token has moved, and nothing was built. -/
structure World.Still {σ : Type} (w w' : World σ) : Prop where
  now : w'.now = w.now
  tokens : w'.tokens = w.tokens
  built : w'.built = w.built

namespace World.Still

variable {σ : Type} {u v w : World σ}

theorem refl (w : World σ) : w.Still w := ⟨rfl, rfl, rfl⟩

theorem trans (h₁ : u.Still v) (h₂ : v.Still w) : u.Still w :=
  ⟨h₂.now.trans h₁.now, h₂.tokens.trans h₁.tokens, h₂.built.trans h₁.built⟩

end World.Still

theorem World.Noted.still {σ : Type} {w w' : World σ} (h : w.Noted w') : w.Still w' := by
  obtain ⟨_, _, rfl⟩ := h
  exact ⟨rfl, rfl, rfl⟩

/-- The calls that a service makes for a context are started: neither the context nor the timeout of
a call has ended. -/
def Service.Starts {σ : Type} (s : Service σ) (context : Context) (w : World σ) : Prop :=
  (s.callContext context w.now).check w.tokens w.now = .ok ()

theorem World.Still.starts {σ : Type} {s : Service σ} {context : Context} {w v : World σ}
    (h : w.Still v) (hstarts : s.Starts context w) : s.Starts context v := by
  unfold Service.Starts
  rw [h.now, h.tokens]
  exact hstarts

/-- A call that is answered at once, and under a good context, is recorded, and a step of the
state. -/
theorem Service.start_prompt {σ : Type} {s : Service σ} {context : Context} {r : Request}
    {w : World σ} {reply : σ → Except StoreError r.Answer × σ}
    (hserve : s.serve r w.state = (.answer reply, w.state))
    (hlive : context.check w.tokens w.now = .ok ()) :
    w.start context (s.begin context r) = (.landed (reply w.state).1,
      { w with
        calls := w.calls ++ s.recordsOf context r w
        state := (reply w.state).2 }) := by
  have hstate : (s.begun context r w).state = w.state := congrArg Prod.snd hserve
  unfold World.start
  rw [hlive]
  simp only [s.begin_eq, hserve, Call.run, Status.of, hstate]
  rfl

/-- A call whose context has ended is not made. -/
theorem Service.call_of_ended {σ : Type} {s : Service σ} {context : Context} {w : World σ}
    {e : StoreError} (hended : (s.callContext context w.now).check w.tokens w.now = .error e)
    (r : Request) : s.call context r w = (.error e, w) := by
  unfold Service.call World.call World.start
  simp only [hended]

/-- A call that is answered at once is recorded, and a step of the state. -/
theorem Service.call_eq_of_prompt {σ : Type} {s : Service σ} {context : Context} {r : Request}
    {w : World σ} {reply : σ → Except StoreError r.Answer × σ}
    (hserve : s.serve r w.state = (.answer reply, w.state)) (hstarts : s.Starts context w) :
    s.call context r w = ((reply w.state).1,
      { w with
        calls := w.calls ++ s.recordsOf (s.callContext context w.now) r w
        state := (reply w.state).2 }) := by
  unfold Service.call World.call
  simp only [Service.start_prompt hserve hstarts]

theorem Service.call_prompt {σ : Type} {s : Service σ} {context : Context} {r : Request}
    {w : World σ} {reply : σ → Except StoreError r.Answer × σ}
    (hserve : s.serve r w.state = (.answer reply, w.state)) (hstarts : s.Starts context w) :
    ∃ calls, s.call context r w =
      ((reply w.state).1, { w with calls, state := (reply w.state).2 }) :=
  ⟨_, call_eq_of_prompt hserve hstarts⟩

/-! ## Time stands still -/

namespace Service

variable {σ : Type} {s : Service σ} {context : Context} {m : Move} {w w' : World σ}

/-- All collaborators of the service answer at once. -/
def Prompt (s : Service σ) : Prop := ∀ r state, ∃ reply, s.serve r state = (.answer reply, state)

/-- The writes of such a service are over as soon as they are started. -/
theorem Prompt.immediate (hprompt : s.Prompt) (context : Context) :
    Immediate (s.startWrite context) := by
  intro p w
  show ∃ outcome w', w.start (s.callContext context w.now) (s.begin _ (.create p)) = _
  cases hcheck : (s.callContext context w.now).check w.tokens w.now with
  | error e => exact ⟨.error e, w, by rw [World.start, hcheck]⟩
  | ok u =>
      obtain ⟨reply, hserve⟩ := hprompt (.create p) w.state
      exact ⟨_, _, start_prompt hserve hcheck⟩

/-- It writes promotions one after another, and there is nothing to see of the limit. -/
theorem Prompt.write_eq (hprompt : s.Prompt) (context : Context) (promotions : List Promotion)
    (w : World σ) :
    s.write context promotions w = Window.oneByOne (s.startWrite context) promotions w :=
  Window.run_prompt (hprompt.immediate context) s.config.maxConcurrentWrites promotions w

theorem Asked.still (hprompt : s.Prompt) {r : Request} {a : Except StoreError r.Answer}
    (h : s.Asked context r a w w') : w.Still w' := by
  obtain ⟨v, v', hv, hcall, hv'⟩ := h
  refine (hv.still.trans ?_).trans hv'.still
  cases hcheck : (s.callContext context v.now).check v.tokens v.now with
  | error e =>
      rw [call_of_ended hcheck] at hcall
      cases hcall
      exact .refl v
  | ok u =>
      obtain ⟨reply, hserve⟩ := hprompt r v.state
      obtain ⟨calls, hprompt⟩ := call_prompt hserve hcheck
      rw [hprompt] at hcall
      cases hcall
      exact ⟨rfl, rfl, rfl⟩

/-- A call that was answered had been started. -/
theorem Asked.starts {r : Request} {a : r.Answer} (h : s.Asked context r (.ok a) w w') :
    s.Starts context w := by
  obtain ⟨v, v', hv, hcall, -⟩ := h
  cases hcheck : (s.callContext context v.now).check v.tokens v.now with
  | error e =>
      rw [call_of_ended hcheck] at hcall
      cases hcall
  | ok u =>
      have hstarts : s.Starts context v := hcheck
      unfold Starts at hstarts ⊢
      rw [hv.still.now, hv.still.tokens] at hstarts
      exact hstarts

/-- And what it was answered with is the reply to the state as it was. -/
theorem Asked.reply_eq {r : Request} {a : r.Answer}
    {reply : σ → Except StoreError r.Answer × σ} (h : s.Asked context r (.ok a) w w')
    (hserve : ∀ state, s.serve r state = (.answer reply, state)) : (reply w.state).1 = .ok a := by
  obtain ⟨v, v', hv, hcall, -⟩ := h
  cases hcheck : (s.callContext context v.now).check v.tokens v.now with
  | error e =>
      rw [call_of_ended hcheck] at hcall
      cases hcall
  | ok u =>
      rw [call_eq_of_prompt (hserve _) hcheck, hv.state_eq] at hcall
      exact congrArg Prod.fst hcall

theorem Eligible.still (hprompt : s.Prompt) {candidates : Stage → List String}
    {a : Except PromotionError Stage} (h : s.Eligible context m candidates a w w') :
    w.Still w' :=
  h.keeps World.Noted.still World.Still.trans fun _ h => h.still hprompt

/-- When the subscribers are found, calls are started before and after. -/
theorem Resolves.starts (hprompt : s.Prompt) {resolver : Resolver} {subscribers : List Stage}
    (h : s.Resolves context m resolver (.ok subscribers) w w') :
    s.Starts context w ∧ w.Still w' := by
  cases h with
  | resolved heligible hasked _ =>
      refine ⟨?_, (heligible.still hprompt).trans (hasked.still hprompt)⟩
      cases heligible with
      | eligible _ h₁ _ _ => exact h₁.starts

end Service

namespace Store

/-- A service that has a store to itself. -/
def service (validates : Bool) (stamps : Nat → Promotion.Stamp) (sink : Sink) (config : Config) :
    Service Store :=
  backend.service validates none stamps sink config

/-- The answer that such a service has to a request. -/
def response (validates : Bool) (r : Request) (s : Store) : Except StoreError r.Answer × Store :=
  match r with
  | .validate project => (.ok (if validates then s.validateProject project else .ok ()), s)
  | r => s.reply r

variable {validates : Bool} {stamps : Nat → Promotion.Stamp} {sink : Sink} {config : Config}
  {context : Context}

theorem serve_eq (r : Request) (s : Store) :
    (service validates stamps sink config).serve r s = (.answer (response validates r), s) := by
  cases r with
  | validate project => cases validates <;> rfl
  | _ => rfl

/-- A store answers at once, whatever finds the subscribers. -/
theorem service_prompt (validates : Bool) (index : Option (Store → Stage → List Stage))
    (stamps : Nat → Promotion.Stamp) (sink : Sink) (config : Config) :
    (backend.service validates index stamps sink config).Prompt := by
  intro r s
  cases r with
  | validate project =>
      cases validates with
      | true => exact ⟨_, rfl⟩
      | false => exact ⟨_, rfl⟩
  | _ => exact ⟨_, rfl⟩

theorem start_eq (validates : Bool) (stamps : Nat → Promotion.Stamp) (sink : Sink)
    {config : Config} (r : Request) {w : World Store}
    (hstarts : (service validates stamps sink config).Starts context w) :
    ∃ w', w.start ((service validates stamps sink config).callContext context w.now)
        ((service validates stamps sink config).begin
          ((service validates stamps sink config).callContext context w.now) r) =
        (.landed (response validates r w.state).1, w') ∧
      w'.state = (response validates r w.state).2 ∧ w.Still w' :=
  ⟨_, Service.start_prompt (serve_eq r w.state) hstarts, rfl, ⟨rfl, rfl, rfl⟩⟩

/-- **A question is answered from the store as it is.** -/
theorem asked_cases {r : Request} {a : Except StoreError r.Answer} {w w' : World Store}
    (h : (service validates stamps sink config).Asked context r a w w')
    (hstarts : (service validates stamps sink config).Starts context w) :
    a = (response validates r w.state).1 ∧ w'.state = (response validates r w.state).2 ∧
      w.Still w' := by
  obtain ⟨v, v', hv, hcall, hv'⟩ := h
  obtain ⟨u, hstart, hstate, hstill⟩ :=
    start_eq validates stamps sink r (hv.still.starts hstarts)
  rw [Service.call, World.call, hstart] at hcall
  cases hcall
  rw [hv'.state_eq, hstate, hv.state_eq]
  exact ⟨rfl, rfl, (hv.still.trans hstill).trans hv'.still⟩

/-! ## Writes -/

/-- Creates promotions one after another. -/
def createAll : List Promotion → Store → List (Promotion × WriteOutcome) × Store
  | [], s => ([], s)
  | p :: rest, s =>
    let (outcome, s) := s.create (.promotion p)
    let (outcomes, s) := createAll rest s
    ((p, outcome) :: outcomes, s)

theorem createAll_append (ps qs : List Promotion) (s : Store) :
    createAll (ps ++ qs) s =
      ((createAll ps s).1 ++ (createAll qs (createAll ps s).2).1,
        (createAll qs (createAll ps s).2).2) := by
  induction ps generalizing s with
  | nil => rfl
  | cons p rest ih => simp only [List.cons_append, createAll, ih]

theorem map_fst_createAll (ps : List Promotion) (s : Store) :
    (createAll ps s).1.map Prod.fst = ps := by
  induction ps generalizing s with
  | nil => rfl
  | cons p rest ih => exact congrArg (p :: ·) (ih _)

/-- **The writes of a cascade are creations one after another.** -/
theorem write_eq (validates : Bool) (stamps : Nat → Promotion.Stamp) (sink : Sink)
    {config : Config} (promotions : List Promotion) {w : World Store}
    (hstarts : (service validates stamps sink config).Starts context w) :
    ∃ w', (service validates stamps sink config).write context promotions w =
        ((createAll promotions w.state).1, w') ∧
      w'.state = (createAll promotions w.state).2 ∧ w.Still w' := by
  have hprompt : (service validates stamps sink config).Prompt :=
    service_prompt validates none stamps sink config
  rw [hprompt.write_eq]
  induction promotions generalizing w with
  | nil => exact ⟨w, rfl, rfl, .refl w⟩
  | cons p rest ih =>
      obtain ⟨u, hstart, hstate, hstill⟩ := start_eq validates stamps sink (.create p) hstarts
      have hlanded : (service validates stamps sink config).startWrite context p w =
          (.landed (w.state.create (.promotion p)).1, u) := hstart
      obtain ⟨w', hrest, hstate', hstill'⟩ := ih (hstill.starts hstarts)
      have hstate : u.state = (w.state.create (.promotion p)).2 := hstate
      rw [hstate] at hrest hstate'
      refine ⟨w', ?_, hstate', hstill.trans hstill'⟩
      simp only [Window.oneByOne, hlanded, Status.land, hrest]
      rfl

/-- Writing does not depend on how subscribers are found. -/
theorem write_index (validates : Bool) (index index' : Option (Store → Stage → List Stage))
    (stamps : Nat → Promotion.Stamp) (sink : Sink) (config : Config) :
    (backend.service validates index stamps sink config).write =
      (backend.service validates index' stamps sink config).write := rfl

section Cascade

variable {index : Option (Store → Stage → List Stage)} {resolver : Resolver} {m : Move}
  {subscribers : List Stage} {w v : World Store}

/-- A cascade uses up a stamp for each subscriber, and creates the promotions. -/
theorem run_cascade_built
    (hresolved : (resolution resolver m).run.run
      (backend.service validates index stamps sink config) context w = (.ok subscribers, v))
    (hstarts : (backend.service validates index stamps sink config).Starts context v) :
    ∃ w', (promoteSubscribers resolver m).run (backend.service validates index stamps sink config)
        context w = ((Collector.ofOutcomes (createAll ((backend.service validates index stamps sink
          config).promotionsOf subscribers m.freight v.built) v.state).1).finish, w') ∧
      w'.state = (createAll ((backend.service validates index stamps sink config).promotionsOf
        subscribers m.freight v.built) v.state).2 ∧
      w'.built = v.built + subscribers.length := by
  obtain ⟨u, hwrite, hstate, hstill⟩ := write_eq validates stamps sink
    ((backend.service validates index stamps sink config).promotionsOf subscribers m.freight
      v.built) (w := { v with built := v.built + subscribers.length }) hstarts
  rw [service, write_index validates none index] at hwrite
  obtain ⟨w', hnoted, hcascade⟩ := run_cascadeTo _ context m subscribers hwrite
  rw [run_promoteSubscribers, hresolved]
  exact ⟨w', hcascade, hnoted.state_eq.trans hstate, (hstill.trans hnoted.still).built⟩

/-- Once the subscribers are found, a cascade creates their promotions. -/
theorem run_cascade_prompt
    (hresolved : (resolution resolver m).run.run
      (backend.service validates index stamps sink config) context w = (.ok subscribers, v))
    (hstarts : (backend.service validates index stamps sink config).Starts context v) :
    ∃ w', (promoteSubscribers resolver m).run (backend.service validates index stamps sink config)
        context w = ((Collector.ofOutcomes (createAll ((backend.service validates index stamps sink
          config).promotionsOf subscribers m.freight v.built) v.state).1).finish, w') ∧
      w'.state = (createAll ((backend.service validates index stamps sink config).promotionsOf
        subscribers m.freight v.built) v.state).2 := by
  obtain ⟨w', hcascade, hstate, -⟩ := run_cascade_built hresolved hstarts
  exact ⟨w', hcascade, hstate⟩

end Cascade

end Store

end Delivery
