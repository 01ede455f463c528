import Delivery.Proofs.FailureIsolation
import Delivery.Proofs.LiveReports

/-!
# The limit of the window is not to be seen

How many writes may be under way at once makes no difference to a service whose collaborators answer
at once: every plan comes to the same value and leaves the same world (`Service.Prompt.run_limit`),
even when the promotions of one cascade have one name. On a store the first of them that is not
refused for another reason is created, and the later ones exist already (`Store.InTurn`).
-/

namespace Delivery

/-! ## Services with another limit -/

section Limit

variable {σ α : Type} {s : Service σ}

/-- The service with another limit on its writes. -/
def Service.withLimit (s : Service σ) (n : Nat) : Service σ :=
  { s with config := s.config.withMaxConcurrentWrites n }

theorem Service.Prompt.withLimit (hprompt : s.Prompt) (n : Nat) : (s.withLimit n).Prompt := by
  intro r state
  obtain ⟨reply, hserve⟩ := hprompt r state
  exact ⟨reply, by cases r <;> exact hserve⟩

/-- Whatever the limit is, promotions are written one after another. -/
theorem Service.Prompt.write_withLimit (hprompt : s.Prompt) (n : Nat) (context : Context)
    (promotions : List Promotion) (w : World σ) :
    (s.withLimit n).write context promotions w = s.write context promotions w := by
  rw [hprompt.write_eq, (hprompt.withLimit n).write_eq]
  rfl

/-- **Nothing that a service does shows the limit.** -/
theorem Service.Prompt.run_limit (hprompt : s.Prompt) (n : Nat) (context : Context) (p : Plan α)
    (w : World σ) : p.run (s.withLimit n) context w = p.run s context w := by
  induction p generalizing w with
  | done a => rfl
  | note n next ih => exact ih _
  | call r next ih => exact ih _ _
  | build stage freight next ih => exact ih _ _
  | writes promotions next ih =>
      simp only [Plan.run, hprompt.write_withLimit, ih]

end Limit

/-! ## Writes in turn -/

namespace Store

/-- What writes do to a store, one after another: each is decided by the store as it was and by the
writes before it. -/
structure InTurn (s s' : Store) (outcomes : List (Promotion × WriteOutcome)) : Prop where
  /-- What was to be refused in the beginning is refused in its turn. -/
  refused : ∀ {i : Nat} {p : Promotion} {o : WriteOutcome} {e : StoreError},
    outcomes[i]? = some (p, o) → s.refusal? (.promotion p) = some e → o = .error e
  /-- Of the others with one identity the first is created. -/
  first : ∀ {i : Nat} {p : Promotion} {o : WriteOutcome},
    outcomes[i]? = some (p, o) → s.refusal? (.promotion p) = none →
    (∀ j q, j < i → outcomes[j]? = some (q, .ok ()) → q.identity ≠ p.identity) → o = .ok ()
  /-- The later ones exist already. -/
  later : ∀ {i j : Nat} {p q : Promotion} {o : WriteOutcome},
    outcomes[i]? = some (p, o) → s.refusal? (.promotion p) = none →
    j < i → outcomes[j]? = some (q, .ok ()) → q.identity = p.identity →
    o = .error (.alreadyExists "Promotion" p.project p.name)
  created : ∀ id v, s'.created.get? id = some v ↔
    s.created.get? id = some v ∨ ∃ p, (p, .ok ()) ∈ outcomes ∧ id = p.identity ∧ v = p.toJson
  attempts : s'.attempts = s.attempts + outcomes.length

variable {s s' : Store} {p q : Promotion}

/-- A creation does not stand against one under another identity. -/
theorem refusal?_create_of_ne
    (h : (s.create (.promotion p)).1 = .ok () → p.identity ≠ q.identity) :
    (s.create (.promotion p)).2.refusal? (.promotion q) = s.refusal? (.promotion q) := by
  rcases s.create_cases (.promotion p) with ⟨e, -, hcreate⟩ | ⟨-, -, hcreate⟩
  · rw [hcreate, refusal?_creating rfl]
  · rw [hcreate] at h ⊢
    rw [refusal?_creating]
    show (s.created.insert p.identity p.toJson).get? q.identity = _
    rw [Table.get?_insert, if_neg (Ne.symm (h rfl))]
    rfl

/-- After a creation its identity is taken, if nothing else stands against another promotion. -/
theorem refusal?_create_of_eq (hok : (s.create (.promotion p)).1 = .ok ())
    (hid : p.identity = q.identity) :
    (s.create (.promotion p)).2.refusal? (.promotion q) =
      some ((s.refusal? (.promotion q)).getD (.alreadyExists "Promotion" q.project q.name)) := by
  rcases s.create_cases (.promotion p) with ⟨e, -, hcreate⟩ | ⟨hnone, hfree, hcreate⟩
  · rw [hcreate] at hok
    cases hok
  · have hfree : s.created.contains q.identity = false := by
      have hfree : s.created.get? p.identity = none := hfree
      rw [Table.contains, ← hid, hfree]
      rfl
    have htaken : (s.created.insert p.identity p.toJson).contains q.identity = true := by
      rw [Table.contains, Table.get?_insert, if_pos hid.symm]
      rfl
    obtain ⟨hup, -⟩ := refusal?_eq_none.1 hnone
    have hup' : (s.creating (s.created.insert p.identity p.toJson)
        (s.attempts + 1)).unavailable = false := hup
    have hinjected : (s.creating (s.created.insert p.identity p.toJson)
        (s.attempts + 1)).injected? (.promotion q) = s.injected? (.promotion q) := rfl
    rw [hcreate]
    show (s.creating (s.created.insert p.identity p.toJson) (s.attempts + 1)).refusal? _ = _
    unfold refusal?
    rw [ensureAvailable_of_up hup, ensureAvailable_of_up hup', hinjected]
    dsimp only
    -- Whatever else stands against it is found before its identity is looked up.
    by_cases hname : (!Subdomain.isSubdomain (Resource.promotion q).metadata.name) = true
    · rw [if_pos hname, if_pos hname]
      rfl
    · rw [if_neg hname, if_neg hname]
      cases s.injected? (.promotion q) with
      | some e => rfl
      | none =>
          show (if (s.created.insert p.identity p.toJson).contains q.identity then _ else _) =
            some ((if s.created.contains q.identity then _ else _ : Option StoreError).getD _)
          rw [htaken, hfree]
          rfl

theorem refusal?_create_of_some {e : StoreError} (p : Promotion)
    (h : s.refusal? (.promotion q) = some e) :
    (s.create (.promotion p)).2.refusal? (.promotion q) = some e := by
  by_cases hmeet : (s.create (.promotion p)).1 = .ok () ∧ p.identity = q.identity
  · rw [refusal?_create_of_eq hmeet.1 hmeet.2, h]
    rfl
  · rw [refusal?_create_of_ne fun hok hid => hmeet ⟨hok, hid⟩, h]

theorem InTurn.nil (s : Store) : s.InTurn s [] where
  refused h _ := by cases h
  first h _ _ := by cases h
  later h _ _ _ _ := by cases h
  created id v := by simp
  attempts := rfl

theorem InTurn.cons {p : Promotion} {outcomes : List (Promotion × WriteOutcome)}
    (h : (s.create (.promotion p)).2.InTurn s' outcomes) :
    s.InTurn s' ((p, (s.create (.promotion p)).1) :: outcomes) where
  refused {i q o e} hi hrefused := by
    cases i with
    | zero =>
        obtain ⟨rfl, rfl⟩ := Prod.mk.inj (Option.some.inj hi)
        rw [create_fst, hrefused]
    | succ i => exact h.refused hi (refusal?_create_of_some p hrefused)
  first {i q o} hi hnone hearlier := by
    cases i with
    | zero =>
        obtain ⟨rfl, rfl⟩ := Prod.mk.inj (Option.some.inj hi)
        rw [create_fst, hnone]
    | succ i =>
        refine h.first hi ?_ fun j r hj hr => hearlier (j + 1) r (Nat.succ_lt_succ hj) hr
        rw [refusal?_create_of_ne, hnone]
        intro hok
        refine hearlier 0 p (Nat.succ_pos i) ?_
        rw [← hok]
        rfl
  later {i j q r o} hi hnone hj hr hid := by
    cases i with
    | zero => exact absurd hj (Nat.not_lt_zero j)
    | succ i =>
        by_cases hmeet : (s.create (.promotion p)).1 = .ok () ∧ p.identity = q.identity
        · refine h.refused hi ?_
          rw [refusal?_create_of_eq hmeet.1 hmeet.2, hnone]
          rfl
        · cases j with
          | zero =>
              obtain ⟨rfl, hok⟩ := Prod.mk.inj (Option.some.inj hr)
              exact absurd ⟨hok, hid⟩ hmeet
          | succ j =>
              refine h.later hi ?_ (Nat.lt_of_succ_lt_succ hj) hr hid
              rw [refusal?_create_of_ne fun hok hid => hmeet ⟨hok, hid⟩, hnone]
  created id v := by
    rw [h.created, get?_created_create]
    constructor
    · rintro ((hold | ⟨hok, he⟩) | ⟨q, hq, he⟩)
      · exact .inl hold
      · refine .inr ⟨p, ?_, he⟩
        rw [hok]
        exact List.mem_cons_self
      · exact .inr ⟨q, List.mem_cons_of_mem _ hq, he⟩
    · rintro (hold | ⟨q, hq, he⟩)
      · exact .inl (.inl hold)
      · rcases List.mem_cons.1 hq with hq | hq
        · obtain ⟨rfl, hok⟩ := Prod.mk.inj hq
          exact .inl (.inr ⟨hok.symm, he⟩)
        · exact .inr ⟨q, hq, he⟩
  attempts := by
    rw [h.attempts, attempts_create, List.length_cons, Nat.add_assoc, Nat.add_comm 1]

/-- Creations one after another are writes in turn. -/
theorem inTurn_createAll (ps : List Promotion) (s : Store) :
    s.InTurn (createAll ps s).2 (createAll ps s).1 := by
  induction ps generalizing s with
  | nil => exact .nil s
  | cons p rest ih => exact (ih (s.create (.promotion p)).2).cons

/-- Two stages whose names differ only in capitals, and one identifier: the names are the same. -/
example : (createAll [.build (.named "proj" "QA") "f1" ⟨.nil, default⟩,
      .build (.named "proj" "qa") "f1" ⟨.nil, default⟩] .empty).1.map Prod.snd =
    [.ok (), .error (.alreadyExists "Promotion" "proj"
      "qa.00000000000000000000000000000000.f1")] := by
  decide +kernel

/-! ## Cascades -/

section Cascades

variable {validates : Bool} {index : Option (Store → Stage → List Stage)}
  {stamps : Nat → Promotion.Stamp} {sink : Sink} {config : Config} {context : Context} {m : Move}
  {w w' : World Store}

/-- A question is answered at once, and leaves the store as it is. -/
theorem serve_question {r : Request} (hr : ∀ p, r ≠ .create p) (s : Store) :
    ∃ reply, (backend.service validates index stamps sink config).serve r s = (.answer reply, s) ∧
      (reply s).2 = s := by
  cases r with
  | create p => exact absurd rfl (hr p)
  | validate project => cases validates <;> exact ⟨_, rfl, rfl⟩
  | _ => exact ⟨_, rfl, rfl⟩

/-- Only creations change the store. -/
theorem state_of_asked {r : Request} {a : Except StoreError r.Answer} (hr : ∀ p, r ≠ .create p)
    (h : (backend.service validates index stamps sink config).Asked context r a w w') :
    w'.state = w.state := by
  obtain ⟨v, v', hv, hcall, hv'⟩ := h
  rw [hv'.state_eq, ← hv.state_eq]
  cases hcheck : ((backend.service validates index stamps sink config).callContext context
      v.now).check v.tokens v.now with
  | error e =>
      rw [Service.call_of_ended hcheck] at hcall
      cases hcall
      rfl
  | ok u =>
      obtain ⟨reply, hserve, hsame⟩ := serve_question hr v.state
      rw [Service.call_eq_of_prompt hserve hcheck] at hcall
      cases hcall
      exact hsame

/-- What a cascade comes to: it is rejected, or the promotions of the subscribers are written in
turn, and the result has their outcomes. -/
def CascadesInTurn (s s' : Store) (promotions : Except PromotionError (List Promotion))
    (result : CascadeResult) : Prop :=
  match promotions with
  | .error e => result = .rejected e ∧ s' = s
  | .ok promotions => ∃ outcomes : List (Promotion × WriteOutcome),
      outcomes.map Prod.fst = promotions ∧ s.InTurn s' outcomes ∧
        result = (Collector.ofOutcomes outcomes).finish

theorem cascadesInTurn_run (validates : Bool) (index : Option (Store → Stage → List Stage))
    (stamps : Nat → Promotion.Stamp) (sink : Sink) (config : Config) (context : Context)
    (resolver : Resolver) (m : Move) (w : World Store) :
    let s := backend.service validates index stamps sink config
    let subscribers := ((resolution resolver m).run.run s context w).1
    CascadesInTurn w.state ((promoteSubscribers resolver m).run s context w).2.state
      (subscribers.map fun stages => s.promotionsOf stages m.freight w.built)
      ((promoteSubscribers resolver m).run s context w).1 := by
  intro s subscribers
  have hprompt : s.Prompt := service_prompt validates index stamps sink config
  obtain ⟨a, v, hrun, hresolves⟩ := s.resolution_cases context resolver m w
  have hstate : v.state = w.state :=
    hresolves.keeps (R := fun u v => v.state = u.state) (fun h => h.state_eq)
      (fun h₁ h₂ => h₂.trans h₁) fun hr h => state_of_asked hr h
  have hsubscribers : subscribers = a := congrArg Prod.fst hrun
  rw [hsubscribers]
  cases a with
  | error e =>
      rw [run_promoteSubscribers, hrun]
      exact ⟨rfl, hstate⟩
  | ok stages =>
      obtain ⟨hstarts, hstill⟩ := hresolves.starts hprompt
      obtain ⟨w', hcascade, hw'⟩ := run_cascade_prompt hrun (hstill.starts hstarts)
      have hbuilt : v.built = w.built := hresolves.built
      rw [hcascade, hw', hstate, hbuilt]
      refine ⟨_, ?_, inTurn_createAll _ w.state, rfl⟩
      exact map_fst_createAll _ w.state

end Cascades

/-- **The limit on the writes under way is not to be seen on a store.** Whatever the store holds,
whatever stamps are handed out, the same identifier twice among them, and whether outcomes are
reported as they come or in the end: with any two limits a cascade has the same result and leaves
the same world, with the same events in its sink and the same resources and attempts in the store.
Promotions of one name are decided in the order of the subscribers: the first is created, if nothing
else stands against it, and those after it exist already. -/
theorem limit_unobservable (validates : Bool) (index : Option (Store → Stage → List Stage))
    (stamps : Nat → Promotion.Stamp) (sink : Sink) (config : Config) (context : Context)
    (m : Move) (w : World Store) (n k : Nat) :
    let s := backend.service validates index stamps sink config
    let run (limit : Nat) := (promoteSubscribers s.resolver m).run (s.withLimit limit) context w
    let subscribers := ((resolution s.resolver m).run.run s context w).1
    run n = run k ∧
      (s.withLimit n).promoteReporting context m s.resolver w = run n ∧
      CascadesInTurn w.state (run n).2.state
        (subscribers.map fun stages => s.promotionsOf stages m.freight w.built) (run n).1 := by
  intro s run subscribers
  have hprompt : s.Prompt := service_prompt validates index stamps sink config
  have hrun (limit : Nat) : run limit = (promoteSubscribers s.resolver m).run s context w :=
    hprompt.run_limit limit context _ w
  refine ⟨by rw [hrun n, hrun k], Service.promoteReporting_eq _ context m s.resolver w, ?_⟩
  rw [hrun n]
  exact cascadesInTurn_run validates index stamps sink config context s.resolver m w

end Store

end Delivery
