import Delivery.Proofs.Operations
import Delivery.Proofs.StoreStates
import Delivery.Service.Wiring

/-!
# A store that others use

A service rarely has a store to itself. In `Shared` every call to the store takes its turn: it may
wait and cancel first, and by the time it is answered others may have changed the store. The turns
are part of the state, so that what holds for all states holds for everything that others can do,
and the questions that the store has answered are kept beside it, each with the store that answered.

* `Shared.Written` — what a service leaves behind at the store, with the outcomes of its writes;
* `Shared.Exchange.written`, `Shared.Exchange.written_create`, `Shared.written_of_write` — every way
  of calling the store is of that form.
-/

namespace Delivery

/-- A service all of whose collaborators one backend plays, with or without the validation of
projects, and with any way of finding subscribers. -/
def Backend.service {σ : Type} (b : Backend σ) (validates : Bool)
    (index : Option (σ → Stage → List Stage)) (stamps : Nat → Promotion.Stamp) (sink : Sink)
    (config : Config) : Service σ where
  validator := if validates then some b.validator else none
  reader := b.reader
  lister := b.lister
  freight := b.freight
  creator := b.creator
  index
  stamps
  sink
  config

/-- Wiring a backend gives such a service. -/
theorem Wiring.build_backend {σ : Type} (b : Backend σ) (stamps fresh : Nat → Promotion.Stamp)
    (sink : Sink) {config : Config} (h : config.validate = .ok ()) :
    (Wiring.ofSettings [.backend b, .stamps stamps, .sink sink, .config config]).build fresh =
      .ok (b.service true none stamps sink config) := by
  show (config.validate >>= fun _ => _) = _
  rw [h]
  rfl

/-- Something that a call does before it is answered. -/
inductive Pause where
  | cancel (reason : String)
  | sleep (d : Duration)

/-- The call that does something first. -/
def Pause.before {σ α : Type} : Pause → Call σ α → Call σ α
  | cancel reason, rest => .cancel reason rest
  | sleep d, rest => .sleep d rest

/-- How one call to a shared store goes: what it does first, and what others change by the time it
is answered. -/
structure Turn where
  pauses : List Pause := []
  changes : List Store.Change := []

/-- A request that a store has answered. -/
structure Inquiry where
  request : Request
  store : Store

/-- A store that others use. -/
structure Shared where
  store : Store
  /-- How the next calls go; those after them are answered at once. -/
  turns : List Turn := []
  /-- What was answered so far, oldest first. -/
  inquiries : List Inquiry := []

/-- The identity under which a promotion is created. -/
def Promotion.identity (p : Promotion) : Identity := (Resource.promotion p).identity

namespace Shared

/-- The turn of the next call. -/
def next (s : Shared) : Turn := s.turns.headD {}

/-- The state once the next call has its turn. -/
def taken (s : Shared) : Shared := { s with turns := s.turns.tail }

/-- What the store itself answers, once others have changed it. -/
def answer {ρ α : Type} (request : ρ → Request) (responder : Responder Store ρ α) (q : ρ)
    (changes : List Store.Change) (s : Shared) : Except StoreError α × Shared :=
  let store := s.store.changed changes
  let (call, asked) := responder q store
  let (a, store') := call.reply asked
  (a, { s with store := store', inquiries := s.inquiries ++ [⟨request q, store⟩] })

/-- The collaborator that shares a store's. -/
def share {ρ α : Type} (request : ρ → Request) (responder : Responder Store ρ α) :
    Responder Shared ρ α := fun q s =>
  (s.next.pauses.foldr Pause.before (.answer (answer request responder q s.next.changes)), s.taken)

/-- The collaborators of a shared store. -/
def backend : Backend Shared where
  validator := share .validate Store.backend.validator
  reader := share .stage Store.backend.reader
  lister := share .stages Store.backend.lister
  freight := share (fun q => .freight q.1 q.2) Store.backend.freight
  creator := share .create Store.backend.creator

/-- A service built on a shared store. -/
def service (validates : Bool) (index : Option (Shared → Stage → List Stage))
    (stamps : Nat → Promotion.Stamp) (sink : Sink) (config : Config) : Service Shared :=
  backend.service validates index stamps sink config

end Shared

/-! ## What the store answers -/

/-- The answer of a store to a request, and the store after it. Subscribers are not asked of it. -/
def Store.reply (s : Store) : (r : Request) → Except StoreError r.Answer × Store
  | .validate project => (.ok (s.validateProject project), s)
  | .stage key => (s.getStage key, s)
  | .stages project => (s.listStages project, s)
  | .freight key candidates => (s.getQualifiedFreight key candidates, s)
  | .create p => s.create (.promotion p)
  | .subscribers _ => (.ok [], s)

/-- Only creations change a store. -/
theorem Store.reply_of_not_create {s : Store} {r : Request} (hr : ∀ p, r ≠ .create p) :
    (s.reply r).2 = s := by
  cases r with
  | create p => exact absurd rfl (hr p)
  | _ => rfl

theorem Call.reply_foldr_before {σ α : Type} (pauses : List Pause) (c : Call σ α) :
    (pauses.foldr Pause.before c).reply = c.reply := by
  induction pauses with
  | nil => rfl
  | cons p rest ih => cases p <;> exact ih

namespace Shared

variable (validates : Bool) (index : Option (Shared → Stage → List Stage))
  (stamps : Nat → Promotion.Stamp) (sink : Sink) (config : Config)

/-- The state after a request was answered. -/
def answered (s : Shared) (r : Request) (changes : List Store.Change) : Shared :=
  { s with
    store := ((s.store.changed changes).reply r).2
    inquiries := s.inquiries ++ [⟨r, s.store.changed changes⟩] }

/-- A request takes its turn, and is answered by the store as it is then; or the service answers it
itself, and no turn is taken. -/
theorem serve_cases (r : Request) (before s : Shared) :
    let service := service validates index stamps sink config
    (service.serve r before).2 = before.taken ∧
        (service.serve r before).1.reply s =
          (((s.store.changed before.next.changes).reply r).1, s.answered r before.next.changes) ∨
      service.delegates r = false ∧ (service.serve r before).2 = before ∧
        ((service.serve r before).1.reply s).2 = s := by
  intro service
  cases r with
  | validate project =>
      cases validates with
      | true =>
          refine .inl ⟨rfl, ?_⟩
          rw [Service.serve]
          exact congrFun (Call.reply_foldr_before _ _) s
      | false => exact .inr ⟨rfl, rfl, rfl⟩
  | subscribers stage => exact .inr ⟨rfl, rfl, rfl⟩
  | stage | stages | freight | create =>
      exact .inl ⟨rfl, congrFun (Call.reply_foldr_before _ _) s⟩

/-! ## Exchanges -/

/-- What can come of one request to a shared store: its context ends it, before it has its turn or
after; or it is answered in its turn. A request that is not for the store leaves it alone. -/
inductive Exchange (delegated : Bool) (r : Request) :
    Except StoreError r.Answer → Shared → Shared → Prop
  | refused {e s} : e.EndsRequest → Exchange delegated r (.error e) s s
  | ended {e s} : e.EndsRequest → Exchange delegated r (.error e) s s.taken
  | answered (s) : Exchange delegated r ((s.store.changed s.next.changes).reply r).1 s
      (s.taken.answered r s.next.changes)
  | own {a s} : delegated = false → Exchange delegated r a s s

variable {validates index stamps sink config}

theorem exchange_of_asked {context : Context} {r : Request} {a : Except StoreError r.Answer}
    {w w' : World Shared}
    (h : (service validates index stamps sink config).Asked context r a w w') :
    Exchange ((service validates index stamps sink config).delegates r) r a w.state w'.state := by
  obtain ⟨v, v', hv, hcall, hv'⟩ := h
  rw [hv'.state_eq, ← hv.state_eq]
  rcases Service.call_cases (service validates index stamps sink config) context r v with
    ⟨e, he, h⟩ | ⟨w₁, -, ⟨e, he, h, hstate⟩ | ⟨h, hstate⟩⟩
  · rw [hcall] at h
    cases h
    exact .refused he.endsRequest
  · rw [hcall] at h
    cases h
    rcases serve_cases validates index stamps sink config r v.state v.state with
      ⟨hserve, -⟩ | ⟨-, hserve, -⟩
    · rw [hstate, hserve]
      exact .ended he.endsRequest
    · rw [hstate, hserve]
      exact .refused he.endsRequest
  · rw [hcall] at h
    cases h
    rw [hstate]
    rcases serve_cases validates index stamps sink config r v.state
      ((service validates index stamps sink config).serve r v.state).2 with
      ⟨hserve, hreply⟩ | ⟨hown, hserve, hreply⟩
    · rw [hreply, hserve]
      exact .answered v.state
    · rw [hreply, hserve]
      exact .own hown

/-! ## What is left behind -/

/-- From one state to another a service has written promotions with some outcomes, and others have
made changes of a kind: the creations are those of the successful writes, each under an identity of
its own that was free before, and everything else at the store is the others' doing. -/
structure Written (P : Store.Change → Prop) (s₀ : Shared) (L : List (Promotion × WriteOutcome))
    (s : Shared) : Prop where
  drift : ∃ cs, (∀ c ∈ cs, P c) ∧
    s.store = (s₀.store.changed cs).creating s.store.created s.store.attempts
  turns : s.turns <:+ s₀.turns
  inquiries : ∃ new, s.inquiries = s₀.inquiries ++ new ∧
    ∀ p, (p, .ok ()) ∈ L → ∃ store, ⟨.create p, store⟩ ∈ new
  created : ∀ id v, s.store.created.get? id = some v ↔
    s₀.store.created.get? id = some v ∨ ∃ p, (p, .ok ()) ∈ L ∧ id = p.identity ∧ v = p.toJson
  fresh : ∀ p, (p, .ok ()) ∈ L → s₀.store.created.get? p.identity = none
  distinct : L.Pairwise fun a b => a.2 = .ok () → b.2 = .ok () → a.1.identity ≠ b.1.identity

/-- All changes that others are still to make are of a kind. -/
def Allows (P : Store.Change → Prop) (s : Shared) : Prop := ∀ t ∈ s.turns, ∀ c ∈ t.changes, P c

theorem allows_any (s : Shared) : s.Allows fun _ => True := fun _ _ _ _ => trivial

variable {P : Store.Change → Prop} {s₀ s s' : Shared} {L L' : List (Promotion × WriteOutcome)}

theorem Allows.next (h : s.Allows P) : ∀ c ∈ s.next.changes, P c := by
  obtain ⟨store, turns, inquiries⟩ := s
  cases turns with
  | nil => exact fun c hc => absurd hc List.not_mem_nil
  | cons t rest => exact h t List.mem_cons_self

theorem Written.allows (h : Written P s₀ L s) (hs : s₀.Allows P) : s.Allows P :=
  fun t ht => hs t (h.turns.subset ht)

theorem Written.refl (s : Shared) : Written P s [] s where
  drift := ⟨[], by simp, rfl⟩
  turns := List.suffix_refl _
  inquiries := ⟨[], by simp, by simp⟩
  created id v := by simp
  fresh p hp := by cases hp
  distinct := .nil

theorem Written.taken (s : Shared) : Written P s [] s.taken :=
  { Written.refl s with turns := List.tail_suffix _ }

theorem Written.trans (h : Written P s₀ L s) (h' : Written P s L' s') :
    Written P s₀ (L ++ L') s' := by
  obtain ⟨cs, hcs, hstore⟩ := h.drift
  obtain ⟨ds, hds, hstore'⟩ := h'.drift
  obtain ⟨new, hnew, hcreates⟩ := h.inquiries
  obtain ⟨new', hnew', hcreates'⟩ := h'.inquiries
  refine ⟨⟨cs ++ ds, ?_, ?_⟩, h'.turns.trans h.turns, ⟨new ++ new', ?_, ?_⟩, ?_, ?_, ?_⟩
  · intro c hc
    rcases List.mem_append.1 hc with hc | hc
    · exact hcs c hc
    · exact hds c hc
  · rw [hstore, Store.changed_creating] at hstore'
    rw [Store.changed_append]
    exact hstore'
  · rw [hnew', hnew, List.append_assoc]
  · intro p hp
    rcases List.mem_append.1 hp with hp | hp
    · obtain ⟨store, hmem⟩ := hcreates p hp
      exact ⟨store, List.mem_append_left _ hmem⟩
    · obtain ⟨store, hmem⟩ := hcreates' p hp
      exact ⟨store, List.mem_append_right _ hmem⟩
  · intro id v
    rw [h'.created, h.created]
    constructor
    · rintro ((hold | ⟨p, hp, he⟩) | ⟨p, hp, he⟩)
      · exact .inl hold
      · exact .inr ⟨p, List.mem_append_left _ hp, he⟩
      · exact .inr ⟨p, List.mem_append_right _ hp, he⟩
    · rintro (hold | ⟨p, hp, he⟩)
      · exact .inl (.inl hold)
      · rcases List.mem_append.1 hp with hp | hp
        · exact .inl (.inr ⟨p, hp, he⟩)
        · exact .inr ⟨p, hp, he⟩
  · intro p hp
    rcases List.mem_append.1 hp with hp | hp
    · exact h.fresh p hp
    · cases hold : s₀.store.created.get? p.identity with
      | none => rfl
      | some v =>
          have hstill := (h.created _ v).2 (.inl hold)
          rw [h'.fresh p hp] at hstill
          cases hstill
  · refine List.pairwise_append.2 ⟨h.distinct, h'.distinct, ?_⟩
    rintro ⟨p, o⟩ hp ⟨q, o'⟩ hq rfl rfl heq
    -- The first is stored by the time the second finds its identity free.
    have hstored := (h.created p.identity p.toJson).2 (.inr ⟨p, hp, rfl, rfl⟩)
    have heq : p.identity = q.identity := heq
    rw [heq, h'.fresh q hq] at hstored
    cases hstored

theorem Written.perm (h : Written P s₀ L s) (hperm : L.Perm L') : Written P s₀ L' s where
  drift := h.drift
  turns := h.turns
  inquiries := by
    obtain ⟨new, hnew, hcreates⟩ := h.inquiries
    exact ⟨new, hnew, fun p hp => hcreates p (hperm.mem_iff.2 hp)⟩
  created id v := by
    rw [h.created]
    simp only [hperm.mem_iff]
  fresh p hp := h.fresh p (hperm.mem_iff.2 hp)
  distinct := (hperm.pairwise_iff fun hab hb ha heq => hab ha hb heq.symm).1 h.distinct

/-- A write that fails leaves nothing. -/
theorem Written.failed (s : Shared) (p : Promotion) (e : StoreError) :
    Written P s [(p, .error e)] s where
  drift := ⟨[], by simp, rfl⟩
  turns := List.suffix_refl _
  inquiries := ⟨[], by simp, by simp⟩
  created id v := by simp
  fresh q hq := by simp at hq
  distinct := List.pairwise_singleton _ _

/-- An answer to any other request than a creation leaves nothing either. -/
theorem Written.answered (s : Shared) {r : Request} (hr : ∀ p, r ≠ .create p)
    {cs : List Store.Change} (hcs : ∀ c ∈ cs, P c) : Written P s [] (s.answered r cs) where
  drift := by
    have hstore : (s.answered r cs).store = s.store.changed cs := Store.reply_of_not_create hr
    refine ⟨cs, hcs, ?_⟩
    rw [hstore]
    rfl
  turns := List.suffix_refl _
  inquiries := ⟨[_], rfl, by simp⟩
  created id v := by
    show ((s.store.changed cs).reply r).2.created.get? id = some v ↔ _
    rw [Store.reply_of_not_create hr, Store.created_changed]
    simp
  fresh p hp := by cases hp
  distinct := .nil

/-- A creation that is answered leaves what it created, if it says so. -/
theorem Written.created_answered (s : Shared) (p : Promotion) {cs : List Store.Change}
    (hcs : ∀ c ∈ cs, P c) :
    Written P s [(p, ((s.store.changed cs).reply (.create p)).1)] (s.answered (.create p) cs) := by
  have hmem {q : Promotion} {o : WriteOutcome} (h : (q, .ok ()) ∈ [(p, o)]) :
      q = p ∧ o = .ok () := by
    obtain ⟨hq, ho⟩ := Prod.mk.inj (List.mem_singleton.1 h)
    exact ⟨hq, ho.symm⟩
  refine ⟨⟨cs, hcs, Store.create_eq_creating _ _⟩, List.suffix_refl _, ⟨[_], rfl, ?_⟩, ?_, ?_,
    List.pairwise_singleton _ _⟩
  · intro q hq
    obtain ⟨rfl, -⟩ := hmem hq
    exact ⟨_, List.mem_singleton_self _⟩
  · intro id v
    show ((s.store.changed cs).create (.promotion p)).2.created.get? id = some v ↔ _
    rw [Store.get?_created_create, Store.created_changed]
    constructor
    · rintro (hold | ⟨hok, hid, hv⟩)
      · exact .inl hold
      · refine .inr ⟨p, ?_, hid, hv⟩
        rw [← hok]
        exact List.mem_singleton_self _
    · rintro (hold | ⟨q, hq, hid, hv⟩)
      · exact .inl hold
      · obtain ⟨rfl, hok⟩ := hmem hq
        exact .inr ⟨hok, hid, hv⟩
  · intro q hq
    obtain ⟨rfl, hok⟩ := hmem hq
    have hfree := Store.get?_created_of_create hok
    rw [Store.created_changed] at hfree
    exact hfree

/-- Asking anything but for a creation leaves nothing. -/
theorem Exchange.written {delegated : Bool} {r : Request} {a : Except StoreError r.Answer}
    (h : Exchange delegated r a s s') (hr : ∀ p, r ≠ .create p) (hs : s.Allows P) :
    Written P s [] s' := by
  cases h with
  | refused => exact .refl s
  | ended => exact .taken s
  | answered => exact (Written.taken s).trans (.answered s.taken hr hs.next)
  | own => exact .refl s

/-- Asking for a creation leaves it, if that is the answer. -/
theorem Exchange.written_create {p : Promotion} {o : Except StoreError (Request.create p).Answer}
    (h : Exchange true (.create p) o s s') (hs : s.Allows P) : Written P s [(p, o)] s' := by
  cases h with
  | refused => exact .failed s p _
  | ended => exact (Written.taken s).trans (.failed s.taken p _)
  | answered => exact (Written.taken s).trans (.created_answered s.taken p hs.next)
  | own hown => cases hown

/-- **What a cascade's writes leave at the store.** -/
theorem written_of_write {context : Context} {promotions : List Promotion} {w w' : World Shared}
    {outcomes : List (Promotion × WriteOutcome)}
    (hwrite : (service validates index stamps sink config).write context promotions w =
      (outcomes, w')) (hw : w.state.Allows P) : Written P w.state outcomes w'.state := by
  obtain ⟨L, hperm, h⟩ : ∃ L,
      L.Perm ((service validates index stamps sink config).write context promotions w).1 ∧
      Written P w.state L
        ((service validates index stamps sink config).write context promotions w).2.state := by
    refine Service.exists_landings _ context ?_ ?_ ?_ promotions (.refl w.state)
    · intro L state p h
      have h' := h.trans (.taken state)
      rw [List.append_nil] at h'
      exact h'
    · intro L state p e _ h
      exact h.trans (.failed state p e)
    · intro L₀ L before state p hbefore h
      have hreply : ((service validates index stamps sink config).creator p before).1.reply state =
          (((state.store.changed before.next.changes).reply (.create p)).1,
            state.answered (.create p) before.next.changes) :=
        congrFun (Call.reply_foldr_before _ _) state
      rw [hreply]
      exact h.trans (.created_answered state p (hbefore.allows hw).next)
  rw [hwrite] at hperm h
  exact h.perm hperm

end Shared

end Delivery
