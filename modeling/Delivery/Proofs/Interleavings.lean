import Mathlib.Algebra.BigOperators.Fin
import Delivery.Proofs.PromptCourses

/-!
# Requests at the same time

Any number of requests share one store, and one after another makes a step, whoever it is
(`Crowd.Next`). What the store gets to see is an order of all promotions that are tried
(`Crowd.Ordered`): each request tries those that it tries alone, in their order, and if all
identifiers differ, each creation is decided as it would be at first. So every request comes to what
it comes to alone, and the store to what all of them leave together
(`Crowd.requests_undisturbed`).
-/

namespace Delivery

/-- A request, the service that it is made to, and the world in which it is made. The stamps are
those that this request is handed out. -/
structure Client where
  deed : Deed
  context : Context
  validates : Bool
  stamps : Nat → Promotion.Stamp
  sink : Sink
  config : Config
  world : World Store

namespace Client

variable (c : Client) (s : Store)

/-- The service, which finds subscribers by a scan. -/
def service : Service Store := Store.service c.validates c.stamps c.sink c.config

/-- The request when it is made to a store. -/
def entering : Course Store Report := .plan (c.deed.plan .scan) { c.world with state := s }

/-- What becomes of the request if nobody else does anything. -/
def alone : Report × World Store :=
  (c.deed.plan .scan).run c.service c.context { c.world with state := s }

/-- The same request with other stamps. -/
def restamped (stamps : Nat → Promotion.Stamp) : Client := { c with stamps }

/-- The stamps that the request uses up. -/
def Uses (k : Nat) : Prop := c.world.built ≤ k ∧ k < (c.alone s).2.built

/-- The context of the request has not ended, and calls do not time out at once. -/
structure Ready : Prop where
  live : c.context.Live c.world
  patient : c.config.callTimeout ≠ some 0

/-- What the answers of the store settle for the request. -/
def settled : Settlement Report :=
  (c.deed.plan .scan).settle (s.answers c.validates) c.stamps c.world.built

theorem minted_settled : Minted c.stamps c.world.built (c.settled s).tries (c.settled s).built :=
  Deed.minted _ c.deed .scan c.service c.world.built

variable {c s}

/-- Alone a request comes to what is settled. -/
theorem Ready.alone_eq (h : c.Ready) :
    (c.alone s).2.built = (c.settled s).built ∧
      (c.alone s).2.state = (Store.createAll (c.settled s).tries s).2 ∧
      ((c.settled s).tries.Pairwise (fun p q => p.identity ≠ q.identity) →
        (c.alone s).1 = (c.settled s).value) := by
  have hstarts : c.service.Starts c.context { c.world with state := s } :=
    h.live.starts h.patient
  obtain ⟨report, w, hrun, hsettled⟩ := c.deed.run_settle .scan hstarts
  have hrun : c.alone s = (report, w) := hrun
  rw [hrun]
  exact hsettled

/-- A promotion that is to be tried has a stamp that is used up. -/
theorem Ready.exists_stamp (h : c.Ready) {p : Promotion} (hp : p ∈ (c.settled s).tries) :
    ∃ k stage freight, c.Uses s k ∧ p = .build stage freight (c.stamps k) := by
  obtain ⟨k, stage, freight, hle, hlt, rfl⟩ := (c.minted_settled s).exists_stamp hp
  refine ⟨k, stage, freight, ⟨hle, ?_⟩, rfl⟩
  rw [h.alone_eq.1]
  exact hlt

/-- With other times a request reports the same but for the times, and promotions of the same
identities are created. -/
theorem Ready.alone_restamped (h : c.Ready)
    (hdistinct : (c.settled s).tries.Pairwise fun p q => p.identity ≠ q.identity)
    {stamps : Nat → Promotion.Stamp} (hids : ∀ k, c.Uses s k → (stamps k).id = (c.stamps k).id) :
    ((c.restamped stamps).alone s).1.untimed = (c.alone s).1.untimed ∧
      ∀ id, (((c.restamped stamps).alone s).2.state.created.get? id).isSome ↔
        ((c.alone s).2.state.created.get? id).isSome := by
  have h' : (c.restamped stamps).Ready := ⟨h.live, h.patient⟩
  obtain ⟨hbuilt, hstate, hvalue⟩ := h.alone_eq (s := s)
  obtain ⟨-, hstate', hvalue'⟩ := h'.alone_eq (s := s)
  obtain ⟨hreport, htries⟩ : ((c.restamped stamps).settled s).value.untimed =
        (c.settled s).value.untimed ∧
      ((c.restamped stamps).settled s).tries.map Promotion.untimed =
        (c.settled s).tries.map Promotion.untimed := by
    refine c.deed.settle_restamped (s.timeless_answers c.validates) .scan c.service
      (c.restamped stamps).service c.world.built fun k hle hlt => hids k ⟨hle, ?_⟩
    rw [hbuilt]
    exact hlt
  -- The identities are the same, so they differ in the same way.
  have hdistinct' : ((c.restamped stamps).settled s).tries.Pairwise
      fun p q => p.identity ≠ q.identity := by
    have hmap : ((c.settled s).tries.map Promotion.untimed).Pairwise
        fun p q => p.identity ≠ q.identity := List.pairwise_map.2 hdistinct
    rw [← htries, List.pairwise_map] at hmap
    exact hmap
  refine ⟨?_, fun id => ?_⟩
  · rw [hvalue hdistinct, hvalue' hdistinct', hreport]
  · rw [hstate, hstate', Store.isSome_createAll s hdistinct, Store.isSome_createAll s hdistinct',
      htries]

end Client

/-- Requests at the same time: the store that they share, and where each of them is. Everything else
in the world of a request, such as the clock and the log, is its own. -/
structure Crowd (n : Nat) where
  store : Store
  courses : Fin n → Course Store Report

namespace Crowd

variable {n : Nat} (clients : Fin n → Client)

/-- All requests are made. -/
def start (s : Store) : Crowd n := ⟨s, fun i => (clients i).entering s⟩

/-- Where a request is, in the store as it is now. -/
def course (crowd : Crowd n) (i : Fin n) : Course Store Report :=
  (crowd.courses i).within { (crowd.courses i).world with state := crowd.store }

/-- One of the requests makes a step, which does not end its context. -/
inductive Next : Crowd n → Crowd n → Prop
  | step {crowd i c} :
      Course.Next (clients i).service (clients i).context (crowd.course i) c →
      (clients i).context.Live c.world →
      Next crowd ⟨c.world.state, Function.update crowd.courses i c⟩

/-- Any number of steps later. -/
def Reaches : Crowd n → Crowd n → Prop := Relation.ReflTransGen (Next clients)

/-- A request has come to its end, with a report. -/
def Reports (crowd : Crowd n) (i : Fin n) (report : Report) : Prop :=
  ∃ w, crowd.courses i = .plan (.done report) w

/-- All requests have come to their ends. -/
def Over (crowd : Crowd n) : Prop := ∀ i, ∃ report, crowd.Reports i report

/-- No two of the stamps that are used up, by one request or by two, have the same identifier. -/
def Apart (s : Store) : Prop :=
  ∀ i j k l, (clients i).Uses s k → (clients j).Uses s l →
    ((clients i).stamps k).id = ((clients j).stamps l).id → i = j ∧ k = l

/-- Requests that are on their way, and do not get in each other's way. -/
structure Undisturbed (s : Store) (crowd : Crowd n) : Prop where
  /-- A request that has come to its end reports what it reports alone. -/
  reports : ∀ i report, crowd.Reports i report → report = ((clients i).alone s).1
  /-- Alone at another time, with the same identifiers, it reports the same but for the times. -/
  untimed : ∀ i report stamps, crowd.Reports i report →
    (∀ k, (clients i).Uses s k → (stamps k).id = ((clients i).stamps k).id) →
    report.untimed = (((clients i).restamped stamps).alone s).1.untimed
  /-- All requests can come to their ends. -/
  completes : ∃ crowd', Reaches clients crowd crowd' ∧ crowd'.Over
  /-- Then what is created is what was there, and what each request creates alone. -/
  created : crowd.Over → ∀ id v, crowd.store.created.get? id = some v ↔
    s.created.get? id = some v ∨
      ∃ i, ((clients i).alone s).2.state.created.get? id = some v
  /-- And alone at other times each creates promotions of the same identities. -/
  identities : crowd.Over → ∀ stamps : Fin n → Nat → Promotion.Stamp,
    (∀ i k, (clients i).Uses s k → (stamps i k).id = ((clients i).stamps k).id) →
    ∀ id, (crowd.store.created.get? id).isSome ↔ (s.created.get? id).isSome ∨
      ∃ i, ((((clients i).restamped (stamps i)).alone s).2.state.created.get? id).isSome
  /-- As many attempts are counted as by all of them alone. -/
  attempts : crowd.Over → crowd.store.attempts =
    s.attempts + ∑ i, (((clients i).alone s).2.state.attempts - s.attempts)
  /-- Nothing else is changed in the store. -/
  rest : crowd.store = s.creating crowd.store.created crowd.store.attempts
  /-- And the order in which they made their steps is not to be seen. -/
  unique : crowd.Over → ∀ crowd', Reaches clients (start clients s) crowd' → crowd'.Over →
    crowd'.store = crowd.store

variable {clients} {s : Store} {crowd crowd' : Crowd n}

/-! ## Who tries what -/

/-- The promotions of a request, among those that are tried. -/
def tried (order : List (Fin n × Promotion)) (i : Fin n) : List Promotion :=
  (order.filter fun o => o.1 = i).map Prod.snd

theorem tried_snoc_self (order : List (Fin n × Promotion)) (i : Fin n) (p : Promotion) :
    tried (order ++ [(i, p)]) i = tried order i ++ [p] := by
  simp [tried]

theorem tried_snoc_ne (order : List (Fin n × Promotion)) {i j : Fin n} (h : i ≠ j)
    (p : Promotion) : tried (order ++ [(i, p)]) j = tried order j := by
  simp [tried, h]

theorem mem_tried {order : List (Fin n × Promotion)} {i : Fin n} {p : Promotion} :
    p ∈ tried order i ↔ (i, p) ∈ order := by
  simp [tried]

theorem length_eq_sum_tried (order : List (Fin n × Promotion)) :
    order.length = ∑ i, (tried order i).length := by
  induction order using List.reverseRecOn with
  | nil => simp [tried]
  | append_singleton order o ih =>
      obtain ⟨i, p⟩ := o
      have hone (j : Fin n) : (tried (order ++ [(i, p)]) j).length =
          (tried order j).length + if j = i then 1 else 0 := by
        by_cases h : j = i
        · subst h
          rw [tried_snoc_self, List.length_append, if_pos rfl]
          rfl
        · rw [tried_snoc_ne order (Ne.symm h), if_neg h, Nat.add_zero]
      simp only [hone, Finset.sum_add_distrib, Finset.sum_ite_eq', Finset.mem_univ, if_true]
      rw [List.length_append, ih]
      rfl

/-- No two of the promotions that are tried, by one request or by two, have the same identity. -/
structure Separate (clients : Fin n → Client) (s : Store) : Prop where
  within : ∀ i, ((clients i).settled s).tries.Pairwise fun p q => p.identity ≠ q.identity
  between : ∀ i j, i ≠ j → ∀ p ∈ ((clients i).settled s).tries,
    ∀ q ∈ ((clients j).settled s).tries, p.identity ≠ q.identity

/-- In some order promotions were tried, and what the store has is what was created of them. Each
request is to try what is left for it. -/
structure Ordered (clients : Fin n → Client) (s : Store) (order : List (Fin n × Promotion))
    (crowd : Crowd n) : Prop where
  store : crowd.store = (Store.createAll (order.map Prod.snd) s).2
  distinct : (order.map Prod.snd).Pairwise fun p q => p.identity ≠ q.identity
  comes : ∀ i, ∃ rest, tried order i ++ rest = ((clients i).settled s).tries ∧
    (crowd.courses i).Comes (s.answers (clients i).validates) (clients i).stamps
      { (clients i).settled s with tries := rest }
  live : ∀ i, (clients i).context.Live (crowd.courses i).world

variable {order order' : List (Fin n × Promotion)}

theorem ordered_start (hready : ∀ i, (clients i).Ready) :
    Ordered clients s [] (start clients s) where
  store := rfl
  distinct := .nil
  comes _ := ⟨_, rfl, rfl⟩
  live i := (hready i).live

/-- What is left to be tried has an identity that nothing has which was tried. -/
theorem Ordered.free (hseparate : Separate clients s) (h : Ordered clients s order crowd)
    {i : Fin n} {p : Promotion} {rest : List Promotion}
    (htries : tried order i ++ p :: rest = ((clients i).settled s).tries) :
    ∀ q ∈ order.map Prod.snd, q.identity ≠ p.identity := by
  intro q hq
  obtain ⟨⟨j, q⟩, horder, rfl⟩ := List.mem_map.1 hq
  have hq : q ∈ tried order j := mem_tried.2 horder
  by_cases hji : j = i
  · subst hji
    have hwithin := hseparate.within j
    rw [← htries] at hwithin
    exact (List.pairwise_append.1 hwithin).2.2 q hq p List.mem_cons_self
  · obtain ⟨rest', htries', -⟩ := h.comes j
    refine hseparate.between j i hji q ?_ p ?_
    · rw [← htries']
      exact List.mem_append_left _ hq
    · rw [← htries]
      exact List.mem_append_right _ List.mem_cons_self

/-- A step of one request changes nothing for the others. -/
theorem Ordered.update (h : Ordered clients s order crowd) {i : Fin n} {c : Course Store Report}
    (hstore : c.world.state = (Store.createAll (order'.map Prod.snd) s).2)
    (hdistinct : (order'.map Prod.snd).Pairwise fun p q => p.identity ≠ q.identity)
    (hcomes : ∃ rest, tried order' i ++ rest = ((clients i).settled s).tries ∧
      c.Comes (s.answers (clients i).validates) (clients i).stamps
        { (clients i).settled s with tries := rest })
    (hlive : (clients i).context.Live c.world)
    (hothers : ∀ j, i ≠ j → tried order' j = tried order j) :
    Ordered clients s order' ⟨c.world.state, Function.update crowd.courses i c⟩ where
  store := hstore
  distinct := hdistinct
  comes j := by
    show ∃ rest, _ ∧ (Function.update crowd.courses i c j).Comes _ _ _
    by_cases hji : j = i
    · subst hji
      rw [Function.update_self]
      exact hcomes
    · rw [Function.update_of_ne hji, hothers j (Ne.symm hji)]
      exact h.comes j
  live j := by
    show (clients j).context.Live (Function.update crowd.courses i c j).world
    by_cases hji : j = i
    · subst hji
      rw [Function.update_self]
      exact hlive
    · rw [Function.update_of_ne hji]
      exact h.live j

/-- **Every step keeps the order**, or one promotion is tried next. -/
theorem Ordered.next (hready : ∀ i, (clients i).Ready) (hseparate : Separate clients s)
    (h : Ordered clients s order crowd) (hnext : Next clients crowd crowd') :
    ∃ order', Ordered clients s order' crowd' := by
  cases hnext with
  | @step i c hstep hlive =>
      obtain ⟨rest, htries, hcomes⟩ := h.comes i
      have hstate : (crowd.course i).world.state = crowd.store := by
        rw [course, Course.world_within]
      have hlive' : (clients i).context.Live (crowd.course i).world := by
        rw [course, Course.world_within]
        exact h.live i
      have hcomes' : (crowd.course i).Comes (s.answers (clients i).validates) (clients i).stamps
          { (clients i).settled s with tries := rest } := hcomes.within rfl
      -- Questions are answered as at first, and so is what is tried next.
      have hasked : ∀ r, (∀ p, r ≠ .create p) →
          (crowd.course i).world.state.answers (clients i).validates r =
            s.answers (clients i).validates r := by
        intro r hr
        rw [hstate, h.store, Store.createAll_snd, Store.answers_creating hr]
      have htried : ∀ p rest', rest = p :: rest' →
          ((crowd.course i).world.state.create (.promotion p)).1 =
            s.answers (clients i).validates (.create p) := by
        rintro p rest' rfl
        rw [hstate, h.store]
        exact Store.create_createAll (h.free hseparate htries)
      rcases hcomes'.next hstep (hlive'.starts (hready i).patient) hasked htried with
        ⟨hcomes, hsame⟩ | ⟨p, rest', hrest, hcomes, hcreated⟩
      · refine ⟨order, h.update ?_ h.distinct ⟨rest, htries, hcomes⟩ hlive fun _ _ => rfl⟩
        rw [hsame, hstate, h.store]
      · have hrest : rest = p :: rest' := hrest
        subst hrest
        refine ⟨order ++ [(i, p)], h.update ?_ ?_ ⟨rest', ?_, hcomes⟩ hlive
          fun j hij => tried_snoc_ne order hij p⟩
        · rw [hcreated, hstate, h.store, List.map_append, Store.createAll_append]
          rfl
        · rw [List.map_append]
          refine List.pairwise_append.2 ⟨h.distinct, List.pairwise_singleton _ _, ?_⟩
          intro q hq p' hp'
          obtain rfl := List.mem_singleton.1 hp'
          exact h.free hseparate htries q hq
        · rw [tried_snoc_self, List.append_assoc]
          exact htries

theorem Ordered.reaches (hready : ∀ i, (clients i).Ready) (hseparate : Separate clients s)
    (h : Ordered clients s order crowd) (hreaches : Reaches clients crowd crowd') :
    ∃ order', Ordered clients s order' crowd' := by
  induction hreaches with
  | refl => exact ⟨order, h⟩
  | tail _ hnext ih =>
      obtain ⟨order', h'⟩ := ih
      exact h'.next hready hseparate hnext

/-- Different identifiers make different identities. -/
theorem Apart.separate (hready : ∀ i, (clients i).Ready) (h : Apart clients s) :
    Separate clients s where
  within i := by
    have hrepeats : NeverRepeats (clients i).stamps (clients i).world.built
        ((clients i).settled s).built := by
      intro k l hk hkl hl hid
      rw [← (hready i).alone_eq.1] at hl
      obtain ⟨-, rfl⟩ := h i i k l ⟨hk, hkl.trans hl⟩ ⟨hk.trans hkl.le, hl⟩ hid
      exact Nat.lt_irrefl k hkl
    exact ((clients i).minted_settled s).pairwise_name hrepeats |>.imp
      fun hname heq => hname (Promotion.name_eq_of_identity heq)
  between i j hij p hp q hq heq := by
    obtain ⟨k, stage, freight, hk, rfl⟩ := (hready i).exists_stamp hp
    obtain ⟨l, stage', freight', hl, rfl⟩ := (hready j).exists_stamp hq
    have hid : ((clients i).stamps k).id ≠ ((clients j).stamps l).id :=
      fun hid => hij (h i j k l hk hl hid).1
    exact Promotion.name_build_ne hid (Promotion.name_eq_of_identity heq)

/-! ## Coming to an end -/

/-- What one request can do alone from here, it can do among the others. -/
theorem reaches_of_proceeds {i : Fin n} {c : Course Store Report}
    (h : Course.Proceeds (clients i).service (clients i).context (crowd.course i) c) :
    ∃ crowd', Reaches clients crowd crowd' ∧ crowd'.course i = c ∧
      ∀ j, j ≠ i → crowd'.courses j = crowd.courses j := by
  induction h with
  | refl => exact ⟨crowd, .refl, rfl, fun _ _ => rfl⟩
  | @tail c c' _ hnext ih =>
      obtain ⟨crowd', hreaches, rfl, hothers⟩ := ih
      refine ⟨_, hreaches.tail (.step hnext.1 hnext.2), ?_, fun j hj => ?_⟩
      · show (Function.update crowd'.courses i c' i).within
          { (Function.update crowd'.courses i c' i).world with state := c'.world.state } = c'
        rw [Function.update_self]
        exact c'.within_world
      · exact (Function.update_of_ne hj _ _).trans (hothers j hj)

theorem reports_of_course {i : Fin n} {report : Report} {w : World Store}
    (h : crowd.course i = .plan (.done report) w) : crowd.Reports i report := by
  unfold course at h
  unfold Reports
  cases hcourse : crowd.courses i with
  | plan p w' =>
      rw [hcourse] at h
      cases h
      exact ⟨w', rfl⟩
  | call r f next w' =>
      rw [hcourse] at h
      cases h
  | writes m next =>
      rw [hcourse] at h
      cases h

/-- Any one request can come to its end, while the others stay where they are. -/
theorem Ordered.finish (hready : ∀ i, (clients i).Ready)
    (h : Ordered clients s order crowd) (i : Fin n) :
    ∃ crowd', Reaches clients crowd crowd' ∧ (∃ report, crowd'.Reports i report) ∧
      ∀ j, j ≠ i → crowd'.courses j = crowd.courses j := by
  obtain ⟨rest, -, hcomes⟩ := h.comes i
  have hcomes : (crowd.course i).Comes (s.answers (clients i).validates) (clients i).stamps
      { (clients i).settled s with tries := rest } := hcomes.within rfl
  have hlive : (clients i).context.Live (crowd.course i).world := by
    rw [course, Course.world_within]
    exact h.live i
  obtain ⟨report, w, hproceeds⟩ := hcomes.proceeds (hready i).patient hlive
  obtain ⟨crowd', hreaches, hcourse, hothers⟩ := reaches_of_proceeds hproceeds
  exact ⟨crowd', hreaches, ⟨report, reports_of_course hcourse⟩, hothers⟩

theorem Ordered.completes (hready : ∀ i, (clients i).Ready) (hseparate : Separate clients s)
    (h : Ordered clients s order crowd) : ∃ crowd', Reaches clients crowd crowd' ∧ crowd'.Over := by
  -- Some requests come to their ends, one after another.
  have hsome (is : List (Fin n)) : ∃ crowd', Reaches clients crowd crowd' ∧
      ∀ i ∈ is, ∃ report, crowd'.Reports i report := by
    induction is with
    | nil => exact ⟨crowd, .refl, fun i hi => absurd hi List.not_mem_nil⟩
    | cons i is ih =>
        obtain ⟨crowd₁, hreaches, hdone⟩ := ih
        obtain ⟨order₁, h₁⟩ := h.reaches hready hseparate hreaches
        obtain ⟨crowd₂, hreaches', hi, hothers⟩ := h₁.finish hready i
        refine ⟨crowd₂, hreaches.trans hreaches', fun j hj => ?_⟩
        by_cases hji : j = i
        · subst hji
          exact hi
        · obtain ⟨report, w, hw⟩ := hdone j (List.mem_of_ne_of_mem hji hj)
          exact ⟨report, w, (hothers j hji).trans hw⟩
  obtain ⟨crowd', hreaches, hdone⟩ := hsome (List.finRange n)
  exact ⟨crowd', hreaches, fun i => hdone i (List.mem_finRange i)⟩

/-! ## At the end -/

/-- A request that has come to its end has tried everything, and reports what is settled. -/
theorem Ordered.reported (h : Ordered clients s order crowd) {i : Fin n} {report : Report}
    (hreport : crowd.Reports i report) :
    report = ((clients i).settled s).value ∧ tried order i = ((clients i).settled s).tries := by
  obtain ⟨rest, htries, hcomes⟩ := h.comes i
  obtain ⟨w, hw⟩ := hreport
  rw [hw] at hcomes
  have hend : Settlement.mk report [] w.built = { (clients i).settled s with tries := rest } :=
    hcomes
  have hrest : [] = rest := congrArg Settlement.tries hend
  rw [← hrest, List.append_nil] at htries
  exact ⟨congrArg Settlement.value hend, htries⟩

theorem Ordered.mem_order (h : Ordered clients s order crowd) (hover : crowd.Over)
    {p : Promotion} :
    p ∈ order.map Prod.snd ↔ ∃ i, p ∈ ((clients i).settled s).tries := by
  have hall (i : Fin n) : tried order i = ((clients i).settled s).tries := by
    obtain ⟨report, hreport⟩ := hover i
    exact (h.reported hreport).2
  simp only [← hall, mem_tried, List.mem_map, Prod.exists, exists_eq_right]

theorem Ordered.created (hready : ∀ i, (clients i).Ready) (hseparate : Separate clients s)
    (h : Ordered clients s order crowd) (hover : crowd.Over) (id : Identity) (v : Json) :
    crowd.store.created.get? id = some v ↔ s.created.get? id = some v ∨
      ∃ i, ((clients i).alone s).2.state.created.get? id = some v := by
  have halone (i : Fin n) : ((clients i).alone s).2.state.created.get? id = some v ↔
      s.created.get? id = some v ∨ ∃ p ∈ ((clients i).settled s).tries,
        (s.create (.promotion p)).1 = .ok () ∧ id = p.identity ∧ v = p.toJson := by
    rw [(hready i).alone_eq.2.1]
    exact (Store.createAll_eq s (hseparate.within i)).2 id v
  rw [h.store, (Store.createAll_eq s h.distinct).2]
  constructor
  · rintro (hold | ⟨p, hp, hcreated⟩)
    · exact .inl hold
    · obtain ⟨i, hi⟩ := (h.mem_order hover).1 hp
      exact .inr ⟨i, (halone i).2 (.inr ⟨p, hi, hcreated⟩)⟩
  · rintro (hold | ⟨i, hi⟩)
    · exact .inl hold
    · rcases (halone i).1 hi with hold | ⟨p, hp, hcreated⟩
      · exact .inl hold
      · exact .inr ⟨p, (h.mem_order hover).2 ⟨i, hp⟩, hcreated⟩

theorem Ordered.attempts (hready : ∀ i, (clients i).Ready)
    (h : Ordered clients s order crowd) (hover : crowd.Over) : crowd.store.attempts =
      s.attempts + ∑ i, (((clients i).alone s).2.state.attempts - s.attempts) := by
  have halone (i : Fin n) : ((clients i).alone s).2.state.attempts - s.attempts =
      (tried order i).length := by
    obtain ⟨report, hreport⟩ := hover i
    rw [(hready i).alone_eq.2.1, Store.createAll_snd, (h.reported hreport).2]
    exact Nat.add_sub_cancel_left ..
  rw [h.store, Store.createAll_snd]
  simp only [halone, ← length_eq_sum_tried]
  exact congrArg (s.attempts + ·) (List.length_map ..)

/-- **Requests at the same time do not get in each other's way**, if their contexts last, no call
times out at once, and no identifier is used twice. -/
theorem requests_undisturbed (hready : ∀ i, (clients i).Ready) (hapart : Apart clients s)
    (hreaches : Reaches clients (start clients s) crowd) : Undisturbed clients s crowd := by
  have hseparate := hapart.separate hready
  obtain ⟨order, h⟩ := (ordered_start hready).reaches hready hseparate hreaches
  have hreports {i : Fin n} {report : Report} (hreport : crowd.Reports i report) :
      report = ((clients i).alone s).1 := by
    rw [(h.reported hreport).1]
    exact ((hready i).alone_eq.2.2 (hseparate.within i)).symm
  have hrest {crowd : Crowd n} {order : List (Fin n × Promotion)}
      (h : Ordered clients s order crowd) :
      crowd.store = s.creating crowd.store.created crowd.store.attempts := by
    rw [h.store, Store.createAll_snd]
    rfl
  refine ⟨fun i report => hreports, ?_, h.completes hready hseparate,
    h.created hready hseparate, ?_, h.attempts hready, hrest h, ?_⟩
  · intro i report stamps hreport hids
    rw [hreports hreport]
    exact ((hready i).alone_restamped (hseparate.within i) hids).1.symm
  · intro hover stamps hids id
    have hrestamped (i : Fin n) :=
      ((hready i).alone_restamped (hseparate.within i) (hids i)).2 id
    simp only [hrestamped, Option.isSome_iff_exists, h.created hready hseparate hover,
      exists_or, @exists_comm Json]
  · intro hover crowd' hreaches' hover'
    obtain ⟨order', h'⟩ := (ordered_start hready).reaches hready hseparate hreaches'
    have hcreated : crowd'.store.created = crowd.store.created := by
      apply Table.ext_get?
      intro id
      apply Option.ext
      intro v
      rw [h'.created hready hseparate hover', h.created hready hseparate hover]
    rw [hrest h', hrest h, hcreated, h'.attempts hready hover',
      h.attempts hready hover]

/-- A stage with two subscribers, one of which nothing can be written for. -/
def crossroads : Store := Store.changed
  [.putStage (Stage.named "proj" "dev"),
   .putStage ((Stage.named "proj" "qa").withSource "dev"),
   .putStage ((Stage.named "proj" "uat").withSource "dev"),
   .putFreight ((Freight.named "proj" "f1").qualifiedFor "dev" default),
   .failWritesFor ⟨"proj", "uat"⟩ "quota"] .empty

/-- One promotes a subscriber, and the other all subscribers at the same time. -/
def meeting (i : Fin 2) : Client where
  deed := if i = 0 then .stage ⟨"proj", "qa", "f1"⟩ else .subscribers ⟨"proj", "dev", "f1"⟩
  context := ⟨0, none⟩
  validates := true
  stamps k := ⟨.ofNat (100 * i + k), default⟩
  sink := .discarding
  config := {}
  world := { state := .empty }

theorem requests_undisturbed_meeting : ∃ crowd, Reaches meeting (start meeting crossroads) crowd ∧
    crowd.Over ∧ Undisturbed meeting crossroads crowd := by
  have hready (i : Fin 2) : (meeting i).Ready :=
    ⟨rfl, (by decide : (none : Option Duration) ≠ some 0)⟩
  have hbuilt : ∀ i, ((meeting i).settled crossroads).built ≤ 3 := by decide +kernel
  have hids : ∀ i j : Fin 2, ∀ k < 3, ∀ l < 3, PromotionId.ofNat (100 * i + k) =
      PromotionId.ofNat (100 * j + l) → i = j ∧ k = l := by decide
  have huses {i : Fin 2} {k : Nat} (h : (meeting i).Uses crossroads k) : k < 3 := by
    have hlt := h.2
    rw [(hready i).alone_eq.1] at hlt
    exact Nat.lt_of_lt_of_le hlt (hbuilt i)
  have hapart : Apart meeting crossroads := fun i j k l hk hl =>
    hids i j k (huses hk) l (huses hl)
  obtain ⟨crowd, hreaches, hover⟩ :=
    (requests_undisturbed hready hapart .refl).completes
  exact ⟨crowd, hreaches, hover, requests_undisturbed hready hapart hreaches⟩

end Crowd

end Delivery
