import Delivery.Proofs.Reporting
import Delivery.Proofs.StoreHistory

/-!
# Creations in the history of a store

A creation is decided by the history of the store (`Store.Decides`): whether the store is down, the
name, the failures that were injected, and what was created before, in this order. It adds what it
was given or nothing at all, and what was once created is listed for ever after, as it was given if
it is legible (`Store.creations_kept`). A leap second within a minute is stored as the second after
it (`Store.leap_second_stored`).
-/

namespace Delivery

namespace Store

/-- A resource was created at some point of a history. -/
def Creates (h : List Action) (r : Resource) : Prop :=
  ∃ pre post, h = pre ++ .call (.create r) :: post ∧ ((after pre).create r).1 = .ok ()

/-- What was created stays so. -/
theorem Creates.append {h : List Action} {r : Resource} (hr : Creates h r) (later : List Action) :
    Creates (h ++ later) r := by
  obtain ⟨pre, post, rfl, hok⟩ := hr
  exact ⟨pre, post ++ later, by simp, hok⟩

theorem creates_concat {h : List Action} {a : Action} {r : Resource} : Creates (h ++ [a]) r ↔
    Creates h r ∨ a = .call (.create r) ∧ ((after h).create r).1 = .ok () := by
  constructor
  · rintro ⟨pre, post, heq, hok⟩
    rcases List.eq_nil_or_concat post with rfl | ⟨post, b, rfl⟩
    · obtain ⟨rfl, ha⟩ := List.append_inj' heq rfl
      exact .inr ⟨List.singleton_inj.1 ha, hok⟩
    · rw [List.concat_eq_append, ← List.cons_append, ← List.append_assoc] at heq
      exact .inl ⟨pre, post, (List.append_inj' heq rfl).1, hok⟩
  · rintro (hr | ⟨rfl, hok⟩)
    · exact hr.append [a]
    · exact ⟨h, [], rfl, hok⟩

/-- What is stored as created is what was created. -/
theorem get?_created_after {h : List Action} {id : Identity} {v : Json} :
    (after h).created.get? id = some v ↔ ∃ r, Creates h r ∧ r.identity = id ∧ v = r.toJson := by
  induction h using List.reverseRecOn with
  | nil =>
      constructor
      · intro hget
        cases hget
      · rintro ⟨r, ⟨pre, post, heq, -⟩, -⟩
        simp at heq
  | append_singleton h a ih =>
      -- An action that creates nothing leaves both sides as they were.
      have hkeeps (hne : ∀ r, a ≠ .call (.create r)) :
          (∃ r, Creates (h ++ [a]) r ∧ r.identity = id ∧ v = r.toJson) ↔
            (after h).created.get? id = some v := by
        rw [ih]
        simp only [creates_concat, hne, false_and, or_false]
      rw [after_concat]
      cases a with
      | change c =>
          rw [hkeeps (by simp), ← created_apply c (after h)]
          rfl
      | promotions project =>
          rw [hkeeps (by simp)]
          rfl
      | call p =>
          cases p with
          | create r =>
              show ((after h).create r).2.created.get? id = some v ↔ _
              rw [get?_created_create, ih]
              constructor
              · rintro (⟨q, hq, hid, hv⟩ | ⟨hok, hid, hv⟩)
                · exact ⟨q, hq.append _, hid, hv⟩
                · exact ⟨r, creates_concat.2 (.inr ⟨rfl, hok⟩), hid.symm, hv⟩
              · rintro ⟨q, hq, hid, hv⟩
                rcases creates_concat.1 hq with hq | ⟨heq, hok⟩
                · exact .inl ⟨q, hq, hid, hv⟩
                · obtain rfl : r = q := by simpa using heq
                  exact .inr ⟨hok, hid.symm, hv⟩
          | _ =>
              rw [hkeeps (by simp)]
              rfl

/-- No identity is created twice. -/
theorem Creates.unique {h : List Action} {r r' : Resource} (hr : Creates h r)
    (hr' : Creates h r') (hid : r.identity = r'.identity) : r = r' := by
  -- A creation that comes later finds the identity taken.
  have hfresh {h : List Action} {q q' : Resource} (hq : Creates h q)
      (hok : ((after h).create q').1 = .ok ()) : q.identity ≠ q'.identity := by
    intro hid
    have hget := get?_created_after.2 ⟨q, hq, hid, rfl⟩
    rcases (after h).create_cases q' with ⟨e, -, hcreate⟩ | ⟨-, hfree, -⟩
    · rw [hcreate] at hok
      cases hok
    · rw [hfree] at hget
      cases hget
  induction h using List.reverseRecOn with
  | nil =>
      obtain ⟨pre, post, heq, -⟩ := hr
      simp at heq
  | append_singleton h a ih =>
      rcases creates_concat.1 hr with hr | ⟨rfl, hok⟩
      · rcases creates_concat.1 hr' with hr' | ⟨-, hok'⟩
        · exact ih hr hr'
        · exact absurd hid (hfresh hr hok')
      · rcases creates_concat.1 hr' with hr' | ⟨heq, -⟩
        · exact absurd hid.symm (hfresh hr' hok)
        · simpa using heq

/-! ## Deciding -/

/-- The message with which creating a resource fails, if a failure was injected for it. -/
def failure? (h : List Action) : Resource → Option String
  | .promotion p => (latest (Change.failureAt ⟨p.project, p.stage⟩) h).join
  | _ => none

theorem injected?_after (h : List Action) (r : Resource) :
    (after h).injected? r = (failure? h r).map .backend := by
  cases r with
  | promotion p =>
      show ((after h).failures.get? ⟨p.project, p.stage⟩).map _ = _
      rw [get?_failures_after]
      rfl
  | _ => rfl

/-- What creating a resource comes to in a store with a history. Each case is for when those before
it do not apply. -/
inductive Decides (h : List Action) (r : Resource) : Except StoreError Unit → Prop
  /-- The store is down. -/
  | down (hdown : latest Change.switch h = some true) :
      Decides h r (.error (.backend "store unavailable"))
  /-- The name is not a subdomain. -/
  | misnamed (hup : latest Change.switch h ≠ some true)
      (hname : Subdomain.isSubdomain r.metadata.name = false) :
      Decides h r (.error (.invalid (r.kind.text ++ " name " ++ Text.quote r.metadata.name ++
        " is not a valid DNS subdomain")))
  /-- A failure was injected. -/
  | failing {message : String} (hup : latest Change.switch h ≠ some true)
      (hname : Subdomain.isSubdomain r.metadata.name = true)
      (hfailure : failure? h r = some message) : Decides h r (.error (.backend message))
  /-- Something was created under the same identity. -/
  | taken {q : Resource} (hup : latest Change.switch h ≠ some true)
      (hname : Subdomain.isSubdomain r.metadata.name = true) (hfailure : failure? h r = none)
      (hq : Creates h q) (hid : q.identity = r.identity) :
      Decides h r (.error (.alreadyExists r.kind.text r.metadata.project r.metadata.name))
  /-- Nothing stands against it. -/
  | free (hup : latest Change.switch h ≠ some true)
      (hname : Subdomain.isSubdomain r.metadata.name = true) (hfailure : failure? h r = none)
      (hfree : ∀ q, Creates h q → q.identity ≠ r.identity) : Decides h r (.ok ())

theorem create_decides (h : List Action) (r : Resource) :
    Decides h r ((after h).create r).1 := by
  have hdown := unavailable_after h
  have hinjected := injected?_after h r
  unfold create refusal? ensureAvailable
  by_cases hswitch : latest Change.switch h = some true
  · rw [hswitch] at hdown
    rw [hdown]
    exact .down hswitch
  have hup : (after h).unavailable = false := by
    rw [hdown]
    rcases hlatest : latest Change.switch h with _ | _ | _
    · rfl
    · rfl
    · exact absurd hlatest hswitch
  rw [hup, hinjected]
  cases hname : Subdomain.isSubdomain r.metadata.name with
  | false => exact .misnamed hswitch hname
  | true =>
      cases hfailure : failure? h r with
      | some message => exact .failing hswitch hname hfailure
      | none =>
          cases hget : (after h).created.get? r.identity with
          | some v =>
              obtain ⟨q, hq, hid, -⟩ := get?_created_after.1 hget
              simp only [Table.contains, hget]
              exact .taken hswitch hname hfailure hq hid
          | none =>
              simp only [Table.contains, hget]
              refine .free hswitch hname hfailure ?_
              intro q hq hid
              rw [get?_created_after.2 ⟨q, hq, hid, rfl⟩] at hget
              cases hget

/-- What a creation does to a store with a history. -/
structure Attempts (h : List Action) (r : Resource) (outcome : Except StoreError Unit)
    (s : Store) : Prop where
  decided : Decides h r outcome
  counted : s.attempts = (after h).attempts + 1
  /-- A creation that fails is only counted. -/
  refused : ∀ e, outcome = .error e → s = (after h).counting 1
  /-- One that succeeds adds one entry where there was none, and touches nothing else. -/
  added : outcome = .ok () → s = (after h).creating s.created s.attempts ∧
    (after h).created.get? r.identity = none ∧
    ∀ id, s.created.get? id = if id = r.identity then some r.toJson
      else (after h).created.get? id

theorem create_attempts (h : List Action) (r : Resource) :
    Attempts h r ((after h).create r).1 ((after h).create r).2 := by
  have hdecides := create_decides h r
  rcases (after h).create_cases r with ⟨e, -, hcreate⟩ | ⟨-, hfree, hcreate⟩
  · rw [hcreate] at hdecides ⊢
    refine ⟨hdecides, rfl, fun _ _ => rfl, ?_⟩
    intro hok
    cases hok
  · rw [hcreate] at hdecides ⊢
    refine ⟨hdecides, rfl, ?_, ?_⟩
    · intro e he
      cases he
    · intro _
      exact ⟨rfl, hfree, fun id => Table.get?_insert ..⟩

/-! ## Listing -/

/-- Promotions with one JSON form have one identity. -/
theorem identity_eq_of_toJson {p q : Promotion} (h : p.toJson = q.toJson) :
    p.identity = q.identity := by
  show p.asRead.identity = q.asRead.identity
  rw [Promotion.asRead_eq_of_toJson h]

/-- Within one project identities of one kind are ordered by name. -/
theorem name_lt_of_identity {p q : Promotion} (h : compare p.identity q.identity = .lt)
    (hproject : p.project = q.project) : p.name < q.name := by
  have hkind : compare p.identity.kind q.identity.kind = .eq := rfl
  rw [Identity.compare_def, hkind, Ordering.then_eq] at h
  exact name_lt_of_compare h hproject

/-- A sound store lists the promotions of a project in strict name order. -/
theorem Sound.pairwise_promotions {s : Store} (hs : s.Sound) {project : String}
    {l : List Promotion} (hl : s.promotions project = .ok l) :
    l.Pairwise fun p q => p.name < q.name := by
  have hvalues : (s.promotionValues project).Pairwise fun v w =>
      ∀ p q : Promotion, v = p.toJson → w = q.toJson → p.name < q.name := by
    unfold promotionValues
    rw [List.pairwise_map]
    refine (s.created.sorted.filter _).imp_of_mem ?_
    rintro ⟨a, v⟩ ⟨b, w⟩ ha hb hlt p q rfl rfl
    obtain ⟨ha, haproject⟩ := List.mem_filter.1 ha
    obtain ⟨hb, hbproject⟩ := List.mem_filter.1 hb
    simp only [Bool.and_eq_true, beq_iff_eq] at haproject hbproject
    obtain ⟨p', rfl, hp⟩ := hs.created_promotion (Table.mem_toList_iff.1 ha) haproject.1
    obtain ⟨q', rfl, hq⟩ := hs.created_promotion (Table.mem_toList_iff.1 hb) hbproject.1
    rw [← identity_eq_of_toJson hp] at hlt haproject
    rw [← identity_eq_of_toJson hq] at hlt hbproject
    exact name_lt_of_identity hlt (haproject.2.trans hbproject.2.symm)
  obtain ⟨l', hok, hl'⟩ := hs.exists_promotions project
  obtain rfl := Except.ok.inj (hl.symm.trans hok)
  rw [hl', List.pairwise_map] at hvalues
  rw [List.pairwise_map]
  exact hvalues.imp fun {p q} hpq => hpq p q rfl rfl

theorem mem_promotions_after {h : List Action} {project : String} {l : List Promotion}
    (hl : (after h).promotions project = .ok l) {q : Promotion} : q ∈ l ↔
      ∃ p : Promotion, p.project = project ∧ Creates h (.promotion p) ∧ q = p.asRead := by
  obtain ⟨l', hl', hmem⟩ := (sound_after h).promotions_eq_ok project
  obtain rfl := Except.ok.inj (hl.symm.trans hl')
  rw [hmem]
  constructor
  · rintro ⟨p, hproject, hget, rfl⟩
    obtain ⟨r, hr, hid, hv⟩ := get?_created_after.1 hget
    cases r with
    | promotion p' =>
        exact ⟨p', (congrArg (·.key.project) hid).trans hproject, hr,
          Promotion.asRead_eq_of_toJson hv⟩
    | stage _ => cases congrArg Identity.kind hid
    | freight _ => cases congrArg Identity.kind hid
  · rintro ⟨p, hproject, hp, rfl⟩
    exact ⟨p, hproject, get?_created_after.2 ⟨_, hp, rfl, rfl⟩, rfl⟩

/-- What is listed of a project in a store with a history. -/
structure Lists (h : List Action) (project : String) (l : List Promotion) : Prop where
  /-- The promotions stand by name, each once. -/
  ordered : l.Pairwise fun p q => p.name < q.name
  /-- They are those of the project that were created, as they are read. -/
  created : ∀ q, q ∈ l ↔
    ∃ p : Promotion, p.project = project ∧ Creates h (.promotion p) ∧ q = p.asRead
  /-- One that was created stands as it was given if it is legible, and only then. -/
  same : ∀ p : Promotion, p.project = project → Creates h (.promotion p) → (p ∈ l ↔ p.Legible)

theorem lists_after {h : List Action} {project : String} {l : List Promotion}
    (hl : (after h).promotions project = .ok l) : Lists h project l where
  ordered := (sound_after h).pairwise_promotions hl
  created _ := mem_promotions_after hl
  same p hproject hp := by
    rw [mem_promotions_after hl]
    constructor
    · rintro ⟨p', -, -, rfl⟩
      exact p'.legible_asRead
    · intro hlegible
      exact ⟨p, hproject, hp, (Promotion.asRead_eq_self_iff.2 hlegible).symm⟩

/-- **What was created is kept.** In a store with any history a creation is decided by the history,
and adds what it was given or nothing; no identity is created twice. The promotions that were
created are listed by name, each once, as they were given but for leap seconds within a minute,
however the history goes on. -/
theorem creations_kept (h : List Action) :
    (∀ r : Resource, Attempts h r ((after h).create r).1 ((after h).create r).2) ∧
    (∀ r r', Creates h r → Creates h r' → r.identity = r'.identity → r = r') ∧
    ∀ project, ∃ l, (after h).promotions project = .ok l ∧ Lists h project l ∧
      ∀ later, ∃ l', (after (h ++ later)).promotions project = .ok l' ∧ ∀ p ∈ l, p ∈ l' := by
  refine ⟨create_attempts h, fun _ _ hr hr' => hr.unique hr', ?_⟩
  intro project
  obtain ⟨l, hl, -⟩ := (sound_after h).promotions_eq_ok project
  refine ⟨l, hl, lists_after hl, ?_⟩
  intro later
  obtain ⟨l', hl', -⟩ := (sound_after (h ++ later)).promotions_eq_ok project
  refine ⟨l', hl', ?_⟩
  intro q hq
  obtain ⟨p, hproject, hcreates, rfl⟩ := (mem_promotions_after hl).1 hq
  exact (mem_promotions_after hl').2 ⟨p, hproject, hcreates.append later, rfl⟩

/-- A leap second within a minute is not listed as it was given: the promotion that was created in
it is listed with the second after it. -/
theorem leap_second_stored :
    let promotion := Promotion.createdAt
    (Store.empty.create (.promotion (promotion .leaping))).1 = .ok () ∧
    promotion .leaping ≠ promotion .afterLeap ∧
    (after [.call (.create (.promotion (promotion .leaping)))]).promotions "proj" =
      .ok [promotion .afterLeap] := by
  decide +kernel

end Store

end Delivery
