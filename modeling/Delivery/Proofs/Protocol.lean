import Delivery.Proofs.Accounting

/-!
# The order of calls

Both operations follow a script. They put its requests one after another, go on only while the
answers are accepted, and end with the error that the first answer calls for which is not accepted
(`Request.objection?`). A cascade whose script is done goes on to its writes, and to nothing else.
Which collaborators answer, and how, is left open: the scripts hold for any service in any world.

* `Service.Consulted` — part of a script was done, and every answer was accepted;
* `Service.Follows` — a script was followed to its end, or up to the answer that ended it;
* `Service.calls_follow_scripts` — the two operations.
-/

namespace Delivery

/-- Leaving out names already seen is leaving out repetitions. -/
theorem distinct_eq_eraseDups (names : List String) : distinct names = names.eraseDups := by
  have hgo : ∀ seen names : List String,
      distinct.go seen names = (names.filter fun n => !seen.contains n).eraseDups := by
    intro seen names
    induction names generalizing seen with
    | nil => rfl
    | cons n rest ih =>
        rw [distinct.go]
        by_cases hn : seen.contains n = true
        · rw [if_pos hn, ih, List.filter_cons_of_neg (by simpa using hn)]
        · rw [if_neg hn, ih, List.filter_cons_of_pos (by simpa using hn), List.eraseDups_cons,
            List.filter_filter]
          congr 2
          refine List.filter_congr fun a _ => ?_
          rw [List.contains_cons, Bool.not_or]
  rw [distinct, hgo]
  congr 1
  exact List.filter_eq_self.2 fun _ _ => rfl

/-- The error that an answer calls for, when it is not accepted. The subscribers are those of the
stage that was read. -/
def Request.objection? (m : Move) (read : Stage) : (r : Request) → r.Answer → Option PromotionError
  | .validate _, .error e => some e
  | .stage _, none => some m.stageNotFound
  | .freight .., none => some m.noQualifiedFreight
  | .stages _, listing => if subscribersOf listing read.name = [] then some m.noSubscribers else none
  | .subscribers _, found => if found = [] then some m.noSubscribers else none
  | _, _ => none

/-- A request with what came of it. -/
structure Consultation where
  request : Request
  answer : Except StoreError request.Answer

/-- The error with which an operation ends on what came of a request; none when it goes on. -/
def Consultation.verdict? (m : Move) (read : Stage) (c : Consultation) : Option PromotionError :=
  match c.answer with
  | .error e => some (.internal e)
  | .ok a => c.request.objection? m read a

/-- The requests with which both operations begin. -/
def openingScript (m : Move) (candidates : List String) : List Request :=
  [.validate m.project, .stage ⟨m.project, m.stage⟩, .freight ⟨m.project, m.freight⟩ candidates]

/-- The requests of promoting a stage, where the stage that is read and the promotion are given. -/
def promotionScript (m : Move) (read : Stage) (p : Promotion) : List Request :=
  openingScript m (read.name :: read.sourceNames).eraseDups ++ [.create p]

/-- The requests of a cascade before its writes. -/
def cascadeScript (m : Move) (read : Stage) (resolver : Resolver) : List Request :=
  openingScript m [read.name] ++ [resolver.request read]

variable {σ : Type}

/-- Requests were made one after another, with only notes taken and promotions built around them. -/
inductive Service.Consults (s : Service σ) (context : Context) (w : World σ) :
    List Consultation → World σ → Prop
  | nil : Consults s context w [] w
  | ask {cs r a u v} : Consults s context w cs u → s.Asked context r a u v →
      Consults s context w (cs ++ [⟨r, a⟩]) v
  | build {cs v} : Consults s context w cs v →
      Consults s context w cs { v with built := v.built + 1 }

/-- The first part of a script was done, and every answer accepted. Each request was a call, if it
goes to a collaborator. -/
structure Service.Consulted (s : Service σ) (context : Context) (m : Move) (read : Stage)
    (cs : List Consultation) (records : List CallRecord) (w v : World σ) : Prop where
  consults : s.Consults context w cs v
  accepted : ∀ c ∈ cs, c.verdict? m read = none
  read_eq : ∀ key stage, ⟨.stage key, .ok (some stage)⟩ ∈ cs → stage = read
  calls : v.calls = w.calls ++ records
  made : records.map CallRecord.request = (cs.map Consultation.request).filter s.delegates

/-- A script was followed until an answer was not accepted, or else to its end. -/
structure Service.Follows (s : Service σ) (context : Context) (m : Move) (read : Stage)
    (script : List Request) (cs : List Consultation) (records : List CallRecord)
    (w v : World σ) : Prop where
  consults : s.Consults context w cs v
  /-- The requests are those of the script, in its order. -/
  scripted : cs.map Consultation.request <+: script
  /-- Whatever was followed by another request was accepted. -/
  accepted : ∀ c ∈ cs.dropLast, c.verdict? m read = none
  /-- While everything is accepted the script goes on. -/
  complete : (∀ c ∈ cs, c.verdict? m read = none) → cs.map Consultation.request = script
  /-- The stage that the script goes on with is the one that was read. -/
  read_eq : ∀ key stage, ⟨.stage key, .ok (some stage)⟩ ∈ cs → stage = read
  calls : v.calls = w.calls ++ records
  /-- Each request that goes to a collaborator was a call, but for the last one if the context of
  that call had ended before. -/
  made : records.map CallRecord.request = (cs.map Consultation.request).filter s.delegates ∨
    records.map CallRecord.request =
        (cs.dropLast.map Consultation.request).filter s.delegates ∧
      ∃ c ∈ cs.getLast?, ∃ e : StoreError, c.answer = .error e ∧ e.EndsRequest

variable {s : Service σ} {context : Context} {m : Move} {read : Stage} {cs : List Consultation}
  {records : List CallRecord} {u v w : World σ}

/-- A request is a call if it goes to a collaborator, unless the call's context had ended. -/
theorem Service.Asked.calls {r : Request} {a : Except StoreError r.Answer}
    (h : s.Asked context r a w v) :
    ∃ records : List CallRecord, v.calls = w.calls ++ records ∧
      (records.map CallRecord.request = [r].filter s.delegates ∨
        records = [] ∧ ∃ e, a = .error e ∧ e.EndsRequest) := by
  obtain ⟨u, u', ⟨_, _, rfl⟩, hcall, ⟨_, _, rfl⟩⟩ := h
  have hmade {context : Context} {u u' : World σ} (h : s.Made context r u u') :
      ∃ records : List CallRecord, u'.calls = u.calls ++ records ∧
        records.map CallRecord.request = [r].filter s.delegates := by
    refine ⟨s.recordsOf context r u, h.calls, ?_⟩
    unfold Service.recordsOf
    by_cases hd : s.delegates r = true
    · rw [if_pos hd, List.filter_cons_of_pos hd]
      rfl
    · rw [if_neg hd, List.filter_cons_of_neg hd]
      rfl
  show ∃ records : List CallRecord, u'.calls = w.calls ++ records ∧ _
  rcases s.call_cases context r _ with ⟨e, he, h⟩ | ⟨w₁, hcalled, ⟨e, he, h, -⟩ | ⟨h, -⟩⟩
  · rw [hcall] at h
    cases h
    exact ⟨[], (List.append_nil _).symm, .inr ⟨rfl, e, rfl, he.endsRequest⟩⟩
  · rw [hcall] at h
    cases h
    obtain ⟨records, hcalls, hrequests⟩ := hmade hcalled
    exact ⟨records, hcalls, .inl hrequests⟩
  · rw [hcall] at h
    cases h
    obtain ⟨records, hcalls, hrequests⟩ := hmade hcalled
    exact ⟨records, hcalls, .inl hrequests⟩

/-! ## Following a script -/

theorem Service.Consulted.nil (s : Service σ) (context : Context) (m : Move) (read : Stage)
    (w : World σ) : s.Consulted context m read [] [] w w where
  consults := .nil
  accepted _ hc := absurd hc List.not_mem_nil
  read_eq _ _ h := absurd h List.not_mem_nil
  calls := (List.append_nil _).symm
  made := rfl

theorem Service.Consulted.build (h : s.Consulted context m read cs records w v) :
    s.Consulted context m read cs records w { v with built := v.built + 1 } where
  consults := .build h.consults
  accepted := h.accepted
  read_eq := h.read_eq
  calls := h.calls
  made := h.made

/-- One more request is accepted. -/
theorem Service.Consulted.ask {r : Request} {a : r.Answer}
    (h : s.Consulted context m read cs records w u) (hasked : s.Asked context r (.ok a) u v)
    (haccepted : r.objection? m read a = none)
    (hread : ∀ key stage, (⟨r, .ok a⟩ : Consultation) = ⟨.stage key, .ok (some stage)⟩ →
      stage = read) :
    ∃ records, s.Consulted context m read (cs ++ [⟨r, .ok a⟩]) records w v := by
  obtain ⟨new, hcalls, hmade | ⟨-, e, he, -⟩⟩ := hasked.calls
  · refine ⟨records ++ new, .ask h.consults hasked, ?_, ?_, ?_, ?_⟩
    · intro c hc
      rcases List.mem_append.1 hc with hc | hc
      · exact h.accepted c hc
      · obtain rfl := List.mem_singleton.1 hc
        exact haccepted
    · intro key stage hmem
      rcases List.mem_append.1 hmem with hmem | hmem
      · exact h.read_eq key stage hmem
      · exact hread key stage (List.mem_singleton.1 hmem).symm
    · rw [hcalls, h.calls, List.append_assoc]
    · rw [List.map_append, h.made, hmade, List.map_append, List.filter_append]
      rfl
  · cases he

/-- The last request ends the script, or its answer is not accepted. -/
theorem Service.Consulted.follows {r : Request} {a : Except StoreError r.Answer}
    {script : List Request} (h : s.Consulted context m read cs records w u)
    (hasked : s.Asked context r a u v)
    (hscript : cs.map Consultation.request ++ [r] <+: script)
    (hend : Consultation.verdict? m read ⟨r, a⟩ = none →
      cs.map Consultation.request ++ [r] = script)
    (hread : ∀ key stage, (⟨r, a⟩ : Consultation) = ⟨.stage key, .ok (some stage)⟩ →
      stage = read) :
    ∃ records, s.Follows context m read script (cs ++ [⟨r, a⟩]) records w v := by
  obtain ⟨new, hcalls, hmade⟩ := hasked.calls
  refine ⟨records ++ new, .ask h.consults hasked, ?_, ?_, ?_, ?_, ?_, ?_⟩
  · rw [List.map_append]
    exact hscript
  · rw [List.dropLast_concat]
    exact h.accepted
  · intro hall
    rw [List.map_append]
    exact hend (hall _ (List.mem_append_right _ (List.mem_singleton_self _)))
  · intro key stage hmem
    rcases List.mem_append.1 hmem with hmem | hmem
    · exact h.read_eq key stage hmem
    · exact hread key stage (List.mem_singleton.1 hmem).symm
  · rw [hcalls, h.calls, List.append_assoc]
  · rcases hmade with hmade | ⟨rfl, e, rfl, he⟩
    · left
      rw [List.map_append, h.made, hmade, List.map_append, List.filter_append]
      rfl
    · right
      rw [List.append_nil, List.dropLast_concat, List.getLast?_concat]
      exact ⟨h.made, _, rfl, e, rfl, he⟩

/-- The calls of a script that is followed are the first calls of the script. -/
theorem Service.Follows.calls_prefix {script : List Request}
    (h : s.Follows context m read script cs records w v) :
    records.map CallRecord.request <+: script.filter s.delegates := by
  have hwhole := h.scripted.filter s.delegates
  rcases h.made with hmade | ⟨hmade, -⟩
  · rw [hmade]
    exact hwhole
  · rw [hmade]
    exact (((List.dropLast_prefix cs).map _).filter _).trans hwhole

/-- The answer that decides is the last one. -/
theorem findSome?_verdict {c : Consultation}
    (h : ∀ c ∈ cs, c.verdict? m read = none) :
    (cs ++ [c]).findSome? (Consultation.verdict? m read) = c.verdict? m read := by
  rw [List.findSome?_append, List.findSome?_eq_none_iff.2 h, List.findSome?_singleton]
  rfl

/-- The last request of a script. -/
theorem Service.Consulted.completes {r : Request} {a : Except StoreError r.Answer}
    (h : s.Consulted context m read cs records w u) (hasked : s.Asked context r a u v)
    (hr : ∀ key, r ≠ .stage key) :
    ∃ cs' records', s.Follows context m read (cs.map Consultation.request ++ [r]) cs' records' w v ∧
      cs'.findSome? (Consultation.verdict? m read) = Consultation.verdict? m read ⟨r, a⟩ ∧
      cs'.getLast? = some ⟨r, a⟩ := by
  obtain ⟨records', hfollows⟩ := h.follows hasked (List.prefix_refl _) (fun _ => rfl)
    fun key _ heq => absurd (congrArg Consultation.request heq) (hr key)
  exact ⟨_, records', hfollows, findSome?_verdict h.accepted, List.getLast?_concat⟩

/-! ## The opening -/

theorem Service.Eligible.consulted {candidates : Stage → List String}
    (h : s.Eligible context m candidates (.ok read) w v) :
    m.flaw? = none ∧ ∃ cs records, s.Consulted context m read cs records w v ∧
      cs.map Consultation.request = openingScript m (candidates read) := by
  cases h with
  | @eligible _ freight _ _ _ _ hflaw h₁ h₂ h₃ =>
      obtain ⟨_, hvalidated⟩ := (Service.Consulted.nil s context m read w).ask h₁ rfl
        fun _ _ h => by cases h
      obtain ⟨_, hstage⟩ := hvalidated.ask h₂ rfl fun _ _ h => by cases h; rfl
      obtain ⟨_, hfreight⟩ := hstage.ask h₃ rfl fun _ _ h => by cases h
      exact ⟨hflaw, _, _, hfreight, rfl⟩

/-- The opening ends an operation for what was asked, or with the first answer that is not
accepted. -/
theorem Service.Eligible.follows {candidates : Stage → List String} {e : PromotionError}
    (h : s.Eligible context m candidates (.error e) w v) (rest : Stage → List Request) :
    m.flaw? = some e ∧ w.Noted v ∨ m.flaw? = none ∧ ∃ read cs records,
      s.Follows context m read (openingScript m (candidates read) ++ rest read) cs records w v ∧
      cs.findSome? (Consultation.verdict? m read) = some e := by
  -- The last answer decides, and the requests up to it are the first ones of the opening.
  have ends {read : Stage} {cs : List Consultation} {records : List CallRecord} {u : World σ}
      {r : Request} {a : Except StoreError r.Answer} (hflaw : m.flaw? = none)
      (h : s.Consulted context m read cs records w u) (hasked : s.Asked context r a u v)
      (hscript : cs.map Consultation.request ++ [r] <+: openingScript m (candidates read))
      (hverdict : Consultation.verdict? m read ⟨r, a⟩ = some e)
      (hread : ∀ key stage, (⟨r, a⟩ : Consultation) ≠ ⟨.stage key, .ok (some stage)⟩) :
      m.flaw? = some e ∧ w.Noted v ∨ m.flaw? = none ∧ ∃ read cs records,
        s.Follows context m read (openingScript m (candidates read) ++ rest read) cs records w v ∧
        cs.findSome? (Consultation.verdict? m read) = some e := by
    obtain ⟨records, hfollows⟩ := h.follows hasked
      (hscript.trans (List.prefix_append _ (rest read)))
      (fun hnone => by rw [hverdict] at hnone; cases hnone)
      (fun key stage heq => absurd heq (hread key stage))
    exact .inr ⟨hflaw, read, _, records, hfollows,
      (findSome?_verdict h.accepted).trans hverdict⟩
  have start (read : Stage) := Service.Consulted.nil s context m read w
  cases h with
  | flawed hflaw hnoted => exact .inl ⟨hflaw, hnoted⟩
  | notValidated hflaw h₁ =>
      exact ends hflaw (start (.named "" "")) h₁ (List.prefix_append _ _) rfl
        fun _ _ h => by cases h
  | refused hflaw h₁ =>
      exact ends hflaw (start (.named "" "")) h₁ (List.prefix_append _ _) rfl
        fun _ _ h => by cases h
  | notRead hflaw h₁ h₂ =>
      obtain ⟨_, hvalidated⟩ := (start (.named "" "")).ask h₁ rfl fun _ _ h => by cases h
      exact ends hflaw hvalidated h₂ (List.prefix_append _ _) rfl fun _ _ h => by cases h
  | noStage hflaw h₁ h₂ =>
      obtain ⟨_, hvalidated⟩ := (start (.named "" "")).ask h₁ rfl fun _ _ h => by cases h
      exact ends hflaw hvalidated h₂ (List.prefix_append _ _) rfl fun _ _ h => by cases h
  | @notGated stage _ _ _ _ _ hflaw h₁ h₂ h₃ =>
      obtain ⟨_, hvalidated⟩ := (start stage).ask h₁ rfl fun _ _ h => by cases h
      obtain ⟨_, hstage⟩ := hvalidated.ask h₂ rfl fun _ _ h => by cases h; rfl
      exact ends hflaw hstage h₃ (List.prefix_refl _) rfl fun _ _ h => by cases h
  | @noFreight stage _ _ _ _ hflaw h₁ h₂ h₃ =>
      obtain ⟨_, hvalidated⟩ := (start stage).ask h₁ rfl fun _ _ h => by cases h
      obtain ⟨_, hstage⟩ := hvalidated.ask h₂ rfl fun _ _ h => by cases h; rfl
      exact ends hflaw hstage h₃ (List.prefix_refl _) rfl fun _ _ h => by cases h

/-! ## The two operations -/

theorem Service.Promotes.follows {a : Except PromotionError Promotion}
    (h : s.Promotes context m a w v) :
    (∃ e, m.flaw? = some e ∧ a = .error e ∧ w.Noted v) ∨
    m.flaw? = none ∧ ∃ read cs records,
      s.Follows context m read
        (promotionScript m read (.build read m.freight (s.stamps w.built))) cs records w v ∧
      a = match cs.findSome? (Consultation.verdict? m read) with
        | some e => .error e
        | none => .ok (.build read m.freight (s.stamps w.built)) := by
  have hscript (read : Stage) : openingScript m (promotionCandidates read) =
      openingScript m (read.name :: read.sourceNames).eraseDups :=
    congrArg (openingScript m) (distinct_eq_eraseDups _)
  cases h with
  | rejected h =>
      rcases h.follows fun read => [.create (.build read m.freight (s.stamps w.built))] with
        ⟨hflaw, hnoted⟩ | ⟨hflaw, read, cs, records, hfollows, hverdict⟩
      · exact .inl ⟨_, hflaw, rfl, hnoted⟩
      · rw [hscript] at hfollows
        exact .inr ⟨hflaw, read, cs, records, hfollows, by rw [hverdict]⟩
  | @failed read e _ u _ h hasked =>
      obtain ⟨hflaw, cs, records, hconsulted, hrequests⟩ := h.consulted
      obtain ⟨cs', records, hfollows, hverdict, -⟩ :=
        hconsulted.build.completes hasked fun _ h => by cases h
      rw [hrequests, hscript] at hfollows
      rw [← h.built]
      exact .inr ⟨hflaw, read, cs', records, hfollows, by rw [hverdict]; rfl⟩
  | @created read _ u _ h hasked =>
      obtain ⟨hflaw, cs, records, hconsulted, hrequests⟩ := h.consulted
      obtain ⟨cs', records, hfollows, hverdict, -⟩ :=
        hconsulted.build.completes hasked fun _ h => by cases h
      rw [hrequests, hscript] at hfollows
      rw [← h.built]
      exact .inr ⟨hflaw, read, cs', records, hfollows, by rw [hverdict]; rfl⟩

theorem Resolver.verdict?_request (resolver : Resolver) (m : Move) (read : Stage)
    (a : (resolver.request read).Answer) :
    Consultation.verdict? m read ⟨resolver.request read, .ok a⟩ =
      if resolver.found read a = [] then some m.noSubscribers else none := by
  cases resolver <;> rfl

theorem Service.Resolves.follows {resolver : Resolver} {a : Except PromotionError (List Stage)}
    (h : s.Resolves context m resolver a w v) :
    (∃ e, m.flaw? = some e ∧ a = .error e ∧ w.Noted v) ∨
    m.flaw? = none ∧ ∃ read cs records,
      s.Follows context m read (cascadeScript m read resolver) cs records w v ∧
      match cs.findSome? (Consultation.verdict? m read) with
      | some e => a = .error e
      | none => ∃ found, cs.getLast? = some ⟨resolver.request read, .ok found⟩ ∧
          a = .ok (resolver.found read found) := by
  have hrequest (read : Stage) : ∀ key, resolver.request read ≠ .stage key := by
    cases resolver <;> simp [Resolver.request]
  cases h with
  | rejected h =>
      rcases h.follows fun read => [resolver.request read] with
        ⟨hflaw, hnoted⟩ | ⟨hflaw, read, cs, records, hfollows, hverdict⟩
      · exact .inl ⟨_, hflaw, rfl, hnoted⟩
      · exact .inr ⟨hflaw, read, cs, records, hfollows, by rw [hverdict]⟩
  | @unanswered read e _ u _ h hasked =>
      obtain ⟨hflaw, cs, records, hconsulted, hrequests⟩ := h.consulted
      obtain ⟨cs', records, hfollows, hverdict, -⟩ := hconsulted.completes hasked (hrequest read)
      rw [hrequests] at hfollows
      exact .inr ⟨hflaw, read, cs', records, hfollows, by rw [hverdict]; rfl⟩
  | @noSubscribers read a _ u _ h hasked hempty =>
      obtain ⟨hflaw, cs, records, hconsulted, hrequests⟩ := h.consulted
      obtain ⟨cs', records, hfollows, hverdict, -⟩ := hconsulted.completes hasked (hrequest read)
      rw [hrequests] at hfollows
      rw [resolver.verdict?_request, if_pos hempty] at hverdict
      exact .inr ⟨hflaw, read, cs', records, hfollows, by rw [hverdict]⟩
  | @resolved read a _ u _ h hasked hne =>
      obtain ⟨hflaw, cs, records, hconsulted, hrequests⟩ := h.consulted
      obtain ⟨cs', records, hfollows, hverdict, hlast⟩ :=
        hconsulted.completes hasked (hrequest read)
      rw [hrequests] at hfollows
      rw [resolver.verdict?_request, if_neg hne] at hverdict
      refine .inr ⟨hflaw, read, cs', records, hfollows, ?_⟩
      rw [hverdict]
      exact ⟨a, hlast, rfl⟩

/-- The first part of what is asked for that is empty. -/
def Move.emptyPart? (m : Move) : Option String :=
  if m.project = "" then some "project"
  else if m.stage = "" then some "stage"
  else if m.freight = "" then some "freight"
  else none

theorem Move.flaw?_eq (m : Move) :
    m.flaw? = m.emptyPart?.map fun part => .invalidArgument (part ++ " should not be empty") := by
  unfold Move.flaw? Move.emptyPart?
  simp only [String.isEmpty_iff]
  split
  · rfl
  · split
    · rfl
    · split <;> rfl

/-- **Calls follow scripts.** When a part of what is asked for is empty, no call is made. Otherwise
the calls of an operation are the first ones of its script, a call is made only when everything
before it was accepted, and what is not accepted decides the result. A cascade whose script is done
makes no other calls but its writes. -/
theorem Service.calls_follow_scripts {σ : Type} (s : Service σ) (context : Context) (m : Move)
    (w : World σ) :
    let promoted := (promoteStage m).run.run s context w
    let cascade := (promoteSubscribers s.resolver m).run s context w
    match m.emptyPart? with
    | some part =>
        (promoted.1 = .error (.invalidArgument (part ++ " should not be empty")) ∧
          promoted.2.calls = w.calls) ∧
        cascade.1 = .rejected (.invalidArgument (part ++ " should not be empty")) ∧
          cascade.2.calls = w.calls
    | none =>
        (∃ read cs records, let p := .build read m.freight (s.stamps w.built)
          s.Follows context m read (promotionScript m read p) cs records w promoted.2 ∧
          records.map CallRecord.request <+: (promotionScript m read p).filter s.delegates ∧
          promoted.1 = match cs.findSome? (Consultation.verdict? m read) with
            | some e => .error e
            | none => .ok p) ∧
        (∃ read cs records v, s.Follows context m read (cascadeScript m read s.resolver) cs records
            w v ∧
          records.map CallRecord.request <+:
            (cascadeScript m read s.resolver).filter s.delegates ∧
          match cs.findSome? (Consultation.verdict? m read) with
          | some e => cascade = (.rejected e, v)
          | none => ∃ found outcomes, cs.getLast? = some ⟨s.resolver.request read, .ok found⟩ ∧
              s.Accounted context (s.resolver.found read found) m.freight v outcomes cascade.1
                cascade.2 ∧
              ∃ creates : List CallRecord, cascade.2.calls = w.calls ++ records ++ creates ∧
                ∀ c ∈ creates, ∃ p, c.request = .create p) := by
  intro promoted cascade
  obtain ⟨a, v, hpromoted, hpromotes⟩ := s.promoteStage_cases context m w
  obtain ⟨b, w', hresolution, hresolves⟩ := s.resolution_cases context s.resolver m w
  have hpromoted : promoted = (a, v) := hpromoted
  have hcascade := s.promoteSubscribers_accounted context m w
  rw [hresolution] at hcascade
  rw [hpromoted]
  have hflaw := m.flaw?_eq
  cases hpart : m.emptyPart? with
  | some part =>
      rw [hpart, Option.map_some] at hflaw
      refine ⟨?_, ?_⟩
      · rcases hpromotes.follows with ⟨e, he, rfl, _, _, rfl⟩ | ⟨hnone, -⟩
        · rw [hflaw] at he
          cases he
          exact ⟨rfl, rfl⟩
        · rw [hflaw] at hnone
          cases hnone
      · rcases hresolves.follows with ⟨e, he, rfl, _, _, rfl⟩ | ⟨hnone, -⟩
        · rw [hflaw] at he
          cases he
          have hcascade : cascade = _ := hcascade
          rw [hcascade]
          exact ⟨rfl, rfl⟩
        · rw [hflaw] at hnone
          cases hnone
  | none =>
      rw [hpart, Option.map_none] at hflaw
      refine ⟨?_, ?_⟩
      · rcases hpromotes.follows with ⟨e, he, -⟩ | ⟨-, read, cs, records, hfollows, ha⟩
        · rw [hflaw] at he
          cases he
        · exact ⟨read, cs, records, hfollows, hfollows.calls_prefix, ha⟩
      · rcases hresolves.follows with ⟨e, he, -⟩ | ⟨-, read, cs, records, hfollows, hb⟩
        · rw [hflaw] at he
          cases he
        · refine ⟨read, cs, records, w', hfollows, hfollows.calls_prefix, ?_⟩
          cases hverdict : cs.findSome? (Consultation.verdict? m read) with
          | some e =>
              rw [hverdict] at hb
              subst hb
              exact hcascade
          | none =>
              rw [hverdict] at hb
              obtain ⟨found, hlast, rfl⟩ := hb
              obtain ⟨-, outcomes, result, x, hrun, haccounted⟩ := hcascade
              have hrun : cascade = (result, x) := hrun
              rw [hrun]
              refine ⟨found, outcomes, hlast, haccounted, ?_⟩
              obtain ⟨creates, hcreates, hsub, -, -⟩ := haccounted.calls
              refine ⟨creates, ?_, ?_⟩
              · rw [hcreates, hfollows.calls]
              · intro c hc
                obtain ⟨p, -, hp⟩ := List.mem_map.1 (hsub.subset (List.mem_map_of_mem hc))
                exact ⟨p, hp.symm⟩

end Delivery
