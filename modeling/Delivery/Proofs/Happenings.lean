import Delivery.Proofs.Calls

/-!
# What happens meanwhile

While a request waits, somebody may cancel a token, time may pass, and anything else in the world
may change: these are its `Happening`s, and a world undergoes any list of them. Only the first
cancellation of a token is kept, whether it came before or is among them (`World.firstReason?`,
`World.reason?_undergo`). Waiting on the clock of a world is undergoing something
(`World.exists_undergo_elapse`).
-/

namespace Delivery

variable {σ : Type}

/-- Something that happens in the world: a token is cancelled, time passes, or anything changes that
is neither a token nor the clock. -/
inductive Happening (σ : Type) where
  | cancel (token : TokenId) (reason : String)
  | pass (d : Duration)
  | other (change : World σ → World σ)

namespace Happening

/-- The reason with which a token is cancelled, if it is. -/
def reason? (token : TokenId) : Happening σ → Option String
  | cancel t reason => if t = token then some reason else none
  | pass _ | other _ => none

end Happening

namespace World

/-- The world after something happened. -/
def happen (w : World σ) : Happening σ → World σ
  | .cancel token reason => w.cancel token reason
  | .pass d => { w with now := w.now + d }
  | .other change => { change w with now := w.now, tokens := w.tokens }

/-- The world after one thing after another. -/
def undergo (w : World σ) (hs : List (Happening σ)) : World σ := hs.foldl happen w

@[simp] theorem undergo_nil (w : World σ) : w.undergo [] = w := rfl

@[simp] theorem undergo_cons (w : World σ) (h : Happening σ) (hs : List (Happening σ)) :
    w.undergo (h :: hs) = (w.happen h).undergo hs := rfl

theorem undergo_append (w : World σ) (hs hs' : List (Happening σ)) :
    w.undergo (hs ++ hs') = (w.undergo hs).undergo hs' := List.foldl_append

/-- The reason with which a token was cancelled first: before, or else by what happened. -/
def firstReason? (w : World σ) (token : TokenId) (hs : List (Happening σ)) : Option String :=
  (w.tokens.state token).reason?.or (hs.filterMap (Happening.reason? token)).head?

@[simp] theorem firstReason?_nil (w : World σ) (token : TokenId) :
    w.firstReason? token [] = (w.tokens.state token).reason? := by
  simp [firstReason?]

/-- What happens to a token: at most a cancellation with a reason. -/
theorem state_happen (w : World σ) (token : TokenId) (h : Happening σ) :
    (w.happen h).tokens.state token =
      (h.reason? token).elim (w.tokens.state token) (w.tokens.state token).cancel := by
  cases h with
  | cancel t reason =>
      show (w.tokens.cancel t reason).state token = _
      rw [Tokens.state_cancel]
      by_cases ht : t = token
      · subst ht
        rw [if_pos rfl, Happening.reason?, if_pos rfl]
        rfl
      · rw [if_neg (Ne.symm ht), Happening.reason?, if_neg ht]
        rfl
  | pass d => rfl
  | other change => rfl

theorem firstReason?_cons (w : World σ) (token : TokenId) (h : Happening σ)
    (hs : List (Happening σ)) :
    w.firstReason? token (h :: hs) = (w.happen h).firstReason? token hs := by
  unfold firstReason?
  rw [state_happen, List.filterMap_cons]
  cases h.reason? token with
  | none => rfl
  | some reason => cases w.tokens.state token <;> rfl

/-- **A token tells the first reason, whatever happens.** -/
theorem reason?_undergo (w : World σ) (token : TokenId) (hs : List (Happening σ)) :
    ((w.undergo hs).tokens.state token).reason? = w.firstReason? token hs := by
  induction hs generalizing w with
  | nil => exact (firstReason?_nil w token).symm
  | cons h rest ih => rw [undergo_cons, ih, firstReason?_cons]

/-- No later cancellation changes the first reason. -/
theorem firstReason?_append {w : World σ} {token : TokenId} {hs : List (Happening σ)}
    {reason : String} (h : w.firstReason? token hs = some reason) (hs' : List (Happening σ)) :
    w.firstReason? token (hs ++ hs') = some reason := by
  unfold firstReason? at h ⊢
  rw [List.filterMap_append, List.head?_append, ← Option.or_assoc, h]
  rfl

/-! ## Waiting -/

theorem undergo_cancellations (w : World σ) (cs : List Cancellation) :
    w.undergo (cs.map fun c => .cancel c.token c.reason) =
      { w with tokens := cs.foldl (fun ts c => ts.cancel c.token c.reason) w.tokens } := by
  induction cs generalizing w with
  | nil => rfl
  | cons c rest ih => exact ih (w.cancel c.token c.reason)

/-- The clock moves on, the cancellations planned up to a tick come, and are planned no more. -/
theorem undergo_planned (w : World σ) (d : Duration) (tick : Nat) :
    w.undergo (.pass d :: (((w.agenda.due tick).map fun c => .cancel c.token c.reason) ++
        [.other fun v => { v with agenda := w.agenda.after tick }])) =
      { w with
        now := w.now + d
        tokens := (w.agenda.due tick).foldl (fun ts c => ts.cancel c.token c.reason) w.tokens
        agenda := w.agenda.after tick } := by
  rw [undergo_cons, undergo_append, undergo_cancellations]
  rfl

theorem exists_undergo_reach (w : World σ) (tick : Nat) : ∃ hs, w.reach tick = w.undergo hs := by
  obtain ⟨d, hd⟩ : ∃ d, w.now.moveTo tick = w.now + d := ⟨_, rfl⟩
  refine ⟨_, Eq.trans ?_ (w.undergo_planned d (w.now.moveTo tick).ticks).symm⟩
  rw [← hd, reach]

theorem exists_undergo_elapse (w : World σ) (timers : List Instant) :
    ∃ hs, w.elapse timers = w.undergo hs := by
  unfold elapse
  cases w.nextTick? timers with
  | some tick => exact w.exists_undergo_reach tick
  | none => exact ⟨[], rfl⟩

end World

end Delivery
