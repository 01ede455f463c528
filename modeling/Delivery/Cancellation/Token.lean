import Delivery.Text.Quoted

/-!
# Cancellation tokens

A token is shared by everyone who works on a request. Cancelling is idempotent: the first reason
is kept. Tokens are known by number; `Tokens` holds the state of each, and a token nobody has
cancelled is live.
-/

namespace Delivery

/-- The state of a token. -/
inductive Token where
  | live
  | cancelled (reason : String)
  deriving DecidableEq, Inhabited

namespace Token

/-- Cancels, unless that happened before. -/
def cancel (t : Token) (reason : String) : Token :=
  match t with
  | live => cancelled reason
  | cancelled first => cancelled first

/-- True once the token has been cancelled. -/
def isCancelled : Token → Bool
  | live => false
  | cancelled _ => true

/-- The reason of the first cancellation. -/
def reason? : Token → Option String
  | live => none
  | cancelled reason => some reason

/-- The description of a token. -/
def describe (t : Token) : String :=
  "CancellationToken \x7b cancelled: " ++ (if t.isCancelled then "true" else "false") ++
    ", reason: " ++
    (match t.reason? with
      | none => "None"
      | some reason => "Some(" ++ Text.quote reason ++ ")") ++ " \x7d"

@[simp] theorem cancel_live (r : String) : live.cancel r = cancelled r := rfl

@[simp] theorem cancel_cancelled (r s : String) : (cancelled r).cancel s = cancelled r := rfl

theorem isCancelled_iff {t : Token} : t.isCancelled = true ↔ t.reason?.isSome = true := by
  cases t <;> simp [isCancelled, reason?]

end Token

/-- The number that a token is known by. -/
abbrev TokenId := Nat

/-- The states of all tokens. -/
structure Tokens where
  states : List Token := []
  deriving DecidableEq

namespace Tokens

/-- The state of a token. -/
def state (ts : Tokens) (id : TokenId) : Token := ts.states.getD id .live

/-- The states with the one at a place replaced, live ones filled in before it. -/
def replace : List Token → Nat → Token → List Token
  | [], 0, t => [t]
  | [], n + 1, t => .live :: replace [] n t
  | _ :: rest, 0, t => t :: rest
  | s :: rest, n + 1, t => s :: replace rest n t

/-- Cancels a token. -/
def cancel (ts : Tokens) (id : TokenId) (reason : String) : Tokens :=
  ⟨replace ts.states id ((ts.state id).cancel reason)⟩

theorem getD_replace (l : List Token) (n m : Nat) (t : Token) :
    (replace l n t).getD m .live = if m = n then t else l.getD m .live := by
  induction n generalizing l m with
  | zero => cases l <;> cases m <;> simp [replace]
  | succ n ih =>
    cases l with
    | nil => cases m with
      | zero => simp [replace]
      | succ m => simpa [replace] using ih [] m
    | cons s rest => cases m with
      | zero => simp [replace]
      | succ m => simpa [replace] using ih rest m

/-- Cancelling changes the one token and no other. -/
theorem state_cancel (ts : Tokens) (id other : TokenId) (reason : String) :
    (ts.cancel id reason).state other =
      if other = id then (ts.state id).cancel reason else ts.state other :=
  getD_replace ts.states id other _

end Tokens

end Delivery
