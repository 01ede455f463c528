import Delivery.Duration

/-!
# Agendas

What is to happen at which tick of the clock, in order: earlier ticks first, and of one tick in the
order of entry.
-/

namespace Delivery

/-- The instant to which the clock moves for a tick: forward by whole milliseconds, or not at all
when the tick has passed. -/
def Instant.moveTo (now : Instant) (tick : Nat) : Instant :=
  now + (tick - now.ticks) * Duration.millisecond

/-- Things to do at ticks. -/
structure Agenda (α : Type) where
  items : List (Nat × α) := []

namespace Agenda

variable {α : Type}

/-- Puts an item after those of its tick. -/
def place (tick : Nat) (a : α) : List (Nat × α) → List (Nat × α)
  | [] => [(tick, a)]
  | x :: rest => if x.1 ≤ tick then x :: place tick a rest else (tick, a) :: x :: rest

/-- Adds an item. -/
def add (g : Agenda α) (tick : Nat) (a : α) : Agenda α := ⟨place tick a g.items⟩

/-- The first tick at which something is to happen. -/
def next? (g : Agenda α) : Option Nat := g.items.head?.map Prod.fst

/-- What is to happen up to a tick. -/
def due (g : Agenda α) (tick : Nat) : List α :=
  (g.items.takeWhile (·.1 ≤ tick)).map Prod.snd

/-- What remains after a tick. -/
def after (g : Agenda α) (tick : Nat) : Agenda α := ⟨g.items.dropWhile (·.1 ≤ tick)⟩

/-- How many items there are. -/
def size (g : Agenda α) : Nat := g.items.length

theorem size_after_le (g : Agenda α) (tick : Nat) : (g.after tick).size ≤ g.size :=
  (List.dropWhile_suffix _).length_le

/-- An agenda that reaches its next tick gets shorter. -/
theorem size_after_lt {g : Agenda α} {first tick : Nat} (h : g.next? = some first)
    (hle : first ≤ tick) : (g.after tick).size < g.size := by
  obtain ⟨items⟩ := g
  cases items with
  | nil => simp [next?] at h
  | cons x rest =>
    have hx : x.1 = first := by simpa [next?] using h
    have : (List.dropWhile (fun y : Nat × α => decide (y.1 ≤ tick)) rest).length ≤ rest.length :=
      (List.dropWhile_suffix _).length_le
    simp only [after, size, List.length_cons]
    rw [List.dropWhile_cons_of_pos (by simpa [hx] using hle)]
    omega

end Agenda

end Delivery
