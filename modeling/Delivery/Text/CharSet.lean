/-!
# Sets of characters

A set of characters as a list of code-point ranges, the form in which character properties are
tabulated.
-/

namespace Delivery.Text

/-- A set of characters, as ranges of code points with both ends included. -/
structure CharSet where
  /-- The ranges, in increasing order. -/
  ranges : List (Nat × Nat)

/-- True when the character lies in one of the ranges. -/
def CharSet.contains (s : CharSet) (c : Char) : Bool :=
  s.ranges.any fun r => r.1 ≤ c.toNat && c.toNat ≤ r.2

/-- White space: the characters between words and lines, of any script. -/
def blank : CharSet := ⟨[
  (0x09, 0x0D), (0x20, 0x20), (0x85, 0x85), (0xA0, 0xA0), (0x1680, 0x1680), (0x2000, 0x200A),
  (0x2028, 0x2029), (0x202F, 0x202F), (0x205F, 0x205F), (0x3000, 0x3000)]⟩

/-- The text after its leading white space. -/
def dropBlank (s : List Char) : List Char := s.dropWhile blank.contains

example (c : Char) (h : c.isWhitespace) : blank.contains c := by
  simp only [Char.isWhitespace, Bool.or_eq_true, decide_eq_true_eq] at h
  rcases h with ((h | h) | h) | h <;> subst h <;> decide

end Delivery.Text
