/-!
# Double-precision numbers

A finite double-precision number is a whole multiple of 2⁻¹⁰⁷⁴, the smallest positive one. It is
kept as that multiple and a sign, so the number denoted is exact and two numbers are the same
value exactly when their multiples agree; only the sign of zero is told apart on top of that.
Every operation forms its exact rational result and rounds it once (`ofRatio`): to 53 significant
bits, a tie to the even neighbour, and to an infinity from 2¹⁰²⁴ on.
-/

namespace Delivery

/-- A double-precision number. -/
inductive Double where
  /-- Not a number. -/
  | nan
  /-- Beyond every finite number. -/
  | infinite (negative : Bool)
  /-- `units` times 2⁻¹⁰⁷⁴, with a sign that zero has too. -/
  | finite (negative : Bool) (units : Nat)
  deriving DecidableEq, Inhabited

namespace Double

/-- `unitsPerOne` units make one: 2¹⁰⁷⁴. -/
def unitsPerOne : Nat := Nat.pow 2 1074

/-- The first count of units that is too large for a finite number: 2¹⁰²⁴. -/
def overflow : Nat := Nat.pow 2 2098

/-- The quotient `a / b` rounded to the nearest whole number, a tie to the even one. -/
def roundHalfEven (a b : Nat) : Nat :=
  let q := a / b
  let r := a % b
  if 2 * r < b then q
  else if b < 2 * r then q + 1
  else if q % 2 = 0 then q else q + 1

/-- How many low bits of a count of units fall below its 53 significant ones. -/
def spareBits (units : Nat) : Nat := units.log2 - 52

/-- The number nearest to `num / den`. -/
def ofRatio (negative : Bool) (num den : Nat) : Double :=
  let scaled := num * unitsPerOne
  let spare := spareBits (scaled / den)
  let units := roundHalfEven scaled (den * Nat.pow 2 spare) * Nat.pow 2 spare
  if units < overflow then .finite negative units else .infinite negative

/-- The number nearest to a natural number. -/
def ofNat (n : Nat) : Double := ofRatio false n 1

/-- The number nearest to an integer. -/
def ofInt (n : Int) : Double := ofRatio (n < 0) n.natAbs 1

/-- The zero without a sign. -/
def zero : Double := .finite false 0

/-- The number with the opposite sign. -/
def neg : Double → Double
  | nan => nan
  | infinite s => infinite (!s)
  | finite s u => finite (!s) u

/-- The sum of two numbers that are not negative. -/
def addMagnitudes : Double → Double → Double
  | finite _ a, finite _ b => ofRatio false (a + b) unitsPerOne
  | nan, _ | _, nan => nan
  | _, _ => infinite false

/-- The product of two finite numbers, without their signs. -/
def mulMagnitudes : Double → Double → Double
  | finite _ a, finite _ b => ofRatio false (a * b) (unitsPerOne * unitsPerOne)
  | nan, _ | _, nan => nan
  | _, _ => infinite false

/-- The quotient of a finite number by one that is finite and not zero, without their signs. -/
def divMagnitudes : Double → Double → Double
  | finite _ a, finite _ b => ofRatio false a b
  | nan, _ | _, nan => nan
  | _, _ => infinite false

/-- True for the two infinities. -/
def isInfinite : Double → Bool
  | infinite _ => true
  | _ => false

/-- The exact value of a finite number, as a quotient. -/
def ratio? : Double → Option (Int × Nat)
  | finite s u => some (if s then -(u : Int) else u, unitsPerOne)
  | _ => none

end Double

end Delivery
