import Delivery.Double.Basic

/-!
# The shortest text of a double

`shortest` finds the fewest decimal digits that read back as a given number, and of those the
digits nearest to it; when two are equally near, a `Tie` decides. A `Layout` then says how digits
become text: which way ties go, when positional notation ends, whether a whole number keeps a
point, and how the rest is spelled. Three layouts are used: `plain` in messages, `debug` in
descriptions of values, `json` in JSON texts.
-/

namespace Delivery.Double

/-- A positive decimal: `digits · 10 ^ exponent`. -/
structure Decimal where
  digits : Nat
  exponent : Int
  deriving DecidableEq

/-- The reals that round to a number of `units`: all between two bounds, given in quarters of a
unit; the bounds themselves count when the significand is even. Below a power of two the
neighbours are half as far apart. -/
structure Catchment where
  low : Nat
  high : Nat
  closed : Bool

/-- The reals that round to a positive count of units. -/
def catchment (units : Nat) : Catchment :=
  let spare := spareBits units
  let step := Nat.pow 2 spare
  -- Below a power of two the doubles lie twice as close.
  let below := if 0 < spare && units = Nat.pow 2 (spare + 52) then step else 2 * step
  { low := 4 * units - below
    high := 4 * units + 2 * step
    closed := units / step % 2 = 0 }

/-- Quarters of a unit in one. -/
def quartersPerOne : Nat := 4 * unitsPerOne

/-- True when `digits · 10 ^ exponent` rounds to the number that the bounds belong to. -/
def Catchment.holds (c : Catchment) (d : Decimal) : Bool :=
  -- Both sides multiplied by a power of ten that makes the exponent whole.
  let (value, factor) := match d.exponent with
    | .ofNat e => (d.digits * Nat.pow 10 e * quartersPerOne, 1)
    | .negSucc e => (d.digits * quartersPerOne, Nat.pow 10 (e + 1))
  if c.closed then c.low * factor ≤ value && value ≤ c.high * factor
  else c.low * factor < value && value < c.high * factor

/-- The count of units divided by `10 ^ exponent`, as a numerator and a denominator. -/
def overPower (units : Nat) : Int → Nat × Nat
  | .ofNat e => (units, unitsPerOne * Nat.pow 10 e)
  | .negSucc e => (units * Nat.pow 10 (e + 1), unitsPerOne)

/-- The exponent of the leading decimal digit of a positive count of units. -/
def leadingExponent (units : Nat) : Int :=
  -- Every positive number is at least 10⁻³³⁰.
  Int.ofNat (Nat.toDigits 10 (units * Nat.pow 10 330 / unitsPerOne)).length - 331

/-- Which of two equally near decimals is taken. -/
inductive Tie where
  /-- The one farther from zero. -/
  | up
  /-- The one with the even last digit. -/
  | toEven
  deriving DecidableEq

/-- True when `num / den` is nearer to its floor than to the next whole number. -/
def Tie.goesDown (tie : Tie) (num den : Nat) : Bool :=
  match compare (2 * (num % den)) den, tie with
  | .lt, _ => true
  | .gt, _ => false
  | .eq, .up => false
  | .eq, .toEven => num / den % 2 = 0

/-- On the grid of `10 ^ exponent`, the point nearest to a count of units among those that read
back as it, if any does. -/
def onGrid (tie : Tie) (units : Nat) (exponent : Int) : Option Decimal :=
  let c := catchment units
  let (num, den) := overPower units exponent
  let below : Decimal := ⟨num / den, exponent⟩
  let above : Decimal := ⟨num / den + 1, exponent⟩
  match c.holds below, c.holds above with
  | true, true => some (if tie.goesDown num den then below else above)
  | true, false => some below
  | false, true => some above
  | false, false => none

/-- The fewest digits that read back as a positive count of units, nearest to it. Seventeen
always suffice. The search starts one grid above the leading digit, where only the next power of
ten can be a hit; so the digits found never end in a zero. -/
def shortest (tie : Tie) (units : Nat) : Decimal :=
  let e := leadingExponent units
  ((List.range 18).findSome? fun n : Nat => onGrid tie units (e + 1 - n)).getD ⟨0, 0⟩

/-- How the digits of a number are laid out. -/
structure Layout where
  tie : Tie
  /-- Leading exponents below this one are written with an exponent; none: never. -/
  least : Option Int
  /-- Leading exponents from this one on are written with an exponent; none: never. -/
  most : Option Int
  /-- Whether a whole number ends in a point and a zero. -/
  point : Bool
  /-- Whether a positive exponent has a sign. -/
  plus : Bool

/-- Numbers in messages: always positional, a whole number without a point. -/
def plain : Layout := ⟨.up, none, none, false, false⟩

/-- Numbers in descriptions of values: a point or an exponent in each. -/
def debug : Layout := ⟨.up, some (-4), some 16, true, false⟩

/-- Numbers in JSON texts. -/
def json : Layout := ⟨.toEven, some (-5), some 16, true, true⟩

/-- The text of a positive decimal. -/
def Layout.decimal (l : Layout) (d : Decimal) : List Char :=
  let digits := Nat.toDigits 10 d.digits
  -- The exponent of the leading digit.
  let lead : Int := d.exponent + digits.length - 1
  let exponential := l.least.any (lead < ·) || l.most.any (· ≤ lead)
  if exponential then
    let significand := match digits with
      | [] => []
      | c :: [] => [c]
      | c :: rest => c :: '.' :: rest
    let sign := if lead < 0 then ['-'] else if l.plus then ['+'] else []
    significand ++ 'e' :: sign ++ Nat.toDigits 10 lead.natAbs
  else if lead < 0 then
    '0' :: '.' :: List.replicate (lead.natAbs - 1) '0' ++ digits
  else
    let whole := lead.toNat + 1
    let padded := digits ++ List.replicate (whole - digits.length) '0'
    match padded.drop whole with
    | [] => padded ++ (if l.point then ['.', '0'] else [])
    | fraction => padded.take whole ++ '.' :: fraction

/-- The text of a number. -/
def Layout.text (l : Layout) : Double → String
  | nan => "NaN"
  | infinite negative => if negative then "-inf" else "inf"
  | finite negative units =>
    let magnitude :=
      if units = 0 then '0' :: (if l.point then ['.', '0'] else [])
      else l.decimal (shortest l.tie units)
    String.ofList (if negative then '-' :: magnitude else magnitude)

example : plain.text (ofRatio false 1 10) = "0.1" := by decide +kernel
example : json.text (ofRatio false (Nat.pow 10 23) 1) = "1e+23" := by decide +kernel
example : debug.text (ofRatio true 5 100000) = "-5e-5" := by decide +kernel
example : shortest .up 1 = ⟨5, -324⟩ := by decide +kernel
example : debug.text (ofRatio false 1 (Nat.pow 2 25)) = "2.9802322387695313e-8" := by decide +kernel
example : json.text (ofRatio false 1 (Nat.pow 2 25)) = "2.9802322387695312e-8" := by decide +kernel

end Delivery.Double
