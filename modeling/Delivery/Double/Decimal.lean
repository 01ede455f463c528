import Delivery.Double.Basic
import Delivery.Text.Digits

/-!
# Decimals read as doubles

Two rules turn a decimal into a double. `ofDecimal` takes the nearest one. `ofScaled`, the rule of
JSON numbers, rounds the digits first and then scales by a rounded power of ten, so a long decimal
may come out one unit away from the nearest double.
-/

namespace Delivery.Double

open Text (takeSign takeDigits digitsValue)

/-- The double nearest to `digits · 10 ^ exponent`. -/
def ofDecimal (negative : Bool) (digits : Nat) (exponent : Int) : Double :=
  match exponent with
  | .ofNat e => ofRatio negative (digits * Nat.pow 10 e) 1
  | .negSucc e => ofRatio negative digits (Nat.pow 10 (e + 1))

/-- The double nearest to a power of ten. -/
def powerOfTen (e : Nat) : Double := ofRatio false (Nat.pow 10 e) 1

/-- The largest power of ten that is a finite double has this exponent. -/
def largestPower : Nat := 308

/-- Scales a double down by a power of ten, in steps that are finite doubles; a zero stays. -/
def scaleDown (d : Double) (e : Nat) : Double :=
  if e ≤ largestPower then divMagnitudes d (powerOfTen e)
  else if d = zero then d
  else scaleDown (divMagnitudes d (powerOfTen largestPower)) (e - largestPower)
termination_by e
decreasing_by simp only [largestPower] at *; omega

/-- The double of the digits scaled by ten to the exponent, each step rounded; none when it is
out of range. -/
def ofScaled (negative : Bool) (digits : Nat) (exponent : Int) : Option Double :=
  let d := ofNat digits
  let scaled : Option Double := match exponent with
    | .ofNat e =>
      if e ≤ largestPower then
        let product := mulMagnitudes d (powerOfTen e)
        if product.isInfinite then none else some product
      else if d = zero then some d
      else none
    | .negSucc e => some (scaleDown d (e + 1))
  scaled.map fun d => if negative then d.neg else d

/-- The double that a text denotes: a sign, then digits with an optional point and exponent, or
`inf`, `infinity` or `nan` in any case. -/
def ofText? (s : String) : Option Double :=
  let (negative, body) := takeSign s.toList
  let word := String.ofList (body.map Char.toLower)
  if word = "nan" then some nan
  else if word = "inf" || word = "infinity" then some (infinite negative)
  else
    let (whole, afterWhole) := takeDigits body
    let (fraction, afterFraction) := match afterWhole with
      | '.' :: r => takeDigits r
      | r => ([], r)
    if whole.isEmpty && fraction.isEmpty then none
    else
      let exponent : Option Int := match afterFraction with
        | [] => some 0
        | c :: r =>
          if c = 'e' || c = 'E' then
            let (negativeExponent, ds) := takeSign r
            if ds.isEmpty || !ds.all Char.isDigit then none
            else some (if negativeExponent then -Int.ofNat (digitsValue ds) else digitsValue ds)
          else none
      exponent.map fun e =>
        let digits := digitsValue (whole ++ fraction)
        let e : Int := e - fraction.length
        let width : Int := whole.length + fraction.length
        -- Far outside the range the answer is known without forming the power of ten.
        if digits = 0 || e + width < -330 then .finite negative 0
        else if 310 < e then .infinite negative
        else ofDecimal negative digits e

end Delivery.Double
