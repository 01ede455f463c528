import Delivery.Double.Basic
import Mathlib.Algebra.Order.Field.Basic
import Mathlib.Data.Nat.Cast.Order.Field
import Mathlib.Data.Rat.Cast.Order
import Mathlib.Tactic.Linarith
import Mathlib.Tactic.Ring

/-!
# How far rounding goes

The values of doubles are rational numbers (`Double.value?`). A quotient is rounded to the whole
number nearest to it (`Double.nearest_roundHalfEven`), and to a double that is off by hardly more
than one part in 2⁵³ (`Double.ofRatio_close`).
-/

namespace Delivery.Double

/-- The exact value of a count of units. -/
def ofUnits (units : ℕ) : ℚ := units / unitsPerOne

/-- The exact value of a finite number. -/
def value? (d : Double) : Option ℚ := d.ratio?.map fun r => r.1 / r.2

/-- A whole number is nearest to a rational one; where two are equally near, it is the even one. -/
structure Nearest (n : ℕ) (x : ℚ) : Prop where
  near : |(n : ℚ) - x| ≤ 1 / 2
  even : |(n : ℚ) - x| = 1 / 2 → n % 2 = 0

/-! ## Nearest whole numbers -/

namespace Nearest

variable {n m : ℕ} {x : ℚ}

theorem le (h : Nearest n x) (hx : x ≤ m) : n ≤ m := by
  by_contra hlt
  have hle : (m : ℚ) + 1 ≤ n := by exact_mod_cast Nat.lt_of_not_le hlt
  have hnear := (abs_le.1 h.near).2
  linarith

/-- Up to a half, a number is rounded to nothing. -/
theorem pos_iff (h : Nearest n x) : 0 < n ↔ 1 / 2 < x := by
  constructor
  · intro hpos
    by_contra hx
    have hone : (1 : ℚ) ≤ n := by exact_mod_cast hpos
    have hnear := (abs_le.1 h.near).2
    -- The only way up is from a half, and this goes to the even neighbour.
    have hhalf : (n : ℚ) - x = 1 / 2 := le_antisymm hnear (by linarith)
    have heven : n % 2 = 0 := h.even (by rw [hhalf, abs_of_pos (by norm_num)])
    have htwo : (2 : ℚ) ≤ n := by exact_mod_cast (by omega : 2 ≤ n)
    linarith
  · intro hx
    rw [Nat.pos_iff_ne_zero]
    rintro rfl
    have hnear := (abs_le.1 h.near).1
    push_cast at hnear
    linarith

/-- Nothing else is nearer than a half. -/
theorem eq_of_close (h : Nearest n x) (hm : |(m : ℚ) - x| < 1 / 2) : n = m := by
  have hnear := abs_le.1 h.near
  have hclose := abs_lt.1 hm
  have hlt : (n : ℚ) < m + 1 := by linarith
  have hgt : (m : ℚ) < n + 1 := by linarith
  have hlt' : n < m + 1 := by exact_mod_cast hlt
  have hgt' : m < n + 1 := by exact_mod_cast hgt
  omega

end Nearest

theorem div_eq_whole_add_rest (a : ℕ) {b : ℕ} (hb : 0 < b) :
    (a : ℚ) / b = (a / b : ℕ) + (a % b : ℕ) / b := by
  have hbne : (b : ℚ) ≠ 0 := by exact_mod_cast hb.ne'
  rw [div_eq_iff hbne, add_mul, div_mul_cancel₀ _ hbne]
  exact_mod_cast (Nat.div_add_mod' a b).symm

theorem nearest_roundHalfEven (a : ℕ) {b : ℕ} (hb : 0 < b) :
    Nearest (roundHalfEven a b) (a / b) := by
  have hbpos : (0 : ℚ) < b := by exact_mod_cast hb
  have hpart : ((a % b : ℕ) : ℚ) / b < 1 := by
    rw [div_lt_one hbpos]
    exact_mod_cast Nat.mod_lt a hb
  have hnext : ((a / b + 1 : ℕ) : ℚ) = (a / b : ℕ) + 1 := Nat.cast_succ _
  rw [div_eq_whole_add_rest a hb, roundHalfEven]
  -- The remainder lies below a half, above it, or is one half exactly.
  rcases lt_trichotomy (2 * (a % b)) b with hlt | heq | hgt
  · have hpos : (0 : ℚ) ≤ (a % b : ℕ) / b := by positivity
    have hbelow : ((a % b : ℕ) : ℚ) / b < 1 / 2 := by
      rw [div_lt_iff₀ hbpos]
      have : ((2 * (a % b) : ℕ) : ℚ) < b := by exact_mod_cast hlt
      push_cast at this
      linarith
    rw [if_pos hlt]
    refine ⟨abs_le.2 ⟨by linarith, by linarith⟩, fun htie => ?_⟩
    rw [abs_of_nonpos (by linarith)] at htie
    linarith
  · have hhalf : ((a % b : ℕ) : ℚ) / b = 1 / 2 := by
      rw [div_eq_iff hbpos.ne']
      have : ((2 * (a % b) : ℕ) : ℚ) = b := by exact_mod_cast heq
      push_cast at this
      linarith
    rw [if_neg heq.not_lt, if_neg heq.not_gt, hhalf]
    by_cases heven : a / b % 2 = 0
    · rw [if_pos heven]
      exact ⟨abs_le.2 ⟨by linarith, by linarith⟩, fun _ => heven⟩
    · rw [if_neg heven]
      exact ⟨abs_le.2 ⟨by linarith, by linarith⟩, fun _ => by omega⟩
  · have habove : 1 / 2 < ((a % b : ℕ) : ℚ) / b := by
      rw [lt_div_iff₀ hbpos]
      have : (b : ℚ) < ((2 * (a % b) : ℕ) : ℚ) := by exact_mod_cast hgt
      push_cast at this
      linarith
    rw [if_neg hgt.not_gt, if_pos hgt]
    refine ⟨abs_le.2 ⟨by linarith, by linarith⟩, fun htie => ?_⟩
    rw [abs_of_nonneg (by linarith)] at htie
    linarith

/-! ## Values -/

theorem unitsPerOne_eq_two_pow : ∃ k, 1074 = k ∧ unitsPerOne = 2 ^ k := by
  unfold unitsPerOne
  generalize 1074 = k
  exact ⟨k, rfl, rfl⟩

theorem unitsPerOne_pos : (0 : ℚ) < unitsPerOne := by
  obtain ⟨k, -, hunits⟩ := unitsPerOne_eq_two_pow
  rw [hunits]
  exact_mod_cast Nat.two_pow_pos k

theorem ofUnits_nonneg (units : ℕ) : 0 ≤ ofUnits units :=
  div_nonneg (Nat.cast_nonneg _) unitsPerOne_pos.le

theorem ofUnits_pos {units : ℕ} : 0 < ofUnits units ↔ units ≠ 0 := by
  rw [ofUnits, div_pos_iff_of_pos_right unitsPerOne_pos, Nat.cast_pos, Nat.pos_iff_ne_zero]

theorem ofUnits_le {units n : ℕ} : ofUnits units ≤ n ↔ units ≤ n * unitsPerOne := by
  rw [ofUnits, div_le_iff₀ unitsPerOne_pos]
  exact_mod_cast Iff.rfl

theorem ofUnits_add (a b : ℕ) : ofUnits (a + b) = ofUnits a + ofUnits b := by
  rw [ofUnits, Nat.cast_add, add_div, ofUnits, ofUnits]

theorem ofUnits_mul_unitsPerOne (n : ℕ) : ofUnits (n * unitsPerOne) = n := by
  rw [ofUnits, Nat.cast_mul, mul_div_cancel_right₀ _ unitsPerOne_pos.ne']

theorem value?_finite (units : ℕ) : (finite false units).value? = some (ofUnits units) := by
  simp only [value?, ratio?, ofUnits, Option.map_some, Bool.false_eq_true, if_false,
    Int.cast_natCast]

/-- A number that is not negative is a count of units; its sign is that of a zero at most. -/
theorem finite_of_value {d : Double} {v : ℚ} (h : d.value? = some v) (hv : 0 ≤ v) :
    ∃ negative units, d = .finite negative units ∧ (negative = true → units = 0) ∧
      v = ofUnits units := by
  cases d with
  | nan => cases h
  | infinite negative => cases h
  | finite negative units =>
      cases negative with
      | false =>
          rw [value?_finite] at h
          exact ⟨false, units, rfl, by simp, (Option.some.inj h).symm⟩
      | true =>
          simp only [value?, ratio?, Option.map_some, if_true, Option.some.injEq, Int.cast_neg,
            Int.cast_natCast] at h
          rw [← h, le_div_iff₀ unitsPerOne_pos, zero_mul, neg_nonneg, Nat.cast_nonpos] at hv
          subst hv
          rw [Nat.cast_zero, neg_zero] at h
          exact ⟨true, 0, rfl, fun _ => rfl, by rw [ofUnits, Nat.cast_zero, h]⟩

/-! ## Nearest doubles -/

theorem two_pow_le_unitsPerOne : (2 : ℚ) ^ 52 ≤ unitsPerOne := by
  obtain ⟨k, hk, hunits⟩ := unitsPerOne_eq_two_pow
  rw [hunits]
  exact_mod_cast Nat.pow_le_pow_right (n := 2) (by decide) (by omega : 52 ≤ k)

theorem two_pow_mul_unitsPerOne_le_overflow : 2 ^ 128 * unitsPerOne ≤ overflow := by
  have hexponent : 1074 + 128 ≤ 2098 := by decide
  unfold unitsPerOne overflow
  revert hexponent
  -- Neither power is to be computed.
  generalize 1074 = j
  generalize 2098 = k
  intro hexponent
  calc 2 ^ 128 * 2 ^ j = 2 ^ (j + 128) := by rw [pow_add, mul_comm]
    _ ≤ 2 ^ k := Nat.pow_le_pow_right (by decide) hexponent

/-- What falls below the significant bits is a small part of a count of units, or one unit. -/
theorem two_pow_spareBits_le (units : ℕ) :
    (2 : ℚ) ^ spareBits units ≤ 1 + units / 2 ^ 52 := by
  have hpos : (0 : ℚ) ≤ units / 2 ^ 52 := by positivity
  by_cases hsmall : units.log2 ≤ 52
  · rw [spareBits, Nat.sub_eq_zero_of_le hsmall, pow_zero]
    linarith
  · have hne : units ≠ 0 := by
      rintro rfl
      exact hsmall (by decide)
    have hle : (2 : ℚ) ^ units.log2 ≤ units := by exact_mod_cast Nat.log2_self_le hne
    have hsplit : (2 : ℚ) ^ units.log2 = 2 ^ spareBits units * 2 ^ 52 := by
      rw [← pow_add, spareBits, Nat.sub_add_cancel (by omega)]
    have hdiv : (2 : ℚ) ^ spareBits units ≤ units / 2 ^ 52 := by
      rw [le_div_iff₀ (by positivity), ← hsplit]
      exact hle
    linarith

/-- A quotient is rounded to a multiple of a power of two that is off by half of the power at
most. -/
theorem roundHalfEven_step_close (a : ℕ) {b : ℕ} (hb : 0 < b) (spare : ℕ) :
    |((roundHalfEven a (b * 2 ^ spare) * 2 ^ spare : ℕ) : ℚ) - a / b| ≤ 2 ^ spare / 2 := by
  have hpow : (0 : ℚ) < 2 ^ spare := by positivity
  have hnear := (nearest_roundHalfEven a (Nat.mul_pos hb (Nat.two_pow_pos spare))).near
  push_cast at hnear ⊢
  rw [← div_div] at hnear
  calc |(roundHalfEven a (b * 2 ^ spare) : ℚ) * 2 ^ spare - a / b|
      = |(roundHalfEven a (b * 2 ^ spare) : ℚ) - a / b / 2 ^ spare| * 2 ^ spare := by
        rw [← abs_of_pos hpow, ← abs_mul, abs_of_pos hpow, sub_mul, div_mul_cancel₀ _ hpow.ne']
    _ ≤ 1 / 2 * 2 ^ spare := mul_le_mul_of_nonneg_right hnear hpow.le
    _ = 2 ^ spare / 2 := by ring

/-- The count of units that a quotient is rounded to. -/
def nearestUnits (num den : ℕ) : ℕ :=
  roundHalfEven (num * unitsPerOne) (den * 2 ^ spareBits (num * unitsPerOne / den)) *
    2 ^ spareBits (num * unitsPerOne / den)

theorem nearestUnits_close (num : ℕ) {den : ℕ} (hden : 0 < den) :
    |(nearestUnits num den : ℚ) - num / den * unitsPerOne| ≤
      (1 + num / den * unitsPerOne / 2 ^ 52) / 2 := by
  have hquotient : ((num * unitsPerOne : ℕ) : ℚ) / den = num / den * unitsPerOne := by
    push_cast
    ring
  have hclose := roundHalfEven_step_close (num * unitsPerOne) hden
    (spareBits (num * unitsPerOne / den))
  have hstep := two_pow_spareBits_le (num * unitsPerOne / den)
  have hfloor : ((num * unitsPerOne / den : ℕ) : ℚ) ≤ num / den * unitsPerOne := by
    rw [← hquotient]
    exact Nat.cast_div_le
  rw [hquotient] at hclose
  unfold nearestUnits
  linarith

/-- **A quotient is rounded to a double close to it.** -/
theorem ofRatio_close (num : ℕ) {den : ℕ} (hden : 0 < den) (h : (num : ℚ) / den < 2 ^ 96) :
    ∃ units, ofRatio false num den = .finite false units ∧
      |ofUnits units - num / den| ≤ (1 + (num : ℚ) / den) / 2 ^ 53 := by
  have hpos := unitsPerOne_pos
  have hclose := nearestUnits_close num hden
  generalize (num : ℚ) / den = x at hclose h ⊢
  have hfits : nearestUnits num den < overflow := by
    have hscaled : x * unitsPerOne < 2 ^ 96 * unitsPerOne := mul_lt_mul_of_pos_right h hpos
    have hlt : (nearestUnits num den : ℚ) < 2 ^ 128 * unitsPerOne := by
      have hupper := (abs_le.1 hclose).2
      linarith [two_pow_le_unitsPerOne]
    exact Nat.lt_of_lt_of_le (by exact_mod_cast hlt) two_pow_mul_unitsPerOne_le_overflow
  refine ⟨nearestUnits num den, ?_, ?_⟩
  · simp only [ofRatio, nearestUnits, Nat.pow_eq] at hfits ⊢
    rw [if_pos hfits]
  calc |ofUnits (nearestUnits num den) - x|
      = |(nearestUnits num den : ℚ) - x * unitsPerOne| / unitsPerOne := by
        rw [ofUnits, ← abs_of_pos hpos, ← abs_div, abs_of_pos hpos, sub_div,
          mul_div_cancel_right₀ _ hpos.ne']
    _ ≤ (1 + x * unitsPerOne / 2 ^ 52) / 2 / unitsPerOne :=
        div_le_div_of_nonneg_right hclose hpos.le
    _ = (1 / unitsPerOne + x / 2 ^ 52) / 2 := by
        rw [div_right_comm, add_div, div_right_comm (x * _), mul_div_cancel_right₀ _ hpos.ne']
    _ ≤ (1 / 2 ^ 52 + x / 2 ^ 52) / 2 := by
        have hunit : 1 / (unitsPerOne : ℚ) ≤ 1 / 2 ^ 52 :=
          one_div_le_one_div_of_le (by positivity) two_pow_le_unitsPerOne
        linarith
    _ = (1 + x) / 2 ^ 53 := by ring

theorem ofNat_close {n : ℕ} (h : (n : ℚ) < 2 ^ 96) : ∃ units, ofNat n = .finite false units ∧
    |ofUnits units - n| ≤ (1 + (n : ℚ)) / 2 ^ 53 := by
  have hclose := ofRatio_close n one_pos (by rwa [Nat.cast_one, div_one])
  rwa [Nat.cast_one, div_one] at hclose

theorem addMagnitudes_close {a b : ℕ} (h : ofUnits a + ofUnits b < 2 ^ 96) :
    ∃ units, addMagnitudes (.finite false a) (.finite false b) = .finite false units ∧
      |ofUnits units - (ofUnits a + ofUnits b)| ≤ (1 + (ofUnits a + ofUnits b)) / 2 ^ 53 := by
  rw [← ofUnits_add] at h ⊢
  simp only [addMagnitudes]
  exact ofRatio_close (a + b) (Nat.cast_pos.1 unitsPerOne_pos) h

theorem divMagnitudes_close {a b : ℕ} (hb : b ≠ 0) (h : ofUnits a / ofUnits b < 2 ^ 96) :
    ∃ units, divMagnitudes (.finite false a) (.finite false b) = .finite false units ∧
      |ofUnits units - ofUnits a / ofUnits b| ≤ (1 + ofUnits a / ofUnits b) / 2 ^ 53 := by
  have hquotient : ofUnits a / ofUnits b = (a : ℚ) / b := by
    rw [ofUnits, ofUnits, div_div_div_cancel_right₀ unitsPerOne_pos.ne']
  rw [hquotient] at h ⊢
  simp only [divMagnitudes]
  exact ofRatio_close a (Nat.pos_of_ne_zero hb) h

end Delivery.Double
