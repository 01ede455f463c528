import Delivery.Timestamp.Reader
import Mathlib.Data.Nat.ModEq

/-!
# Timestamps read back

The reader of timestamps takes many more texts than are ever written. Every timestamp it reads back
from its text (`Timestamp.read_text`), also for years that need a sign and for leap seconds. Of any
other moment it reads the timestamp that has the same text (`DateTime.read_text`). So two moments
have one text exactly when they are read as one (`DateTime.text_eq_iff`).

A part of a text is read back whatever follows it, as long as a number is not followed by a digit
(`Text.EndsNumber`).
-/

namespace Delivery

namespace Text

/-- A text that may follow a number: it does not begin with a digit. -/
def EndsNumber (s : List Char) : Prop := ∀ c ∈ s.head?, c.isDigit = false

theorem endsNumber_cons {c : Char} {s : List Char} (h : c.isDigit = false) :
    EndsNumber (c :: s) := by
  intro d hd
  cases hd
  exact h

/-- The digits at the front of a text end where the number does, also when no more than so many
characters are looked at. -/
theorem takeWhile_digits {ds rest : List Char} (hd : ∀ c ∈ ds, c.isDigit = true)
    (hrest : EndsNumber rest) (n : Nat) :
    (ds ++ rest.take n).takeWhile Char.isDigit = ds := by
  rw [List.takeWhile_append_of_pos hd]
  cases rest with
  | nil => simp
  | cons c rest =>
      have hc : c.isDigit = false := hrest c rfl
      cases n with
      | zero => simp
      | succ n => simp [hc]

theorem digitsValue_eq (ds : List Char) : digitsValue ds = Nat.ofDigitChars 10 ds 0 := by
  rw [Nat.ofDigitChars_eq_foldl]
  unfold digitsValue
  simp only [Nat.mul_comm 10]
  rfl

theorem not_blank_of_isDigit {c : Char} (h : c.isDigit = true) : blank.contains c = false := by
  obtain ⟨hlow, hhigh⟩ := Char.isDigit_iff_toNat.1 h
  replace hlow : 48 ≤ c.toNat := hlow
  replace hhigh : c.toNat ≤ 57 := hhigh
  simp only [CharSet.contains, blank, List.any_cons, List.any_nil, Bool.or_eq_false_iff,
    Bool.and_eq_false_iff, decide_eq_false_iff_not, and_true]
  omega

theorem dropBlank_cons {c : Char} (h : blank.contains c = false) (s : List Char) :
    dropBlank (c :: s) = c :: s := by
  unfold dropBlank
  rw [List.dropWhile_cons_of_neg]
  simp [h]

end Text

namespace Timestamp

open Text

/-! ## Numbers -/

theorem isDigit_of_mem_padded {width n : Nat} : ∀ c ∈ padded width n, c.isDigit = true := by
  intro c hc
  rcases List.mem_append.1 hc with hc | hc
  · obtain rfl := List.eq_of_mem_replicate hc
    rfl
  · exact Nat.isDigit_of_mem_toDigits (by decide) (by decide) hc

/-- A padded number begins with a digit. -/
theorem padded_cons (width n : Nat) :
    ∃ c ds, padded width n = c :: ds ∧ c.isDigit = true := by
  cases h : padded width n with
  | nil => exact absurd (List.append_eq_nil_iff.1 h).2 Nat.toDigits_ne_nil
  | cons c ds =>
      have hc : c ∈ padded width n := by
        rw [h]
        exact List.mem_cons_self
      exact ⟨c, ds, rfl, isDigit_of_mem_padded c hc⟩

theorem digitsValue_padded (width n : Nat) : digitsValue (padded width n) = n := by
  rw [digitsValue_eq]
  show Nat.ofDigitChars 10 (List.replicate _ '0' ++ Nat.toDigits 10 n) 0 = n
  rw [Nat.ofDigitChars_append, Nat.ofDigitChars_replicate_zero, Nat.mul_zero,
    Nat.ofDigitChars_ten_toDigits]

/-- A number that fits is as wide as it is padded to. -/
theorem length_padded {width n : Nat} (hwidth : 0 < width) (hn : n < 10 ^ width) :
    (padded width n).length = width := by
  have hle := (Nat.length_toDigits_le_iff (b := 10) (by decide) hwidth).2 hn
  show (List.replicate _ '0' ++ Nat.toDigits 10 n).length = width
  rw [List.length_append, List.length_replicate]
  omega

theorem dropBlank_padded (width n : Nat) (rest : List Char) :
    dropBlank (padded width n ++ rest) = padded width n ++ rest := by
  obtain ⟨c, ds, h, hc⟩ := padded_cons width n
  rw [h]
  exact dropBlank_cons (not_blank_of_isDigit hc) _

theorem number_none (s : List Char) : number none s = number (some s.length) s := by
  unfold number
  dsimp only
  rw [List.take_length]

/-- A padded number is read back when all of it may be looked at. -/
theorem number_padded {most width n : Nat} {rest : List Char}
    (hmost : (padded width n).length ≤ most) (hn : n ≤ largestNumber)
    (hrest : EndsNumber rest) : number (some most) (padded width n ++ rest) = .ok (n, rest) := by
  have hwindow : ((padded width n ++ rest).take most).takeWhile Char.isDigit =
      padded width n := by
    rw [List.take_append, List.take_of_length_le hmost]
    exact takeWhile_digits isDigit_of_mem_padded hrest _
  unfold number
  dsimp only
  rw [hwindow]
  have hvalue := digitsValue_padded width n
  obtain ⟨c, ds, h, -⟩ := padded_cons width n
  rw [h] at hvalue ⊢
  show (if largestNumber < digitsValue (c :: ds) then _ else _) = _
  rw [hvalue, if_neg (by omega), List.drop_left]

/-! ## Parts -/

theorem mark_cons {c : Char} (h : blank.contains c = false) (rest : List Char) :
    mark c (c :: rest) = .ok ((), rest) := by
  unfold mark
  rw [dropBlank_cons h]
  exact if_pos rfl

theorem field_padded {low high n : Nat} {rest : List Char} (hlow : low ≤ n) (hhigh : n ≤ high)
    (hn : n < 100) (hrest : EndsNumber rest) :
    field low high (padded 2 n ++ rest) = .ok (n, rest) := by
  have hnumber : number (some 2) (padded 2 n ++ rest) = .ok (n, rest) := by
    refine number_padded ?_ ?_ hrest
    · exact Nat.le_of_eq (length_padded (by decide) hn)
    · exact Nat.le_trans (Nat.le_of_lt hn) (by decide)
  unfold field
  rw [dropBlank_padded, hnumber]
  show (if (decide (n < low) || decide (high < n)) = true then _ else _) = _
  rw [if_neg]
  simp only [Bool.or_eq_true, decide_eq_true_eq]
  omega

theorem year_unsigned {n : Nat} {rest : List Char} (hn : n ≤ 9999) (hrest : EndsNumber rest) :
    year (padded 4 n ++ rest) = .ok (n, rest) := by
  have hnumber : number (some 4) (padded 4 n ++ rest) = .ok (n, rest) := by
    refine number_padded ?_ (Nat.le_trans hn (by decide)) hrest
    exact Nat.le_of_eq (length_padded (by decide) (by omega))
  obtain ⟨c, ds, h, hc⟩ := padded_cons 4 n
  rw [h, List.cons_append] at hnumber ⊢
  unfold year
  split
  next heq =>
    cases heq
    exact absurd hc (by decide)
  next heq =>
    cases heq
    exact absurd hc (by decide)
  next =>
    rw [hnumber]
    show (if (decide ((n : Int) < _) || decide (_ < (n : Int))) = true then _ else _) = _
    rw [if_neg]
    simp only [Bool.or_eq_true, decide_eq_true_eq]
    omega

/-- A year with a sign may have any number of digits. -/
theorem year_signed {b : Bool} {n : Nat} {rest : List Char} (hn : n ≤ 262143)
    (hrest : EndsNumber rest) :
    year ((if b then '-' else '+') :: padded 4 n ++ rest) =
      .ok (if b then -n else n, rest) := by
  have hnumber : number none (padded 4 n ++ rest) = .ok (n, rest) := by
    rw [number_none]
    refine number_padded ?_ (Nat.le_trans hn (by decide)) hrest
    rw [List.length_append]
    omega
  have hrange (y : Int) (hy : y.natAbs = n) :
      ¬ (decide (y < -2147483648) || decide (2147483647 < y)) = true := by
    simp only [Bool.or_eq_true, decide_eq_true_eq]
    omega
  cases b with
  | true =>
      show (do
        let p ← number none (padded 4 n ++ rest)
        let q ← pure (-(p.1 : Int), p.2)
        if q.1 < -2147483648 || 2147483647 < q.1 then .error .outOfRange else .ok q) = _
      rw [hnumber]
      exact if_neg (hrange (-n) (by omega))
  | false =>
      show (do
        let p ← number none (padded 4 n ++ rest)
        let q ← pure ((p.1 : Int), p.2)
        if q.1 < -2147483648 || 2147483647 < q.1 then .error .outOfRange else .ok q) = _
      rw [hnumber]
      exact if_neg (hrange n rfl)

theorem year_yearText {y : Int} {rest : List Char} (hfirst : Calendar.firstYear ≤ y)
    (hlast : y ≤ Calendar.lastYear) (hrest : EndsNumber rest) :
    year (yearText y ++ rest) = .ok (y, rest) := by
  unfold Calendar.firstYear at hfirst
  unfold Calendar.lastYear at hlast
  unfold yearText
  by_cases hplain : 0 ≤ y ∧ y ≤ 9999
  · rw [if_pos hplain, year_unsigned (by omega) hrest, Int.toNat_of_nonneg hplain.1]
  · rw [if_neg hplain]
    by_cases hneg : y < 0
    · have h := year_signed (n := y.natAbs) (b := true) (by omega) hrest
      have hvalue : -((y.natAbs : Nat) : Int) = y := by omega
      rw [if_pos hneg]
      rw [if_pos rfl, if_pos rfl, hvalue] at h
      exact h
    · have h := year_signed (n := y.natAbs) (b := false) (by omega) hrest
      have hvalue : ((y.natAbs : Nat) : Int) = y := by omega
      rw [if_neg hneg]
      rw [if_neg Bool.false_ne_true, if_neg Bool.false_ne_true, hvalue] at h
      exact h

/-- A fraction of so many digits is read back in nanoseconds. -/
theorem fraction_padded {width n : Nat} {rest : List Char} (hwidth : 0 < width)
    (hle : width ≤ 9) (hn : n < 10 ^ width) (hrest : EndsNumber rest) :
    fraction ('.' :: padded width n ++ rest) = .ok (n * 10 ^ (9 - width), rest) := by
  have hlength := length_padded hwidth hn
  have hnumber : number (some 9) (padded width n ++ rest) = .ok (n, rest) := by
    refine number_padded (by omega) ?_ hrest
    have hpow : 10 ^ width ≤ 10 ^ 9 := Nat.pow_le_pow_right (by decide) hle
    exact Nat.le_trans (Nat.le_trans (Nat.le_of_lt hn) hpow) (by decide)
  have hkeep : rest.dropWhile Char.isDigit = rest := by
    cases rest with
    | nil => rfl
    | cons c rest =>
        rw [List.dropWhile_cons_of_neg]
        rw [hrest c rfl]
        decide
  show (number (some 9) (padded width n ++ rest) >>= fun p => _) = _
  rw [hnumber]
  show Except.ok (n * 10 ^ (9 - ((padded width n ++ rest).length - rest.length)),
    rest.dropWhile Char.isDigit) = _
  rw [List.length_append, hlength, Nat.add_sub_cancel, hkeep]

theorem fraction_fractionText {n : Nat} {rest : List Char} (hn : n < 1000000000)
    (hrest : EndsNumber rest) (hdot : rest.head? ≠ some '.') :
    fraction (fractionText n ++ rest) = .ok (n, rest) := by
  unfold fractionText
  by_cases hzero : n = 0
  · rw [if_pos hzero, hzero]
    unfold fraction
    split
    next heq =>
      exact absurd (congrArg List.head? heq) hdot
    next => rfl
  · rw [if_neg hzero]
    by_cases hmillis : n % 1000000 = 0
    · rw [if_pos hmillis, fraction_padded (by decide) (by decide) (by omega) hrest]
      have hvalue : n / 1000000 * 10 ^ (9 - 3) = n := by omega
      rw [hvalue]
    · rw [if_neg hmillis]
      by_cases hmicros : n % 1000 = 0
      · rw [if_pos hmicros, fraction_padded (by decide) (by decide) (by omega) hrest]
        have hvalue : n / 1000 * 10 ^ (9 - 6) = n := by omega
        rw [hvalue]
      · rw [if_neg hmicros, fraction_padded (by decide) (by decide) (by omega) hrest]
        have hvalue : n * 10 ^ (9 - 9) = n := by omega
        rw [hvalue]

theorem endsNumber_fractionText (n : Nat) {rest : List Char} (hrest : EndsNumber rest) :
    EndsNumber (fractionText n ++ rest) := by
  unfold fractionText
  by_cases hzero : n = 0
  · rw [if_pos hzero]
    exact hrest
  · rw [if_neg hzero]
    split
    · exact endsNumber_cons rfl
    · split <;> exact endsNumber_cons rfl

/-! ## The whole text -/

/-- The seconds that are written, and the nanoseconds after them: a leap second is the sixtieth. -/
def shown (t : TimeOfDay) : Nat × Nat :=
  if 1000000000 ≤ t.nanosecond then (t.second + 1, t.nanosecond - 1000000000)
  else (t.second, t.nanosecond)

theorem chars_eq (m : DateTime) :
    m.chars = yearText m.date.year ++ '-' :: (padded 2 m.date.month ++ '-' ::
      (padded 2 m.date.day ++ 'T' :: (padded 2 m.time.hour ++ ':' :: (padded 2 m.time.minute ++
        ':' :: (padded 2 (shown m.time).1 ++ (fractionText (shown m.time).2 ++ ['Z'])))))) := by
  show yearText _ ++ '-' :: padded 2 _ ++ '-' :: padded 2 _ ++ 'T' :: padded 2 _ ++
    ':' :: padded 2 _ ++ ':' :: padded 2 (shown m.time).1 ++ fractionText (shown m.time).2 ++
    ['Z'] = _
  simp only [List.append_assoc, List.cons_append]

/-- What is shown of a legible time is within bounds, and the time can be told from it. -/
theorem shown_cases {t : TimeOfDay} (h : t.isLegible = true) :
    (shown t).1 ≤ 60 ∧ (shown t).2 < 1000000000 ∧
      (if (shown t).1 = 60 then ⟨t.hour, t.minute, 59, (shown t).2 + 1000000000⟩
        else ⟨t.hour, t.minute, (shown t).1, (shown t).2⟩) = t := by
  obtain ⟨hour, minute, second, nanosecond⟩ := t
  simp only [TimeOfDay.isLegible, TimeOfDay.isValid, Bool.and_eq_true, Bool.or_eq_true,
    decide_eq_true_eq, beq_iff_eq] at h
  unfold shown
  dsimp only
  by_cases hleap : 1000000000 ≤ nanosecond
  · rw [if_pos hleap]
    have hsecond : second = 59 := by omega
    subst hsecond
    refine ⟨Nat.le_refl _, by omega, ?_⟩
    rw [if_pos rfl, Nat.sub_add_cancel hleap]
  · rw [if_neg hleap]
    refine ⟨by omega, by omega, ?_⟩
    rw [if_neg]
    omega

theorem dropBlank_yearText (y : Int) (rest : List Char) :
    dropBlank (yearText y ++ rest) = yearText y ++ rest := by
  unfold yearText
  by_cases hplain : 0 ≤ y ∧ y ≤ 9999
  · rw [if_pos hplain]
    exact dropBlank_padded _ _ _
  · rw [if_neg hplain]
    by_cases hneg : y < 0
    · rw [if_pos hneg]
      exact dropBlank_cons (by decide) _
    · rw [if_neg hneg]
      exact dropBlank_cons (by decide) _

/-- A timestamp lies no minutes after UTC. -/
theorem ofLocal?_zero (t : Timestamp) : ofLocal? t.date t.time 0 = some t := by
  obtain ⟨date, ⟨hour, minute, second, nanosecond⟩, hdate, htime⟩ := t
  have hbounds := TimeOfDay.isValid_of_isLegible htime
  simp only [TimeOfDay.isValid, Bool.and_eq_true, decide_eq_true_eq] at hbounds
  unfold ofLocal?
  have hhour : (((hour * 60 + minute : Nat) : Int) - 0) % 1440 = (hour * 60 + minute : Nat) := by
    omega
  have h₁ : (hour * 60 + minute) / 60 = hour := by omega
  have h₂ : (hour * 60 + minute) % 60 = minute := by omega
  have hnonneg : ¬ ((hour * 60 + minute : Nat) : Int) - 0 < 0 := by omega
  have hday : ((hour * 60 + minute : Nat) : Int) - 0 < 1440 := by omega
  dsimp only [Int.ofNat_eq_natCast]
  rw [if_neg hnonneg, if_pos hday, hhour, Int.toNat_natCast, h₁, h₂]
  exact dif_pos ⟨hdate, htime⟩

/-- **Every timestamp is read back from its text.** -/
theorem read_text (t : Timestamp) : read t.text = .ok t := by
  have hdate := t.date_valid
  have htime := TimeOfDay.isValid_of_isLegible t.time_legible
  simp only [Date.isValid, Bool.and_eq_true, decide_eq_true_eq] at hdate
  simp only [TimeOfDay.isValid, Bool.and_eq_true, decide_eq_true_eq] at htime
  obtain ⟨hsecond, hnano, hrestore⟩ := shown_cases t.time_legible
  have hday : t.date.day ≤ 31 := by
    have hle : Calendar.daysInMonth t.date.year t.date.month ≤ 31 := by
      unfold Calendar.daysInMonth
      split
      · split <;> omega
      · split <;> omega
    omega
  have htext : t.text.toList = (t : DateTime).chars := String.toList_ofList
  unfold read
  rw [htext, chars_eq]
  dsimp only [toDateTime]
  rw [dropBlank_yearText, year_yearText (by omega) (by omega) (endsNumber_cons rfl)]
  dsimp only [bind, Except.bind]
  rw [mark_cons (by decide)]
  dsimp only
  rw [field_padded (by omega) (by omega) (by omega) (endsNumber_cons rfl)]
  dsimp only
  rw [mark_cons (by decide)]
  dsimp only
  rw [field_padded (by omega) (by omega) (by omega) (endsNumber_cons rfl)]
  dsimp only [separator]
  rw [if_pos (by decide)]
  dsimp only
  rw [field_padded (by omega) (by omega) (by omega) (endsNumber_cons rfl)]
  dsimp only
  rw [mark_cons (by decide)]
  dsimp only
  rw [field_padded (by omega) (by omega) (by omega) (endsNumber_cons rfl)]
  dsimp only
  rw [mark_cons (by decide)]
  dsimp only
  rw [field_padded (by omega) (by omega) (by omega)
    (endsNumber_fractionText _ (endsNumber_cons rfl))]
  dsimp only
  rw [fraction_fractionText hnano (endsNumber_cons rfl) (by simp)]
  have hzone : zone (dropBlank ['Z']) = .ok (0, []) := rfl
  have hnothing : (dropBlank ([] : List Char)).isEmpty = true := rfl
  dsimp only
  rw [hzone]
  dsimp only
  rw [hnothing, if_neg (by decide), t.date_valid, if_neg (by decide), if_neg (by decide),
    hrestore, ofLocal?_zero]

end Timestamp

/-! ## Moments that cannot be told from their texts -/

namespace DateTime

open Timestamp (shown)

/-- Of a leap second within a minute the second after it is shown. -/
theorem shown_asRead (t : TimeOfDay) (h : t.isValid = true) : shown t.asRead = shown t := by
  unfold TimeOfDay.asRead
  split
  next => rfl
  next hleap =>
    simp only [TimeOfDay.isValid, Bool.or_eq_true, Bool.and_eq_true, decide_eq_true_eq,
      beq_iff_eq] at h hleap
    unfold shown
    dsimp only
    rw [if_neg (by omega), if_pos (by omega)]

/-- The text of a moment is that of the timestamp that it is read as. -/
theorem text_asRead (m : DateTime) : m.asRead.text = m.text := by
  have htime : ∀ t : TimeOfDay, t.asRead.hour = t.hour ∧ t.asRead.minute = t.minute := by
    intro t
    unfold TimeOfDay.asRead
    split <;> exact ⟨rfl, rfl⟩
  refine congrArg String.ofList ?_
  show (m.asRead : DateTime).chars = m.chars
  rw [Timestamp.chars_eq, Timestamp.chars_eq m, ← shown_asRead m.time m.time_valid,
    ← (htime m.time).1, ← (htime m.time).2]
  rfl

/-- **Every moment is read from its text** as the timestamp with the same text. -/
theorem read_text (m : DateTime) : Timestamp.read m.text = .ok m.asRead := by
  rw [← text_asRead, Timestamp.read_text]

/-- Moments have one text exactly when they are read as one. -/
theorem text_eq_iff {m n : DateTime} : m.text = n.text ↔ m.asRead = n.asRead := by
  constructor
  · intro h
    have hm := m.read_text
    rw [h, n.read_text] at hm
    exact (Except.ok.inj hm).symm
  · intro h
    rw [← m.text_asRead, h, text_asRead]

/-- Exactly the legible moments are read as they are. -/
theorem asRead_eq_self_iff {m : DateTime} :
    (m.asRead : DateTime) = m ↔ m.time.isLegible = true := by
  constructor
  · intro h
    rw [← h]
    exact m.asRead.time_legible
  · intro h
    have hm : m = (⟨m.date, m.time, m.date_valid, h⟩ : Timestamp) := rfl
    rw [hm, Timestamp.asRead_toDateTime]

end DateTime

end Delivery
