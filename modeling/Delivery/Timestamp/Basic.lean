/-!
# Timestamps

A `DateTime` is a moment of the UTC calendar with nanoseconds, on a date between the years −262143
and 262142. It lies in a leap second when it has a second more of nanoseconds; a leap second may
stand after any second. In a text it is the second that follows. After the last second of a minute
that is the sixtieth, which nothing else is; after any other second it is the next one, and the text
is also that of a moment there.

A `Timestamp` is a moment that can be read from its text. Clocks give no others, and texts hold no
others. `DateTime.asRead` is the one that is read from the text of a moment.
-/

namespace Delivery

/-- The first year of the calendar. -/
def Calendar.firstYear : Int := -262143

/-- The last year of the calendar. -/
def Calendar.lastYear : Int := 262142

/-- True for the years with a twenty-ninth of February. -/
def Calendar.isLeapYear (year : Int) : Bool :=
  year % 4 == 0 && (year % 100 != 0 || year % 400 == 0)

/-- How many days a month has. -/
def Calendar.daysInMonth (year : Int) (month : Nat) : Nat :=
  if month = 2 then (if isLeapYear year then 29 else 28)
  else if month = 4 || month = 6 || month = 9 || month = 11 then 30
  else 31

/-- A day of the calendar. -/
structure Date where
  year : Int
  month : Nat
  day : Nat
  deriving DecidableEq

namespace Date

/-- True for the days that the calendar has. -/
def isValid (d : Date) : Bool :=
  Calendar.firstYear ≤ d.year && d.year ≤ Calendar.lastYear &&
    1 ≤ d.month && d.month ≤ 12 && 1 ≤ d.day && d.day ≤ Calendar.daysInMonth d.year d.month

/-- The day after. -/
def next (d : Date) : Date :=
  if d.day < Calendar.daysInMonth d.year d.month then { d with day := d.day + 1 }
  else if d.month < 12 then { d with month := d.month + 1, day := 1 }
  else ⟨d.year + 1, 1, 1⟩

/-- The day before. -/
def previous (d : Date) : Date :=
  if 1 < d.day then { d with day := d.day - 1 }
  else if 1 < d.month then
    { d with month := d.month - 1, day := Calendar.daysInMonth d.year (d.month - 1) }
  else ⟨d.year - 1, 12, 31⟩

end Date

/-- A time of day. -/
structure TimeOfDay where
  hour : Nat
  minute : Nat
  second : Nat
  /-- From a thousand million on, the time lies in a leap second after the second. -/
  nanosecond : Nat
  deriving DecidableEq

namespace TimeOfDay

/-- True for the times that a day has. -/
def isValid (t : TimeOfDay) : Bool :=
  t.hour < 24 && t.minute < 60 && t.second < 60 && t.nanosecond < 2000000000

/-- True for the times that can be read from their texts: a leap second ends a minute. -/
def isLegible (t : TimeOfDay) : Bool :=
  t.isValid && (t.nanosecond < 1000000000 || t.second == 59)

/-- The time that is read from the text of a time. -/
def asRead (t : TimeOfDay) : TimeOfDay :=
  if t.nanosecond < 1000000000 || t.second == 59 then t
  else { t with second := t.second + 1, nanosecond := t.nanosecond - 1000000000 }

variable {t : TimeOfDay}

theorem isValid_of_isLegible (h : t.isLegible = true) : t.isValid = true :=
  (Bool.and_eq_true_iff.1 h).1

theorem isLegible_asRead (h : t.isValid = true) : t.asRead.isLegible = true := by
  unfold asRead
  split
  next hlegible => exact Bool.and_eq_true_iff.2 ⟨h, hlegible⟩
  next hleap =>
    simp only [isValid, isLegible, Bool.and_eq_true, Bool.or_eq_true, decide_eq_true_eq,
      beq_iff_eq] at *
    omega

theorem asRead_of_isLegible (h : t.isLegible = true) : t.asRead = t :=
  if_pos (Bool.and_eq_true_iff.1 h).2

end TimeOfDay

/-- A moment of the UTC calendar. -/
structure DateTime where
  date : Date
  time : TimeOfDay
  date_valid : date.isValid = true := by decide
  time_valid : time.isValid = true := by decide

/-- A moment that can be read from its text. -/
structure Timestamp where
  date : Date
  time : TimeOfDay
  date_valid : date.isValid = true := by decide
  time_legible : time.isLegible = true := by decide

namespace DateTime

instance : DecidableEq DateTime := fun a b =>
  if h : a.date = b.date ∧ a.time = b.time then
    .isTrue (by cases a; cases b; simpa using h)
  else
    .isFalse fun hab => h (hab ▸ ⟨rfl, rfl⟩)

/-- The timestamp that is read from the text of a moment. -/
def asRead (m : DateTime) : Timestamp :=
  ⟨m.date, m.time.asRead, m.date_valid, TimeOfDay.isLegible_asRead m.time_valid⟩

end DateTime

namespace Timestamp

instance : Inhabited Timestamp := ⟨⟨⟨1970, 1, 1⟩, ⟨0, 0, 0, 0⟩, by decide, by decide⟩⟩

/-- The moment of a timestamp. -/
def toDateTime (t : Timestamp) : DateTime :=
  ⟨t.date, t.time, t.date_valid, TimeOfDay.isValid_of_isLegible t.time_legible⟩

instance : Coe Timestamp DateTime := ⟨toDateTime⟩

instance : Inhabited DateTime := ⟨(default : Timestamp)⟩

/-- A timestamp is read as it is. -/
@[simp] theorem asRead_toDateTime (t : Timestamp) : (t : DateTime).asRead = t := by
  obtain ⟨date, time, hdate, htime⟩ := t
  simp only [DateTime.asRead, toDateTime, TimeOfDay.asRead_of_isLegible htime]

/-- The timestamp of a date and a time, when there is one. -/
def of? (date : Date) (time : TimeOfDay) : Option Timestamp :=
  if h : date.isValid = true ∧ time.isLegible = true then some ⟨date, time, h.1, h.2⟩ else none

/-- The timestamp of a date and a time that lies `minutes` minutes after UTC; none when the calendar
has no such moment. -/
def ofLocal? (date : Date) (time : TimeOfDay) (minutes : Int) : Option Timestamp :=
  let total := Int.ofNat (time.hour * 60 + time.minute) - minutes
  let date := if total < 0 then date.previous else if total < 1440 then date else date.next
  let total := (total % 1440).toNat
  of? date { time with hour := total / 60, minute := total % 60 }

/-! ## Writing -/

/-- A number with at least the given count of digits. -/
def padded (width n : Nat) : List Char :=
  let digits := Nat.toDigits 10 n
  List.replicate (width - digits.length) '0' ++ digits

/-- A year: four digits, and a sign when it is outside 0 to 9999. -/
def yearText (year : Int) : List Char :=
  if 0 ≤ year ∧ year ≤ 9999 then padded 4 year.toNat
  else (if year < 0 then '-' else '+') :: padded 4 year.natAbs

/-- The fraction of a second in 0, 3, 6 or 9 digits, whichever loses nothing. -/
def fractionText (nanosecond : Nat) : List Char :=
  if nanosecond = 0 then []
  else if nanosecond % 1000000 = 0 then '.' :: padded 3 (nanosecond / 1000000)
  else if nanosecond % 1000 = 0 then '.' :: padded 6 (nanosecond / 1000)
  else '.' :: padded 9 nanosecond

end Timestamp

namespace DateTime

open Timestamp (padded yearText fractionText)

/-- The characters of a moment, as in `2024-01-02T03:04:05.600Z`. -/
def chars (m : DateTime) : List Char :=
  let (second, nanosecond) :=
    if 1000000000 ≤ m.time.nanosecond then (m.time.second + 1, m.time.nanosecond - 1000000000)
    else (m.time.second, m.time.nanosecond)
  yearText m.date.year ++ '-' :: padded 2 m.date.month ++ '-' :: padded 2 m.date.day ++ 'T' ::
    padded 2 m.time.hour ++ ':' :: padded 2 m.time.minute ++ ':' :: padded 2 second ++
    fractionText nanosecond ++ ['Z']

/-- The text of a moment. -/
def text (m : DateTime) : String := String.ofList m.chars

end DateTime

/-- The text of a timestamp. -/
def Timestamp.text (t : Timestamp) : String := (t : DateTime).text

end Delivery
