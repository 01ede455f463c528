import Delivery.Text.CharSet
import Delivery.Text.Digits
import Delivery.Timestamp.Basic

/-!
# Reading timestamps

A timestamp is read as a date, a separator, a time and an offset from UTC. The reader is lenient:
blanks may stand before numbers, before the marks between them and before the offset; years may
have a sign and more digits; the separator may be a blank or a small letter; a fraction may have
any number of digits. What it refuses it refuses at the first fault from the left.
-/

namespace Delivery.Timestamp

/-- Why a text is no timestamp. -/
inductive ReadError where
  | tooShort
  | invalid
  | outOfRange
  | impossible
  | trailing
  deriving DecidableEq

/-- The wording of a refusal. -/
def ReadError.message : ReadError → String
  | .tooShort => "premature end of input"
  | .invalid => "input contains invalid characters"
  | .outOfRange => "input is out of range"
  | .impossible => "no possible date and time matching input"
  | .trailing => "trailing input"

/-- A reader takes a value off the front of a text. -/
abbrev Reader (α : Type) := List Char → Except ReadError (α × List Char)

/-- The largest number that is read. -/
def largestNumber : Nat := Nat.pow 2 63 - 1

/-- A number of at least one digit and at most `most` of them. -/
def number (most : Option Nat) : Reader Nat := fun s =>
  let window := match most with
    | some n => s.take n
    | none => s
  let ds := window.takeWhile Char.isDigit
  match s, ds with
  | [], _ => .error .tooShort
  | _, [] => .error .invalid
  | _, ds =>
    if largestNumber < Text.digitsValue ds then .error .outOfRange
    else .ok (Text.digitsValue ds, s.drop ds.length)

/-- A year: four digits, or a sign and any number of them. -/
def year : Reader Int := fun s => do
  let (y, rest) ← match s with
    | '-' :: r => do
      let (n, rest) ← number none r
      pure (-(n : Int), rest)
    | '+' :: r => do
      let (n, rest) ← number none r
      pure ((n : Int), rest)
    | r => do
      let (n, rest) ← number (some 4) r
      pure ((n : Int), rest)
  if y < -2147483648 || 2147483647 < y then .error .outOfRange else .ok (y, rest)

/-- A number of two digits within bounds, after blanks. -/
def field (low high : Nat) : Reader Nat := fun s => do
  let (n, rest) ← number (some 2) (Text.dropBlank s)
  if n < low || high < n then .error .outOfRange else .ok (n, rest)

/-- A mark, after blanks. -/
def mark (c : Char) : Reader Unit := fun s =>
  match Text.dropBlank s with
  | [] => .error .tooShort
  | d :: r => if d = c then .ok ((), r) else .error .invalid

/-- The separator between date and time. -/
def separator : Reader Unit := fun s =>
  match s with
  | [] => .error .tooShort
  | c :: r => if c = 't' || c = 'T' || c = ' ' then .ok ((), r) else .error .invalid

/-- A fraction of a second, in nanoseconds; digits after the ninth do not count. -/
def fraction : Reader Nat := fun s =>
  match s with
  | '.' :: r => do
    let (n, rest) ← number (some 9) r
    -- The fewer digits there are, the more each of them weighs.
    let width := r.length - rest.length
    .ok (n * Nat.pow 10 (9 - width), rest.dropWhile Char.isDigit)
  | r => .ok (0, r)

/-- Two digits of an offset, before their range is known. -/
def twoDigits : Reader (Char × Char) := fun s =>
  match s with
  | [] => .error .tooShort
  -- A last character of several bytes is long enough to be looked at, and no digit.
  | [c] => if c.utf8Size < 2 then .error .tooShort else .error .invalid
  | a :: b :: r => if a.isDigit && b.isDigit then .ok ((a, b), r) else .error .invalid

/-- An offset from UTC in minutes: the letter for none, or a sign, hours, and minutes after any
colons and blanks. -/
def offset : Reader Int := fun s =>
  match s with
  | [] => .error .tooShort
  | c :: r =>
    if c = 'Z' || c = 'z' then .ok (0, r)
    else if c = '+' || c = '-' || c = '−' then do
      let ((h₁, h₂), r) ← twoDigits r
      let r := r.dropWhile fun c => c = ':' || Text.blank.contains c
      let ((m₁, m₂), r) ← twoDigits r
      if '6' ≤ m₁ then .error .outOfRange
      else
        let minutes : Int := Text.digitsValue [h₁, h₂] * 60 + Text.digitsValue [m₁, m₂]
        .ok (if c = '+' then minutes else -minutes, r)
    else .error .invalid

/-- An offset, or the name of the zone without one in any case. -/
def zone : Reader Int := fun s =>
  match s with
  | a :: b :: c :: r =>
    if [a, b, c].map Char.toLower = ['u', 't', 'c'] then .ok (0, r) else offset s
  | s => offset s

/-- Reads a timestamp. Its parts are checked one by one as they come; that they make a moment of
the calendar is checked last. -/
def read (text : String) : Except ReadError Timestamp := do
  let (y, s) ← year (Text.dropBlank text.toList)
  let ((), s) ← mark '-' s
  let (month, s) ← field 1 12 s
  let ((), s) ← mark '-' s
  let (day, s) ← field 1 31 s
  let ((), s) ← separator s
  let (hour, s) ← field 0 23 s
  let ((), s) ← mark ':' s
  let (minute, s) ← field 0 59 s
  let ((), s) ← mark ':' s
  let (second, s) ← field 0 60 s
  let (nano, s) ← fraction s
  let (minutes, s) ← zone (Text.dropBlank s)
  if !(Text.dropBlank s).isEmpty then throw .trailing
  let date : Date := ⟨y, month, day⟩
  if !date.isValid then throw .outOfRange
  if 1440 ≤ minutes.natAbs then throw .outOfRange
  -- A leap second is the one before it, with a fraction beyond one.
  let time : TimeOfDay :=
    if second = 60 then ⟨hour, minute, 59, nano + 1000000000⟩ else ⟨hour, minute, second, nano⟩
  match ofLocal? date time minutes with
  | some t => .ok t
  | none => .error .impossible

end Delivery.Timestamp
