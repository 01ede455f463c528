import Delivery.Double.Decimal
import Delivery.Text.Hex

/-!
# JSON tokens

The pieces of a JSON text, left to right. A text that ends inside a piece, or holds something
that is no piece, yields one last token that says so, and nothing after it. Some pieces are well
formed and yet have no value: a string with half of a surrogate pair, a number out of range. They
are kept, because a reader that passes over them does not mind.
-/

namespace Delivery.Json

/-- A value without parts, or what stands in its place. -/
inductive Scalar where
  | null
  | bool (b : Bool)
  | int (n : Int)
  /-- A number with a fraction or an exponent, or beyond the range of integers. -/
  | float (d : Option Double)
  /-- A string; none when it holds half of a surrogate pair. -/
  | text (s : Option String)
  /-- The text ends inside a number. -/
  | cutNumber
  /-- The text ends inside a string, which was or was not readable so far. -/
  | cutText (readable : Bool)
  /-- The text ends inside a word. -/
  | cutWord
  /-- The text ends where a value is due. -/
  | absent
  /-- Something that starts no value. -/
  | malformed
  deriving DecidableEq

/-- A piece of a JSON text. -/
inductive Token where
  | openList
  | closeList
  | openObject
  | closeObject
  | comma
  | colon
  | scalar (s : Scalar)
  deriving DecidableEq

/-! ## Numbers -/

/-- The largest integer kept exactly. -/
def largestInt : Nat := Nat.pow 2 64 - 1

/-- The most negative integer kept exactly, without its sign. -/
def largestNegative : Nat := Nat.pow 2 63

/-- The digits of a number gathered so far: those that fit the largest integer, and the power of
ten that stands for the others. -/
structure Digits where
  significand : Nat
  exponent : Int
  full : Bool

/-- Takes a digit left of the point: once one does not fit, all count as zeros. -/
def Digits.whole (d : Digits) (c : Char) : Digits :=
  let next := d.significand * 10 + (c.toNat - 48)
  if d.full || largestInt < next then { d with exponent := d.exponent + 1, full := true }
  else { d with significand := next }

/-- Takes a digit right of the point: from the first that does not fit, all are dropped. -/
def Digits.decimal (d : Digits) (c : Char) : Digits :=
  let next := d.significand * 10 + (c.toNat - 48)
  if d.full || largestInt < next then { d with full := true }
  else { d with significand := next, exponent := d.exponent - 1 }

/-- The value of an integer's digits: exact in range, else a double. -/
def integer (negative : Bool) (d : Digits) : Scalar :=
  if d.full then .float (Double.ofScaled negative d.significand d.exponent)
  else if !negative then .int d.significand
  -- No integer is a zero with a sign.
  else if 0 < d.significand && d.significand ≤ largestNegative then .int (-d.significand)
  else .float (Double.ofScaled true d.significand 0)

/-- What follows the digits before an exponent sign. -/
def exponentPart (negative : Bool) (d : Digits) (s : List Char) : Scalar × List Char :=
  let (down, s) := Text.takeSign s
  match Text.takeDigits s with
  | ([], []) => (.cutNumber, [])
  | ([], _ :: r) => (.malformed, r)
  | (ds, rest) =>
    let e : Int := Text.digitsValue ds
    let exponent := if down then d.exponent - e else d.exponent + e
    (.float (Double.ofScaled negative d.significand exponent), rest)

/-- What follows the digits before the point. -/
def fractionPart (negative : Bool) (d : Digits) (s : List Char) : Scalar × List Char :=
  match Text.takeDigits s with
  | ([], []) => (.cutNumber, [])
  | ([], _ :: r) => (.malformed, r)
  | (ds, rest) =>
    -- A digit of the fraction may still fit where one before the point did not.
    let d := ds.foldl Digits.decimal { d with full := false }
    match rest with
    | 'e' :: r | 'E' :: r => exponentPart negative d r
    | r => (.float (Double.ofScaled negative d.significand d.exponent), r)

/-- A number that starts with a digit, and the text after it. A zero is followed by no digit. -/
def number? (negative : Bool) (first : Char) (s : List Char) : Scalar × List Char :=
  match Text.takeDigits s with
  | (ds, rest) =>
    if first = '0' && !ds.isEmpty then (.malformed, rest)
    else
      let d := (first :: ds).foldl Digits.whole ⟨0, 0, false⟩
      match rest with
      | '.' :: r => fractionPart negative d r
      | 'e' :: r | 'E' :: r => exponentPart negative d r
      | r => (integer negative d, r)

/-- A number after a minus sign. -/
def negative? (s : List Char) : Scalar × List Char :=
  match s with
  | [] => (.cutNumber, [])
  | c :: r => if c.isDigit then number? true c r else (.malformed, r)

/-! ## Strings -/

/-- What stands where four hexadecimal digits are due. -/
inductive HexEscape where
  | unit (n : Nat) (rest : List Char)
  /-- The text ends before four bytes. -/
  | cut
  | malformed

/-- Reads four hexadecimal digits. -/
def hexEscape (s : List Char) : HexEscape :=
  match s with
  | a :: b :: c :: d :: rest =>
    match Text.hexDigit? a, Text.hexDigit? b, Text.hexDigit? c, Text.hexDigit? d with
    | some a, some b, some c, some d => .unit (((a * 16 + b) * 16 + c) * 16 + d) rest
    | _, _, _, _ => .malformed
  -- Four bytes in fewer characters are not all digits.
  | short => if 4 ≤ (String.ofList short).utf8ByteSize then .malformed else .cut

/-- The character that an escape letter stands for. -/
def shortEscape? (c : Char) : Option Char :=
  if c = '\x22' || c = '\\' || c = '/' then some c
  else if c = 'b' then some '\x08'
  else if c = 'f' then some '\x0c'
  else if c = 'n' then some '\n'
  else if c = 'r' then some '\r'
  else if c = 't' then some '\t'
  else none

/-- True for the first half of a surrogate pair. -/
def leading (n : Nat) : Bool := 0xD800 ≤ n && n ≤ 0xDBFF

/-- True for the second half of a surrogate pair. -/
def trailing (n : Nat) : Bool := 0xDC00 ≤ n && n ≤ 0xDFFF

/-- The character of a surrogate pair. -/
def joined (high low : Nat) : Char :=
  Char.ofNat (0x10000 + (high - 0xD800) * 0x400 + (low - 0xDC00))

theorem length_rest_of_hexEscape {s rest : List Char} {n : Nat}
    (h : hexEscape s = .unit n rest) : rest.length < s.length := by
  unfold hexEscape at h
  split at h
  · split at h
    · cases h; simp only [List.length_cons]; omega
    · cases h
  · split at h <;> cases h

/-- What follows a backslash in a string. -/
inductive Unescaped where
  /-- It stands for a character. -/
  | char (c : Char) (rest : List Char)
  /-- It is half of a surrogate pair and stands for none. -/
  | half (rest : List Char)
  /-- The text ends inside it. -/
  | cut
  | malformed

/-- Reads what follows the first half of a surrogate pair. -/
def secondHalf (high : Nat) (s : List Char) : Unescaped :=
  match s with
  | [] | ['\\'] => .cut
  | '\\' :: 'u' :: more =>
    match hexEscape more with
    | .cut => .cut
    | .malformed => .malformed
    -- An escape that is no second half is read again on its own.
    | .unit low rest => if trailing low then .char (joined high low) rest else .half s
  | _ => .half s

/-- Reads what follows a backslash. -/
def unescape (s : List Char) : Unescaped :=
  match s with
  | [] => .cut
  | 'u' :: more =>
    match hexEscape more with
    | .cut => .cut
    | .malformed => .malformed
    | .unit n rest =>
      if trailing n then .half rest
      else if leading n then secondHalf n rest
      else .char (Char.ofNat n) rest
  | e :: rest =>
    match shortEscape? e with
    | some c => .char c rest
    | none => .malformed

/-- What a reader has left after an escape. -/
def Unescaped.rest : Unescaped → List Char
  | .char _ rest | .half rest => rest
  | .cut | .malformed => []

theorem length_rest_secondHalf_le (high : Nat) (s : List Char) :
    (secondHalf high s).rest.length ≤ s.length := by
  unfold secondHalf
  split
  · simp [Unescaped.rest]
  · simp [Unescaped.rest]
  · split
    · simp [Unescaped.rest]
    · simp [Unescaped.rest]
    next h =>
      have := length_rest_of_hexEscape h
      split <;> simp only [Unescaped.rest, List.length_cons] <;> omega
  · simp [Unescaped.rest]

theorem length_rest_unescape_le (s : List Char) : (unescape s).rest.length ≤ s.length := by
  unfold unescape
  split
  · simp [Unescaped.rest]
  · split
    · simp [Unescaped.rest]
    · simp [Unescaped.rest]
    next h =>
      have := length_rest_of_hexEscape h
      split
      · simp only [Unescaped.rest, List.length_cons]; omega
      · split
        · refine Nat.le_trans (length_rest_secondHalf_le _ _) ?_
          simp only [List.length_cons]; omega
        · simp only [Unescaped.rest, List.length_cons]; omega
  · split <;> simp [Unescaped.rest]

/-- The rest of a string after its opening quote: `acc` holds the characters so far, newest first,
and `readable` says that no half of a surrogate pair stood among them. -/
def string? (readable : Bool) (acc : List Char) (s : List Char) : Scalar × List Char :=
  match s with
  | [] => (.cutText readable, [])
  | c :: r =>
    if c = '\x22' then
      (.text (if readable then some (String.ofList acc.reverse) else none), r)
    else if c.toNat < 0x20 then (.malformed, r)
    else if c ≠ '\\' then string? readable (c :: acc) r
    else match _h : unescape r with
      | .char x rest => string? readable (x :: acc) rest
      | .half rest => string? false acc rest
      | .cut => (.cutText readable, [])
      | .malformed => (.malformed, r)
termination_by s.length
decreasing_by
  · simp
  · have := length_rest_unescape_le r
    simp only [_h, Unescaped.rest] at this
    simp only [List.length_cons]; omega
  · have := length_rest_unescape_le r
    simp only [_h, Unescaped.rest] at this
    simp only [List.length_cons]; omega

/-! ## Words and the whole text -/

/-- A word that has to continue with the given letters. -/
def word? (value : Scalar) : List Char → List Char → Scalar × List Char
  | [], s => (value, s)
  | _ :: _, [] => (.cutWord, [])
  | c :: cs, d :: s => if c = d then word? value cs s else (.malformed, s)

/-- True for the blanks between tokens. -/
def isBlank (c : Char) : Bool := c = ' ' || c = '\n' || c = '\t' || c = '\r'

/-- The token that starts with a character, and the text after it. -/
def token (c : Char) (s : List Char) : Token × List Char :=
  let value (p : Scalar × List Char) : Token × List Char := (.scalar p.1, p.2)
  if c = '[' then (.openList, s)
  else if c = ']' then (.closeList, s)
  else if c = '\x7b' then (.openObject, s)
  else if c = '\x7d' then (.closeObject, s)
  else if c = ',' then (.comma, s)
  else if c = ':' then (.colon, s)
  else if c = '\x22' then value (string? true [] s)
  else if c = '-' then value (negative? s)
  else if c.isDigit then value (number? false c s)
  else if c = 'n' then value (word? .null ['u', 'l', 'l'] s)
  else if c = 't' then value (word? (.bool true) ['r', 'u', 'e'] s)
  else if c = 'f' then value (word? (.bool false) ['a', 'l', 's', 'e'] s)
  else (.scalar .malformed, s)

/-- True for a token after which nothing is read. -/
def Token.isLast : Token → Bool
  | .scalar .cutNumber | .scalar (.cutText _) | .scalar .cutWord | .scalar .absent
  | .scalar .malformed => true
  | _ => false

end Delivery.Json
