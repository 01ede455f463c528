import Delivery.Text.Digits

/-!
# Messages with a position

A message about a text may end in the position it is about, as in `oops at line 3 column 5`. Lines
count from one, so line zero says that there is no position, and is not shown.
-/

namespace Delivery.Text

/-- A line and a column. -/
structure Position where
  line : Nat
  column : Nat
  deriving DecidableEq

/-- The count that a whole list of digits denotes; none without digits, or beyond 64 bits. -/
def count? (digits : List Char) : Option Nat :=
  if digits.isEmpty || Nat.pow 2 64 ≤ digitsValue digits then none else some (digitsValue digits)

/-- What a text of the form `3 column 5` says. -/
def position? (s : List Char) : Option Position :=
  let (line, rest) := takeDigits s
  let (column, last) := takeDigits (rest.drop " column ".length)
  if " column ".toList.isPrefixOf rest && last.isEmpty then do
    return ⟨← count? line, ← count? column⟩
  else none

/-- The message before the position at its end, and the position. -/
def splitPosition? : List Char → Option (List Char × Position)
  | [] => none
  | c :: rest =>
    match (splitPosition? rest).map fun p => (c :: p.1, p.2) with
    | some found => some found
    | none =>
      if " at line ".toList.isPrefixOf (c :: rest) then
        (position? ((c :: rest).drop " at line ".length)).map fun p => ([], p)
      else none

/-- A message with its position written in the usual way. -/
def withPosition (message : String) : String :=
  match splitPosition? message.toList with
  | none => message
  | some (start, p) =>
    if p.line = 0 then String.ofList start
    else String.ofList start ++ " at line " ++ toString p.line ++ " column " ++ toString p.column

example : withPosition "oops at line 03 column 5" = "oops at line 3 column 5" := by decide +kernel
example : withPosition "oops at line 0 column 0" = "oops" := by decide +kernel

end Delivery.Text
