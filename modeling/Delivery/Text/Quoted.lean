import Delivery.Text.Visible

/-!
# Quoted text

`quote` puts a text between double quotes for a message. What would be invisible or ambiguous
there is escaped: the quote and the backslash by a backslash, line breaks, tabs and the null
character by their letters, every other character outside `visible` by its code point.
-/

namespace Delivery.Text

/-- The digits of a number in base sixteen, small letters, without leading zeros. -/
def hex (n : Nat) : List Char := Nat.toDigits 16 n

/-- The form of one character between quotes. -/
def escape (c : Char) : List Char :=
  if c = '\x00' then ['\\', '0']
  else if c = '\t' then ['\\', 't']
  else if c = '\r' then ['\\', 'r']
  else if c = '\n' then ['\\', 'n']
  else if c = '\\' then ['\\', '\\']
  else if c = '\x22' then ['\\', '\x22']
  else if 0x20 ≤ c.toNat && c.toNat ≤ 0x7E then [c]
  else if visible.contains c then [c]
  else ['\\', 'u', '\x7b'] ++ hex c.toNat ++ ['\x7d']

/-- The text between double quotes. -/
def quote (s : String) : String :=
  String.ofList ('\x22' :: s.toList.flatMap escape ++ ['\x22'])

/-- Several texts, each quoted, between brackets. -/
def quoteAll (l : List String) : String :=
  "[" ++ ", ".intercalate (l.map quote) ++ "]"

end Delivery.Text
