import Delivery.Text.Case

/-!
# Small letters

`lowercase` writes a text in small letters, character by character. Two characters need more
than a table: the dotted capital I becomes an i followed by a combining dot, and a capital
sigma becomes its final form where a word ends.
-/

namespace Delivery.Text

/-- The small form of one character on its own. -/
def lowerChar (c : Char) : List Char :=
  if c.toNat < 0x80 then [c.toLower]
  else if c = 'İ' then ['i', '\u0307']
  else match capitals.find? (·.contains c) with
    | some run => [Char.ofNat (c.toNat + run.offset).toNat]
    | none => [c]

/-- True when the first character that is not passed over has case. -/
def leadsToCased (s : List Char) : Bool :=
  match s.dropWhile caseIgnorable.contains with
  | [] => false
  | c :: _ => cased.contains c

/-- The small letters of a text that stands after `before` (read backwards). A sigma with a
cased character before it and none after it is final. -/
def lowercaseAfter (before : List Char) : List Char → List Char
  | [] => []
  | c :: rest =>
    (if c = 'Σ' then
      [if leadsToCased before && !leadsToCased rest then 'ς' else 'σ']
    else lowerChar c) ++ lowercaseAfter (c :: before) rest

/-- The text in small letters. -/
def lowercase (s : List Char) : List Char := lowercaseAfter [] s

/-! A plain letter keeps its length, a dotted capital I does not. -/

example : lowercase "QA-Σ.ΑΣ".toList = "qa-σ.ας".toList := by decide +kernel
example : lowercase ['İ'] = ['i', '\u0307'] := by decide +kernel

end Delivery.Text
