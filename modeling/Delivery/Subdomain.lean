/-!
# Subdomain names

A resource is stored under a DNS subdomain name: labels of small letters, digits and hyphens,
joined by dots, each starting and ending with a letter or a digit, and 253 bytes at most.
-/

namespace Delivery.Subdomain

/-- The longest subdomain name, in bytes. -/
def longest : Nat := 253

/-- Small letters and digits. -/
def isAlphanumeric (c : Char) : Bool := ('a' ≤ c && c ≤ 'z') || ('0' ≤ c && c ≤ '9')

/-- Where a scan for the labels of a name stands: before the first character of a label, or after
a character that could, or could not, be the label's last. -/
inductive Position where
  | labelStart
  | mayEnd
  | mustGoOn
  deriving DecidableEq

/-- The position after one more character; none when it cannot stand there. -/
def Position.next (p : Position) (c : Char) : Option Position :=
  if isAlphanumeric c then some .mayEnd
  else match p with
    | .labelStart => none
    | .mayEnd => if c = '-' then some .mustGoOn else if c = '.' then some .labelStart else none
    | .mustGoOn => if c = '-' then some .mustGoOn else none

/-- Scans the characters of a name from a position on. -/
def scan : Position → List Char → Bool
  | p, [] => p = .mayEnd
  | p, c :: rest =>
    match p.next c with
    | some p => scan p rest
    | none => false

/-- True for the names that a resource may be stored under. -/
def isSubdomain (name : String) : Bool :=
  name.utf8ByteSize ≤ longest && scan .labelStart name.toList

example : isSubdomain "qa.0189abcd.abcdef0" = true := by decide +kernel
example : isSubdomain "a-.b" = false ∧ isSubdomain "" = false ∧ isSubdomain "a..b" = false := by
  decide +kernel

end Delivery.Subdomain
