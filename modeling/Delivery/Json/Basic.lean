import Delivery.Double.Shortest
import Delivery.Table

/-!
# JSON values

A value keeps the members of an object in the order they are written. `record` is the object
whose members are sorted by name, the form in which payloads are passed around.
-/

namespace Delivery

/-- A JSON value. -/
inductive Json where
  | null
  | bool (b : Bool)
  | int (n : Int)
  | float (d : Double)
  | text (s : String)
  | list (items : List Json)
  | object (members : List (String × Json))
  deriving Inhabited

namespace Json

/-- The object with the given members, sorted by name; of two with one name the later counts. -/
def record (members : List (String × Json)) : Json :=
  .object (members.foldl (fun l m => Table.place m.1 m.2 l) [])

/-- The member of an object with a name. -/
def member? (name : String) : Json → Option Json
  | .object members => members.lookup name
  | _ => none

/-- The text, when the value is one. -/
def text? : Json → Option String
  | .text s => some s
  | _ => none

/-! ## Printing

The compact form: no blanks, members in the order kept, only what must be escaped escaped. -/

/-- The form of one character inside a JSON string. -/
def escape (c : Char) : List Char :=
  if c = '\x22' then ['\\', '\x22']
  else if c = '\\' then ['\\', '\\']
  else if c = '\x08' then ['\\', 'b']
  else if c = '\x0c' then ['\\', 'f']
  else if c = '\n' then ['\\', 'n']
  else if c = '\r' then ['\\', 'r']
  else if c = '\t' then ['\\', 't']
  else if c.toNat < 0x20 then
    ['\\', 'u', '0', '0', Nat.digitChar (c.toNat / 16), Nat.digitChar (c.toNat % 16)]
  else [c]

/-- A string in its JSON form. -/
def quoted (s : String) : List Char := '\x22' :: s.toList.flatMap escape ++ ['\x22']

/-- A number in its JSON form; what is not finite has none and is written as null. -/
def number (d : Double) : List Char :=
  match d with
  | .finite .. => (Double.json.text d).toList
  | _ => "null".toList

mutual

/-- The characters of a value in compact form. -/
def render : Json → List Char
  | .null => "null".toList
  | .bool b => if b then "true".toList else "false".toList
  | .int n => (toString n).toList
  | .float d => number d
  | .text s => quoted s
  | .list items => '[' :: renderItems items ++ [']']
  | .object members => '\x7b' :: renderMembers members ++ ['\x7d']

/-- The items of a list, separated by commas. -/
def renderItems : List Json → List Char
  | [] => []
  | [v] => render v
  | v :: rest => render v ++ ',' :: renderItems rest

/-- The members of an object, separated by commas. -/
def renderMembers : List (String × Json) → List Char
  | [] => []
  | [(k, v)] => quoted k ++ ':' :: render v
  | (k, v) :: rest => quoted k ++ ':' :: render v ++ ',' :: renderMembers rest

end

/-- The text of a value in compact form. -/
def compact (v : Json) : String := String.ofList v.render

end Json

end Delivery
