import Delivery.Json.Basic
import Delivery.Json.Lexer

/-!
# JSON documents as written

A `Node` is a value of a JSON text with the place where the text breaks off, if it does: a list or
an object records how it ends. A decoder walks the nodes in order and meets a fault exactly where
reading the text would, so whichever comes first in the text decides: a value of the wrong shape
or a fault of the text.

* `Document.ofText` reads a text;
* `Node.ofJson` is the faultless node of a value.
-/

namespace Delivery.Json

/-- How the text of a list or an object ends. -/
inductive Ending where
  /-- With its bracket. -/
  | closed
  /-- The text stops after a value, or right after the opening bracket. -/
  | cut
  /-- The text stops after a comma. -/
  | cutAfterComma
  /-- Something else than a comma or the bracket follows. -/
  | broken
  /-- Something else than a key stands where a key is due. -/
  | stray (t : Token)
  deriving DecidableEq

/-- A value as it stands in a text. -/
inductive Node where
  | scalar (s : Scalar)
  | list (items : List Node) (ending : Ending)
  /-- Keys are none when they hold half of a surrogate pair. -/
  | object (fields : List (Option String × Node)) (ending : Ending)

instance : Inhabited Node := ⟨.scalar .absent⟩

/-- A whole text: its value, and whether anything but blanks follows. -/
structure Document where
  root : Node
  trailing : Bool

/-! ## Reading -/

/-- A list or an object that is not closed yet. -/
inductive Frame where
  /-- A list with its items so far, newest first. -/
  | list (items : List Node)
  /-- An object with its fields so far, newest first. -/
  | object (fields : List (Option String × Node))
  /-- An object that waits for the value of a key. -/
  | field (fields : List (Option String × Node)) (key : Option String)

/-- What is due next. -/
inductive Due where
  /-- The first item of a list, or its end. -/
  | firstItem
  /-- A value. -/
  | value
  /-- A comma or the end of a list. -/
  | afterItem
  /-- The first key of an object, or its end. -/
  | firstKey
  /-- A key. -/
  | key
  /-- A colon. -/
  | colon
  /-- A comma or the end of an object. -/
  | afterField

/-- The document whose reading stopped inside the open frames at a node. -/
def collapse (n : Node) : List Frame → Node
  | [] => n
  | .list items :: outer => collapse (.list (n :: items).reverse .cut) outer
  | .object fields :: outer => collapse (.object fields.reverse .cut) outer
  | .field fields key :: outer => collapse (.object ((key, n) :: fields).reverse .cut) outer

/-- The frames and what is due after a value has been read; none when it was the outermost. -/
def plug (n : Node) : List Frame → Option (List Frame × Due)
  | [] => none
  | .list items :: outer => some (.list (n :: items) :: outer, .afterItem)
  | .object fields :: outer => some (.object fields :: outer, .afterField)
  | .field fields key :: outer => some (.object ((key, n) :: fields) :: outer, .afterField)

/-- The innermost frame ended in the given way, and everything around it cut short. -/
def breakOff (ending : Ending) : List Frame → Node
  | .list items :: outer => collapse (.list items.reverse ending) outer
  | .object fields :: outer => collapse (.object fields.reverse ending) outer
  | frames => collapse (.scalar .absent) frames

/-- The end of a text that stops where something is due. -/
def atEnd (frames : List Frame) : Due → Node
  | .firstItem | .afterItem | .firstKey | .afterField => breakOff .cut frames
  | .key => breakOff .cutAfterComma frames
  | .value =>
    match frames with
    | .list _ :: _ => breakOff .cutAfterComma frames
    | _ => collapse (.scalar .absent) frames
  | .colon => collapse (.scalar .absent) frames

/-- What becomes of the open frames when a token is read. -/
inductive Step where
  /-- Reading goes on. -/
  | next (frames : List Frame) (due : Due)
  /-- The outermost value is read. -/
  | finished (n : Node)
  /-- Reading cannot go on. -/
  | stopped (n : Node)

/-- Goes on after a value. -/
def Step.after (n : Node) (frames : List Frame) : Step :=
  match plug n frames with
  | none => .finished n
  | some (frames, due) => .next frames due

/-- Reads the token that closes the innermost frame. -/
def Step.close : List Frame → Step
  | .list items :: outer => .after (.list items.reverse .closed) outer
  | .object fields :: outer => .after (.object fields.reverse .closed) outer
  | frames => .stopped (collapse (.scalar .malformed) frames)

/-- Reads the token that a value begins with. -/
def Step.value (frames : List Frame) (t : Token) : Step :=
  match t with
  | .openList => .next (.list [] :: frames) .firstItem
  | .openObject => .next (.object [] :: frames) .firstKey
  | .scalar s =>
    if t.isLast then .stopped (collapse (.scalar s) frames) else .after (.scalar s) frames
  | _ => .stopped (collapse (.scalar .malformed) frames)

/-- Reads the token of a key. -/
def Step.key (frames : List Frame) (t : Token) : Step :=
  match t, frames with
  | .scalar (.text k), .object fields :: outer => .next (.field fields k :: outer) .colon
  | _, _ => .stopped (breakOff (.stray t) frames)

/-- Reads a token where something is due. -/
def Step.read (frames : List Frame) (due : Due) (t : Token) : Step :=
  match due, t with
  | .firstItem, .closeList => .close frames
  | .firstItem, _ => .value frames t
  | .value, _ => .value frames t
  | .afterItem, .closeList => .close frames
  | .afterItem, .comma => .next frames .value
  | .afterItem, _ => .stopped (breakOff .broken frames)
  | .firstKey, .closeObject => .close frames
  | .firstKey, _ => .key frames t
  | .key, _ => .key frames t
  | .colon, .colon => .next frames .value
  | .colon, _ => .stopped (collapse (.scalar .malformed) frames)
  | .afterField, .closeObject => .close frames
  | .afterField, .comma => .next frames .key
  | .afterField, _ => .stopped (breakOff .broken frames)

/-- Reads tokens into the open frames, from what is due first. -/
def assemble (frames : List Frame) (due : Due) : List Token → Document
  | [] => ⟨atEnd frames due, false⟩
  | t :: rest =>
    match Step.read frames due t with
    | .next frames due => assemble frames due rest
    -- Any token left over follows the value.
    | .finished n => ⟨n, !rest.isEmpty⟩
    | .stopped n => ⟨n, false⟩

/-- The document of a text. -/
def Document.ofText (s : String) : Document := assemble [] .value (tokens s.toList)

/-! ## Nodes and values -/

mutual

/-- The node of a value. -/
def Node.ofJson : Json → Node
  | .null => .scalar .null
  | .bool b => .scalar (.bool b)
  | .int n => .scalar (.int n)
  | .float d => .scalar (.float (some d))
  | .text s => .scalar (.text (some s))
  | .list items => .list (ofItems items) .closed
  | .object members => .object (ofMembers members) .closed

/-- The nodes of a list's items. -/
def Node.ofItems : List Json → List Node
  | [] => []
  | v :: rest => Node.ofJson v :: Node.ofItems rest

/-- The nodes of an object's members. -/
def Node.ofMembers : List (String × Json) → List (Option String × Node)
  | [] => []
  | (k, v) :: rest => (some k, Node.ofJson v) :: Node.ofMembers rest

end

mutual

/-- The value of a node without faults; members are sorted by name, the last of one name counts. -/
def Node.toJson? : Node → Option Json
  | .scalar .null => some .null
  | .scalar (.bool b) => some (.bool b)
  | .scalar (.int n) => some (.int n)
  | .scalar (.float (some d)) => some (.float d)
  | .scalar (.text (some s)) => some (.text s)
  | .scalar _ => none
  | .list items .closed => (Node.toItems? items).map .list
  | .object fields .closed => (Node.toMembers? fields).map Json.record
  | _ => none

/-- The values of a list's items. -/
def Node.toItems? : List Node → Option (List Json)
  | [] => some []
  | n :: rest => do return (← Node.toJson? n) :: (← Node.toItems? rest)

/-- The values of an object's fields. -/
def Node.toMembers? : List (Option String × Node) → Option (List (String × Json))
  | [] => some []
  | (some k, n) :: rest => do return (k, ← Node.toJson? n) :: (← Node.toMembers? rest)
  | (none, _) :: _ => none

end

/-- The value of a text, when the text is a faultless document. -/
def parse? (s : String) : Option Json :=
  let d := Document.ofText s
  if d.trailing then none else d.root.toJson?

end Delivery.Json
