import Delivery.Json.Node
import Delivery.Text.Quoted
import Delivery.Timestamp.Reader

/-!
# Decoding

A decoder turns a node into a typed value or says why not: because the text breaks off (`cut`),
because it is no JSON (`malformed`), or because a value has the wrong shape (`mismatch`). Nodes are
walked in the order of the text and the first fault counts.

A structure is described once, as a `Shape`: its fields in declared order. From a shape follow
both of its written forms, the object with named fields and the list of the fields in order.
-/

namespace Delivery.Json

/-! ## Faults -/

/-- What stands where something else is expected. -/
inductive Found where
  | null
  | bool (b : Bool)
  | int (n : Int)
  | float (d : Double)
  | text (s : String)
  | list
  | object
  deriving DecidableEq

/-- The wording of what was found. -/
def Found.describe : Found → String
  | null => "null"
  | bool b => "boolean `" ++ (if b then "true" else "false") ++ "`"
  | int n => "integer `" ++ toString n ++ "`"
  | float d => "floating point `" ++ Double.json.text d ++ "`"
  | text s => "string " ++ Text.quote s
  | list => "sequence"
  | object => "map"

/-- Why a value does not fit. -/
inductive Mismatch where
  | type (found : Found) (expected : String)
  | range (n : Int) (expected : String)
  | length (found : Nat) (name : String) (fields : Nat)
  | missingField (name : String)
  | duplicateField (name : String)
  | unknownVariant (name : String) (known : List String)
  | timestamp (e : Timestamp.ReadError)
  deriving DecidableEq

/-- The names of the variants that would have been accepted. -/
def oneOf (known : List String) : String :=
  let ticked := known.map fun v => "`" ++ v ++ "`"
  match ticked with
  | [] => "there are no variants"
  | [a] => "expected " ++ a
  | [a, b] => "expected " ++ a ++ " or " ++ b
  | _ => "expected one of " ++ ", ".intercalate ticked

/-- The wording of a mismatch. -/
def Mismatch.message : Mismatch → String
  | type found expected => "invalid type: " ++ found.describe ++ ", expected " ++ expected
  | range n expected => "invalid value: integer `" ++ toString n ++ "`, expected " ++ expected
  | length found name fields =>
    "invalid length " ++ toString found ++ ", expected struct " ++ name ++ " with " ++
      toString fields ++ (if fields = 1 then " element" else " elements")
  | missingField name => "missing field `" ++ name ++ "`"
  | duplicateField name => "duplicate field `" ++ name ++ "`"
  | unknownVariant name known => "unknown variant `" ++ name ++ "`, " ++ oneOf known
  | timestamp e => e.message

/-- Why a text does not decode. -/
inductive Fault where
  /-- The text ends too early. -/
  | cut
  /-- The text is no JSON. -/
  | malformed
  /-- A value has the wrong shape. -/
  | mismatch (m : Mismatch)
  deriving DecidableEq

/-- Turns a node into a value. -/
abbrev Decoder (α : Type) := Node → Except Fault α

/-! ## Reading and passing over -/

/-- The fault met in reading a scalar. -/
def Scalar.readFault? : Scalar → Option Fault
  | .float none | .text none | .malformed => some .malformed
  | .cutNumber | .cutWord | .absent => some .cut
  | .cutText readable => some (if readable then .cut else .malformed)
  | _ => none

/-- The fault met in passing over a scalar: its value does not matter, and a number cut short is
not a number. -/
def Scalar.skipFault? : Scalar → Option Fault
  | .cutText _ | .cutWord | .absent => some .cut
  | .cutNumber | .malformed => some .malformed
  | _ => none

/-- The fault met in reading a key where there is none. -/
def keyFault : Token → Fault
  | .scalar (.cutText true) => .cut
  | _ => .malformed

/-- Passes over the end of a list or an object. -/
def Ending.skip : Ending → Except Fault Unit
  | .closed => .ok ()
  | .cut | .cutAfterComma => .error .cut
  | .broken => .error .malformed
  | .stray (.scalar (.cutText _)) => .error .cut
  | .stray _ => .error .malformed

mutual

/-- Passes over a value of any shape. -/
def Node.skip : Node → Except Fault Unit
  | .scalar s =>
    match s.skipFault? with
    | some f => .error f
    | none => .ok ()
  | .list items ending =>
    match Node.skipItems items with
    | .error f => .error f
    | .ok () => ending.skip
  | .object fields ending =>
    match Node.skipFields fields with
    | .error f => .error f
    | .ok () => ending.skip

/-- Passes over the items of a list. -/
def Node.skipItems : List Node → Except Fault Unit
  | [] => .ok ()
  | n :: rest =>
    match Node.skip n with
    | .error f => .error f
    | .ok () => Node.skipItems rest

/-- Passes over the fields of an object. -/
def Node.skipFields : List (Option String × Node) → Except Fault Unit
  | [] => .ok ()
  | (_, n) :: rest =>
    match Node.skip n with
    | .error f => .error f
    | .ok () => Node.skipFields rest

end

/-- The refusal of a node where something else is expected. -/
def refuse (expected : String) : Node → Fault
  | .list .. => .mismatch (.type .list expected)
  | .object .. => .mismatch (.type .object expected)
  | .scalar s =>
    match s with
    | .null => .mismatch (.type .null expected)
    | .bool b => .mismatch (.type (.bool b) expected)
    | .int n => .mismatch (.type (.int n) expected)
    | .float (some d) => .mismatch (.type (.float d) expected)
    | .text (some t) => .mismatch (.type (.text t) expected)
    | s => s.readFault?.getD .malformed

/-! ## Scalars -/

/-- A string. -/
def decodeString : Decoder String
  | .scalar (.text (some s)) => .ok s
  | n => .error (refuse "a string" n)

/-- A boolean. -/
def decodeBool : Decoder Bool
  | .scalar (.bool b) => .ok b
  | n => .error (refuse "a boolean" n)

/-- A natural number. -/
def decodeNat : Decoder Nat
  | .scalar (.int n) => if n < 0 then .error (.mismatch (.range n "usize")) else .ok n.toNat
  | n => .error (refuse "usize" n)

/-- A double; integers are rounded. -/
def decodeDouble : Decoder Double
  | .scalar (.int n) => .ok (Double.ofInt n)
  | .scalar (.float (some d)) => .ok d
  | n => .error (refuse "f64" n)

/-- A moment: none but a timestamp is ever read. -/
def decodeDateTime : Decoder DateTime
  | .scalar (.text (some s)) =>
    match Timestamp.read s with
    | .ok t => .ok t
    | .error e => .error (.mismatch (.timestamp e))
  | n => .error (refuse "an RFC 3339 formatted date and time string" n)

/-- A value or null. -/
def decodeOption {α : Type} (d : Decoder α) : Decoder (Option α)
  | .scalar .null => .ok none
  | n => (d n).map some

/-! ## Lists and maps -/

/-- Passes over the end of a list or an object in which more could have followed. -/
def Ending.finish : Ending → Except Fault Unit
  | .closed => .ok ()
  | .cut | .cutAfterComma => .error .cut
  | .broken => .error .malformed
  | .stray t => .error (keyFault t)

/-- The items of a list, in order. -/
def decodeItems {α : Type} (d : Decoder α) : List Node → Except Fault (List α)
  | [] => .ok []
  | n :: rest =>
    match d n with
    | .error f => .error f
    | .ok v =>
      match decodeItems d rest with
      | .error f => .error f
      | .ok vs => .ok (v :: vs)

/-- A list. -/
def decodeList {α : Type} (d : Decoder α) : Decoder (List α)
  | .list items ending =>
    match decodeItems d items with
    | .error f => .error f
    | .ok vs => ending.finish.map fun () => vs
  | n => .error (refuse "a sequence" n)

/-- The entries of a map, put one after another into a table. -/
def decodeEntries {α : Type} (d : Decoder α) (t : Table String α) :
    List (Option String × Node) → Except Fault (Table String α)
  | [] => .ok t
  | (none, _) :: _ => .error .malformed
  | (some k, n) :: rest =>
    match d n with
    | .error f => .error f
    | .ok v => decodeEntries d (t.insert k v) rest

/-- A map from strings; of two entries with one key the later counts. -/
def decodeTable {α : Type} (d : Decoder α) : Decoder (Table String α)
  | .object fields ending =>
    match decodeEntries d .empty fields with
    | .error f => .error f
    | .ok t => ending.finish.map fun () => t
  | n => .error (refuse "a map" n)

/-! ## Structures -/

/-- A field of a structure that is put together in `σ`. -/
structure FieldShape (σ : Type) where
  name : String
  /-- Reads the value into the parts gathered so far. -/
  read : Node → σ → Except Fault σ
  /-- Whether the value has been read. -/
  present : σ → Bool
  /-- Whether the structure lacks something without it. -/
  required : Bool

/-- A structure put together in `σ`: its name, its fields in declared order, and the value they
make once every required one is there. -/
structure Shape (σ α : Type) where
  name : String
  fields : List (FieldShape σ)
  start : σ
  build : σ → Option α

namespace Shape

variable {σ α : Type}

/-- The value of the parts, or the first field that is missing. -/
def finish (s : Shape σ α) (parts : σ) : Except Fault α :=
  match s.fields.find? fun f => f.required && !f.present parts with
  | some f => .error (.mismatch (.missingField f.name))
  | none =>
    match s.build parts with
    | some v => .ok v
    | none => .error .malformed

/-- Reads the fields of an object in the order they come; others than the known are passed over. -/
def readObject (s : Shape σ α) (parts : σ) : List (Option String × Node) → Except Fault σ
  | [] => .ok parts
  | (none, _) :: _ => .error .malformed
  | (some k, n) :: rest =>
    match s.fields.find? (·.name == k) with
    | none =>
      match n.skip with
      | .error f => .error f
      | .ok () => readObject s parts rest
    | some f =>
      -- A field that comes again is refused before its value is looked at.
      if f.present parts then .error (.mismatch (.duplicateField f.name))
      else
        match f.read n parts with
        | .error e => .error e
        | .ok parts => readObject s parts rest

/-- Reads the items of a list as the fields in order: the optional ones may be left out at the
end, and nothing may follow the last. -/
def readList (s : Shape σ α) (ending : Ending) (index : Nat) (parts : σ) :
    List (FieldShape σ) → List Node → Except Fault σ
  | [], [] =>
    match ending with
    | .closed => .ok parts
    | .cut => .error .cut
    | _ => .error .malformed
  | [], _ :: _ => .error .malformed
  | f :: fields, n :: items =>
    match f.read n parts with
    | .error e => .error e
    | .ok parts => readList s ending (index + 1) parts fields items
  | f :: fields, [] =>
    -- Fields are lacking; that counts only where the list ends as it should.
    match ending.finish with
    | .error e => .error e
    | .ok () =>
      if f.required then .error (.mismatch (.length index s.name s.fields.length))
      else readList s ending (index + 1) parts fields []

/-- Decodes a structure in either of its forms. -/
def decode (s : Shape σ α) : Decoder α
  | .object fields ending =>
    match s.readObject s.start fields with
    | .error f => .error f
    | .ok parts =>
      match ending.finish with
      | .error f => .error f
      | .ok () => s.finish parts
  | .list items ending =>
    match s.readList ending 0 s.start s.fields items with
    | .error f => .error f
    | .ok parts => s.finish parts
  | n => .error (refuse ("struct " ++ s.name) n)

end Shape

/-! ## Variants -/

/-- A variant by its name. -/
def variant {α : Type} (known : List (String × α)) (name : String) : Except Fault α :=
  match known.lookup name with
  | some v => .ok v
  | none => .error (.mismatch (.unknownVariant name (known.map Prod.fst)))

/-- One of the known variants: a string, or an object with the variant as its only key and null
as the value. -/
def decodeVariant {α : Type} (known : List (String × α)) : Decoder α
  | .scalar (.text (some name)) => variant known name
  | .scalar (.text none) => .error .malformed
  | .scalar .absent => .error .cut
  | .scalar (.cutText readable) => .error (if readable then .cut else .malformed)
  | .object ((none, _) :: _) _ => .error .malformed
  | .object ((some name, n) :: rest) ending =>
    match variant known name with
    | .error f => .error f
    | .ok v =>
      match n with
      | .scalar .null =>
        match rest, ending with
        | [], .closed => .ok v
        | [], .cut => .error .cut
        | _, _ => .error .malformed
      | n => .error (refuse "unit" n)
  | .object [] ending =>
    match ending with
    | .cut => .error .cut
    | .stray t => .error (keyFault t)
    | _ => .error .malformed
  | _ => .error .malformed

/-- Decodes a whole document: nothing but blanks may follow the value. -/
def Document.decode {α : Type} (d : Decoder α) (doc : Document) : Except Fault α :=
  match d doc.root with
  | .error f => .error f
  | .ok v => if doc.trailing then .error .malformed else .ok v

/-- Decodes a text. -/
def decodeText {α : Type} (d : Decoder α) (s : String) : Except Fault α :=
  (Document.ofText s).decode d

/-- Decodes a value. -/
def decodeJson {α : Type} (d : Decoder α) (v : Json) : Except Fault α := d (.ofJson v)

end Delivery.Json
