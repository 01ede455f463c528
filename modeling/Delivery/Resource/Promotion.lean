import Delivery.Resource.Stage
import Delivery.Text.Lowercase
import Delivery.Text.Hex

/-!
# Promotions

A promotion is the request to move a stage onto a freight. It is named after the two and after an
identifier of its own, `<stage>.<id>.<freight>`: the first 212 characters of the stage's name, the
32 digits of the identifier and the first 7 characters of the freight's name, all in small letters.
Two promotions of one stage onto one freight differ in the identifier.
-/

namespace Delivery

/-- What a promotion asks for. -/
structure PromotionSpec where
  stage : String
  freight : String
  deriving DecidableEq

/-- The request to move a stage onto a freight. -/
structure Promotion where
  metadata : Metadata
  spec : PromotionSpec
  deriving DecidableEq

/-- The identifier of a promotion. -/
structure PromotionId where
  bits : BitVec 128
  deriving DecidableEq, Inhabited

namespace PromotionId

/-- The identifier with all bits clear. -/
def nil : PromotionId := ⟨0⟩

/-- The identifier that counts up to a number. -/
def ofNat (n : Nat) : PromotionId := ⟨BitVec.ofNat 128 n⟩

/-- The last `n` hexadecimal digits of a number, small letters. -/
def hexDigits : Nat → Nat → List Char
  | 0, _ => []
  | n + 1, v => hexDigits n (v / 16) ++ [Nat.digitChar (v % 16)]

/-- The 32 digits of an identifier. -/
def digits (id : PromotionId) : List Char := hexDigits 32 id.bits.toNat

/-- The identifier that a text denotes: 32 hexadecimal digits, or 8, 4, 4, 4 and 12 of them with
hyphens between. -/
def ofText? (s : String) : Option PromotionId :=
  let groups := (s.splitOn "-").map String.toList
  let lengths := groups.map List.length
  if lengths = [32] || lengths = [8, 4, 4, 4, 12] then
    (Text.hexValue? groups.flatten).map ofNat
  else none

end PromotionId

namespace Promotion

/-- The promotion's own name. -/
def name (p : Promotion) : String := p.metadata.name

/-- The project the promotion belongs to. -/
def project (p : Promotion) : String := p.metadata.project

/-- The identity of the promotion. -/
def key (p : Promotion) : Key := p.metadata.key

/-- The stage to be moved. -/
def stage (p : Promotion) : String := p.spec.stage

/-- The freight to move onto. -/
def freight (p : Promotion) : String := p.spec.freight

/-! ## Names -/

/-- The longest name that a stored resource may have. -/
def longestName : Nat := 253

/-- How many characters of the freight's name are kept. -/
def freightLength : Nat := 7

/-- How many digits an identifier has. -/
def idLength : Nat := 32

/-- How many characters of the stage's name are kept: what the longest name leaves beside the
identifier, the freight and two separators. -/
def stageLength : Nat := longestName - idLength - freightLength - 2

/-- The characters of the name of a promotion. -/
def nameChars (stage freight : List Char) (id : PromotionId) : List Char :=
  Text.lowercase
    (stage.take stageLength ++ '.' :: id.digits ++ '.' :: freight.take freightLength)

/-- The name of a promotion of a stage onto a freight. -/
def nameFor (stage freight : String) (id : PromotionId) : String :=
  String.ofList (nameChars stage.toList freight.toList id)

/-! ## Building -/

/-- What a promotion is stamped with when it is built: an identifier, and the time of a clock. -/
structure Stamp where
  id : PromotionId
  created : Timestamp

/-- The promotion of a stage onto a freight. It belongs to the stage's project and the stage owns
it. -/
def build (stage : Stage) (freight : String) (stamp : Stamp) : Promotion where
  metadata :=
    { project := stage.project
      name := nameFor stage.name freight stamp.id
      owners := [⟨"Stage", stage.name⟩]
      created := some stamp.created }
  spec := ⟨stage.name, freight⟩

end Promotion

end Delivery
