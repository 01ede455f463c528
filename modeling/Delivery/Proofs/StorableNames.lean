import Delivery.Proofs.Names
import Delivery.Proofs.StoreStates

/-!
# Names that can be stored

A promotion's name is put together from the first characters of two other names. Whether it is a
subdomain when they are is decided where they are cut: a part that is cut behind a hyphen or a dot
spoils it (`Promotion.isSubdomain_nameFor`), nothing else does (`Store.refuses_name_iff`).
-/

namespace Delivery

namespace Subdomain

/-- The position after some characters; none when one of them cannot stand where it does. -/
def Position.after (p : Position) (s : List Char) : Option Position := s.foldlM Position.next p

theorem scan_eq (p : Position) (s : List Char) : scan p s = decide (p.after s = some .mayEnd) := by
  induction s generalizing p with
  | nil => simp [scan, Position.after]
  | cons c rest ih =>
      rw [scan, Position.after, List.foldlM_cons]
      cases p.next c with
      | none => rfl
      | some q => exact ih q

theorem Position.after_append (p : Position) (a b : List Char) :
    p.after (a ++ b) = (p.after a).bind fun q => q.after b := List.foldlM_append

/-- The position behind a character does not depend on what stands before. -/
theorem Position.eq_mayEnd_of_next {p q : Position} {c : Char} (h : p.next c = some q) :
    q = .mayEnd ↔ isAlphanumeric c = true := by
  unfold Position.next at h
  cases hc : isAlphanumeric c with
  | true => simp_all
  | false =>
      rw [hc, if_neg (by decide)] at h
      cases p with
      | labelStart => cases h
      | mayEnd => grind
      | mustGoOn => grind

/-- A part of a name ends like a label: with a letter or a digit. -/
def EndsLabel (s : List Char) : Prop := ∃ c ∈ s.getLast?, isAlphanumeric c = true

instance (s : List Char) : Decidable (EndsLabel s) :=
  decidable_of_iff (s.getLast?.any isAlphanumeric = true) (by simp [EndsLabel, Option.any_eq_true])

theorem Position.eq_mayEnd_of_after {p q : Position} {s : List Char} (hs : s ≠ [])
    (h : p.after s = some q) : q = .mayEnd ↔ EndsLabel s := by
  obtain ⟨before, c, rfl⟩ := List.eq_nil_or_concat s |>.resolve_left hs
  rw [List.concat_eq_append, Position.after_append] at h
  obtain ⟨x, -, hc⟩ := Option.bind_eq_some_iff.1 h
  have hnext : x.next c = some q := by simpa [Position.after] using hc
  rw [Position.eq_mayEnd_of_next hnext]
  simp [EndsLabel]

theorem Position.after_alphanumeric {s : List Char} (hs : s ≠ [])
    (h : ∀ c ∈ s, isAlphanumeric c = true) (p : Position) : p.after s = some .mayEnd := by
  induction s generalizing p with
  | nil => exact absurd rfl hs
  | cons c rest ih =>
      have hnext : p.next c = some .mayEnd := by
        unfold Position.next
        rw [if_pos (h c List.mem_cons_self)]
      rw [Position.after, List.foldlM_cons, hnext]
      cases rest with
      | nil => rfl
      | cons d rest => exact ih (List.cons_ne_nil _ _) (fun e he => h e (List.mem_cons_of_mem _ he)) _

/-- A dot stands only where a label may end, and another label begins behind it. -/
theorem Position.after_dot (p : Position) (s : List Char) :
    p.after ('.' :: s) = if p = .mayEnd then Position.after .labelStart s else none := by
  cases p <;> rfl

/-- Cutting a name leaves something that can be gone on from. -/
theorem exists_after_take {p : Position} {s : List Char} (h : scan p s = true) (n : Nat) :
    ∃ q, p.after (s.take n) = some q := by
  rw [scan_eq, decide_eq_true_eq, ← List.take_append_drop n s, Position.after_append] at h
  obtain ⟨q, hq, -⟩ := Option.bind_eq_some_iff.1 h
  exact ⟨q, hq⟩

theorem ne_nil_of_scan {s : List Char} (h : scan .labelStart s = true) : s ≠ [] := by
  rintro rfl
  cases h

/-! ## The characters of a name -/

/-- Small letters, digits, hyphens and dots. -/
def isNameChar (c : Char) : Bool := isAlphanumeric c || c = '-' || c = '.'

theorem isNameChar_of_next {p q : Position} {c : Char} (h : p.next c = some q) :
    isNameChar c = true := by
  unfold Position.next at h
  unfold isNameChar
  grind

theorem isNameChar_of_scan {p : Position} {s : List Char} (h : scan p s = true) :
    ∀ c ∈ s, isNameChar c = true := by
  induction s generalizing p with
  | nil => exact fun c hc => absurd hc List.not_mem_nil
  | cons c rest ih =>
      rw [scan] at h
      split at h
      · rename_i q hq
        intro d hd
        rcases List.mem_cons.1 hd with rfl | hd
        · exact isNameChar_of_next hq
        · exact ih h d hd
      · cases h

theorem toNat_lt_of_isNameChar {c : Char} (h : isNameChar c = true) : c.toNat < 128 := by
  simp only [isNameChar, isAlphanumeric, Bool.or_eq_true, Bool.and_eq_true, decide_eq_true_eq,
    Char.le_def, UInt32.le_iff_toNat_le] at h
  show c.val.toNat < 128
  rcases h with ((⟨-, h⟩ | ⟨-, h⟩) | rfl) | rfl
  · exact Nat.lt_of_le_of_lt h (by decide)
  · exact Nat.lt_of_le_of_lt h (by decide)
  · decide
  · decide

/-- Names are in small letters already. -/
theorem isPlain_of_isNameChar {c : Char} (h : isNameChar c = true) : Text.IsPlain c := by
  have hall : ∀ n < 128, isNameChar (Char.ofNat n) = true →
      Char.ofNat n ≠ 'Σ' ∧ Text.lowerChar (Char.ofNat n) = [Char.ofNat n] := by decide +kernel
  have hc := hall c.toNat (toNat_lt_of_isNameChar h)
  rw [Char.ofNat_toNat] at hc
  exact hc h

/-- A name is as long in bytes as in characters. -/
theorem utf8ByteSize_ofList {s : List Char} (h : ∀ c ∈ s, isNameChar c = true) :
    (String.ofList s).utf8ByteSize = s.length := by
  induction s with
  | nil => rfl
  | cons c rest ih =>
      have hc : c.utf8Size = 1 := by
        rw [Char.utf8Size_eq_one_iff, UInt32.le_iff_toNat_le]
        exact Nat.le_of_lt_succ (toNat_lt_of_isNameChar (h c List.mem_cons_self))
      rw [← List.singleton_append, String.ofList_append, String.utf8ByteSize_append,
        ih fun d hd => h d (List.mem_cons_of_mem _ hd)]
      simp [hc, Nat.add_comm]

end Subdomain

namespace PromotionId

theorem digits_alphanumeric (id : PromotionId) :
    ∀ c ∈ id.digits, Subdomain.isAlphanumeric c = true := by
  have hdigit : ∀ d < 16, Subdomain.isAlphanumeric (Nat.digitChar d) = true := by decide
  have hall (n v : Nat) : ∀ c ∈ hexDigits n v, Subdomain.isAlphanumeric c = true := by
    induction n generalizing v with
    | zero => exact fun c hc => absurd hc List.not_mem_nil
    | succ n ih =>
        intro c hc
        rcases List.mem_append.1 hc with hc | hc
        · exact ih _ c hc
        · obtain rfl := List.mem_singleton.1 hc
          exact hdigit _ (Nat.mod_lt _ (by decide))
  exact hall 32 _

end PromotionId

namespace Promotion

open Subdomain

/-- The parts of the names that a promotion is named after, as far as they are kept. -/
def keptStage (stage : String) : List Char := stage.toList.take stageLength

def keptFreight (freight : String) : List Char := freight.toList.take freightLength

/-- Subdomain names stand in the name of a promotion as they are. -/
theorem nameChars_eq {stage freight : String} (hstage : isSubdomain stage = true)
    (hfreight : isSubdomain freight = true) (id : PromotionId) :
    nameChars stage.toList freight.toList id =
        keptStage stage ++ '.' :: id.digits ++ '.' :: keptFreight freight ∧
      ∀ c ∈ keptStage stage ++ '.' :: id.digits ++ '.' :: keptFreight freight,
        isNameChar c = true := by
  obtain ⟨-, hstage⟩ := Bool.and_eq_true_iff.1 hstage
  obtain ⟨-, hfreight⟩ := Bool.and_eq_true_iff.1 hfreight
  have hchars : ∀ c ∈ keptStage stage ++ '.' :: id.digits ++ '.' :: keptFreight freight,
      isNameChar c = true := by
    intro c hc
    simp only [List.mem_append, List.mem_cons] at hc
    rcases hc with (hc | rfl | hc) | rfl | hc
    · exact isNameChar_of_scan hstage c (List.mem_of_mem_take hc)
    · decide
    · simp [isNameChar, id.digits_alphanumeric c hc]
    · decide
    · exact isNameChar_of_scan hfreight c (List.mem_of_mem_take hc)
  refine ⟨?_, hchars⟩
  have hplain := Text.lowercaseAfter_plain (fun c hc => isPlain_of_isNameChar (hchars c hc)) [] []
  rw [List.append_nil] at hplain
  rw [nameChars, Text.lowercase]
  exact hplain.trans (List.append_nil _)

/-- The scan of a promotion's name is over two parts that were cut, with the identifier between. -/
theorem scan_nameChars {stage freight : List Char} {p q : Position} (hstage : stage ≠ [])
    (hfreight : freight ≠ []) (hp : Position.after .labelStart stage = some p)
    (hq : Position.after .labelStart freight = some q) (id : PromotionId) :
    scan .labelStart (stage ++ '.' :: id.digits ++ '.' :: freight) = true ↔
      EndsLabel stage ∧ EndsLabel freight := by
  have hdigits : Position.after .labelStart id.digits = some .mayEnd := by
    refine Position.after_alphanumeric ?_ id.digits_alphanumeric _
    exact List.ne_nil_of_length_pos (by rw [PromotionId.digits, PromotionId.length_hexDigits]; decide)
  rw [← Position.eq_mayEnd_of_after hstage hp, ← Position.eq_mayEnd_of_after hfreight hq, scan_eq,
    decide_eq_true_eq, List.append_assoc, Position.after_append, hp]
  show p.after ('.' :: (id.digits ++ '.' :: freight)) = some .mayEnd ↔ _
  rw [Position.after_dot, Position.after_append, hdigits]
  show (if p = .mayEnd then Position.after .mayEnd ('.' :: freight) else none) = _ ↔ _
  rw [Position.after_dot, if_pos rfl, hq]
  by_cases hp : p = .mayEnd
  · simp [hp]
  · simp [hp]

/-- **A promotion's name is a subdomain when both parts end like labels where they were cut**, if the
two names it was made of are subdomains. -/
theorem isSubdomain_nameFor {stage freight : String} (hstage : isSubdomain stage = true)
    (hfreight : isSubdomain freight = true) (id : PromotionId) :
    isSubdomain (nameFor stage freight id) = true ↔
      EndsLabel (keptStage stage) ∧ EndsLabel (keptFreight freight) := by
  obtain ⟨heq, hchars⟩ := nameChars_eq hstage hfreight id
  obtain ⟨-, hstage⟩ := Bool.and_eq_true_iff.1 hstage
  obtain ⟨-, hfreight⟩ := Bool.and_eq_true_iff.1 hfreight
  -- Neither part is empty, and each can be gone on from.
  have hstage_ne : keptStage stage ≠ [] := by
    have hpos : stageLength ≠ 0 := by decide
    simp [keptStage, hpos, ne_nil_of_scan hstage]
  have hfreight_ne : keptFreight freight ≠ [] := by
    simp [keptFreight, freightLength, ne_nil_of_scan hfreight]
  obtain ⟨p, hp⟩ := exists_after_take hstage stageLength
  obtain ⟨q, hq⟩ := exists_after_take hfreight freightLength
  have hlength : (String.ofList (keptStage stage ++ '.' :: id.digits ++ '.' ::
      keptFreight freight)).utf8ByteSize ≤ longest := by
    have hs : (keptStage stage).length ≤ 212 := List.length_take_le _ _
    have hf : (keptFreight freight).length ≤ 7 := List.length_take_le _ _
    have hd : id.digits.length = 32 := PromotionId.length_hexDigits _ _
    rw [utf8ByteSize_ofList hchars]
    simp only [List.length_append, List.length_cons, hd, longest]
    omega
  rw [isSubdomain, nameFor, heq, String.toList_ofList, decide_eq_true hlength, Bool.true_and]
  exact scan_nameChars hstage_ne hfreight_ne hp hq id

/-- What is not cut ends like a label. -/
theorem endsLabel_take {name : String} (h : isSubdomain name = true) {n : Nat}
    (hn : name.toList.length ≤ n) : EndsLabel (name.toList.take n) := by
  obtain ⟨-, h⟩ := Bool.and_eq_true_iff.1 h
  rw [List.take_of_length_le hn]
  have hscan := h
  rw [scan_eq, decide_eq_true_eq] at hscan
  exact (Position.eq_mayEnd_of_after (ne_nil_of_scan h) hscan).1 rfl

/-- Promotions of stages and freights with short names can always be stored. -/
theorem isSubdomain_nameFor_of_short {stage freight : String} (hstage : isSubdomain stage = true)
    (hfreight : isSubdomain freight = true) (hs : stage.toList.length ≤ stageLength)
    (hf : freight.toList.length ≤ freightLength) (id : PromotionId) :
    isSubdomain (nameFor stage freight id) = true :=
  (isSubdomain_nameFor hstage hfreight id).2
    ⟨endsLabel_take hstage hs, endsLabel_take hfreight hf⟩

end Promotion

namespace Store

open Subdomain Promotion

/-- A creation is answered with a bad name only for that reason. -/
theorem create_eq_invalid (s : Store) (p : Promotion) :
    (∃ message, (s.create (.promotion p)).1 = .error (.invalid message)) ↔
      s.unavailable = false ∧ isSubdomain p.name = false := by
  have hcreate (message) : (s.create (.promotion p)).1 = .error (.invalid message) ↔
      s.refusal? (.promotion p) = some (.invalid message) := by
    rcases s.create_cases (.promotion p) with ⟨e, he, h⟩ | ⟨he, -, h⟩
    · simp [h, he]
    · simp [h, he]
  simp only [hcreate]
  have hname : (Resource.promotion p).metadata.name = p.name := rfl
  unfold refusal? ensureAvailable
  rw [hname]
  cases hdown : s.unavailable with
  | true => simp
  | false =>
      cases hsub : isSubdomain p.name with
      | false => simp
      | true =>
          -- Neither an injected failure nor a name that is taken is answered as a bad name.
          cases hinjected : s.injected? (.promotion p) with
          | some e =>
              obtain ⟨message, -, rfl⟩ := Option.map_eq_some_iff.1 hinjected
              simp
          | none => cases htaken : s.created.contains (Resource.promotion p).identity <;> simp

/-- **Whether a promotion can be stored.** For a stage and a freight with subdomain names, a
promotion's name is a subdomain, and a store never answers that it is not, unless one of the two
names is cut behind a hyphen or a dot. -/
theorem refuses_name_iff (stage : Stage) (freight : String)
    (hstage : isSubdomain stage.name = true) (hfreight : isSubdomain freight = true)
    (stamp : Promotion.Stamp) (s : Store) :
    (isSubdomain (Promotion.build stage freight stamp).name = true ↔
      EndsLabel (keptStage stage.name) ∧ EndsLabel (keptFreight freight)) ∧
    ((∃ message, (s.create (.promotion (.build stage freight stamp))).1 =
        .error (.invalid message)) ↔
      s.unavailable = false ∧
        ¬ (EndsLabel (keptStage stage.name) ∧ EndsLabel (keptFreight freight))) := by
  have hname : isSubdomain (Promotion.build stage freight stamp).name = true ↔ _ :=
    isSubdomain_nameFor hstage hfreight stamp.id
  refine ⟨hname, ?_⟩
  rw [create_eq_invalid, ← hname, Bool.not_eq_true]

theorem refuses_name_iff_hyphen :
    isSubdomain "qa" = true ∧ isSubdomain "abcdef-0" = true ∧
      ∃ message, (empty.create (.promotion (.build (.named "proj" "qa") "abcdef-0"
        ⟨.ofNat 1, default⟩))).1 = .error (.invalid message) := by
  have hqa : isSubdomain "qa" = true := by decide +kernel
  have hfreight : isSubdomain "abcdef-0" = true := by decide +kernel
  refine ⟨hqa, hfreight, ?_⟩
  exact (refuses_name_iff (.named "proj" "qa") "abcdef-0" hqa hfreight ⟨.ofNat 1, default⟩
    empty).2.2 ⟨rfl, by decide +kernel⟩

/-- A store refuses the promotion of a stage onto a freight although both have good names. -/
theorem cut_behind_hyphen :
    isSubdomain "qa" = true ∧ isSubdomain "abcdef-0" = true ∧
      isSubdomain (Promotion.build (.named "proj" "qa") "abcdef-0" ⟨.ofNat 1, default⟩).name =
        false ∧
      (empty.create (.promotion (.build (.named "proj" "qa") "abcdef-0"
        ⟨.ofNat 1, default⟩))).1 =
        .error (.invalid ("Promotion name " ++
          Text.quote "qa.00000000000000000000000000000001.abcdef-" ++
            " is not a valid DNS subdomain")) := by
  decide +kernel

end Store

end Delivery
