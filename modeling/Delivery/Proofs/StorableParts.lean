import Delivery.Proofs.NameLayout
import Delivery.Proofs.SubdomainGrammar

/-!
# When a promotion's name can be stored

The name of a promotion is a subdomain when the two names that it was made of are, each cut and then
put in small letters on its own (`Store.storable_iff_parts`); the identifier has no part in it. The
small letters of a part can differ from those in the name at a sigma only, and neither of a sigma's
small letters may stand in a subdomain; so the scan takes the one when it takes the other
(`Promotion.scan_lowercaseBetween`). Nor does the greatest length matter: the one letter that grows
when it is made small leaves something behind that may not stand there either
(`Promotion.length_of_scan`).
-/

namespace Delivery

namespace Text

theorem lowercaseBetween_nil (before s : List Char) :
    lowercaseBetween before s [] = lowercaseAfter before s := by
  have hsplit := lowercaseAfter_between before s []
  rw [List.append_nil, lowercaseAfter, List.append_nil] at hsplit
  exact hsplit.symm

/-- A letter that is no sigma has its small letters in every context. -/
theorem lowerChar_subset {c : Char} {s : List Char} (hc : c ∈ s) (hne : c ≠ 'Σ')
    (before after : List Char) : ∀ d ∈ lowerChar c, d ∈ lowercaseBetween before s after := by
  induction s generalizing before with
  | nil => exact absurd hc List.not_mem_nil
  | cons e rest ih =>
      intro d hd
      rw [lowercaseBetween]
      rcases List.mem_cons.1 hc with rfl | hc
      · rw [if_neg hne]
        exact List.mem_append_left _ hd
      · exact List.mem_append_right _ (ih hc (e :: before) d hd)

/-- A sigma is in small letters one of two characters. -/
theorem exists_small_sigma {s : List Char} (hsigma : 'Σ' ∈ s) (before after : List Char) :
    ∃ d ∈ lowercaseBetween before s after, d = 'ς' ∨ d = 'σ' := by
  induction s generalizing before with
  | nil => exact absurd hsigma List.not_mem_nil
  | cons e rest ih =>
      rw [lowercaseBetween]
      rcases List.mem_cons.1 hsigma with rfl | hsigma
      · rw [if_pos rfl]
        refine ⟨_, List.mem_append_left _ List.mem_cons_self, ?_⟩
        split
        · exact .inl rfl
        · exact .inr rfl
      · obtain ⟨d, hd, hsmall⟩ := ih hsigma (e :: before)
        exact ⟨d, List.mem_append_right _ hd, hsmall⟩

/-- Without a sigma the context of a text does not matter. -/
theorem lowercaseBetween_of_no_sigma {s : List Char} (h : 'Σ' ∉ s) (before after : List Char) :
    lowercaseBetween before s after = s.flatMap lowerChar := by
  induction s generalizing before with
  | nil => rfl
  | cons c rest ih =>
      obtain ⟨hc, hrest⟩ := List.ne_and_not_mem_of_not_mem_cons h
      rw [lowercaseBetween, if_neg (Ne.symm hc), ih hrest, List.flatMap_cons]

end Text

namespace Promotion

open Subdomain

section Parts

variable {p : Position} {s before after : List Char}

/-- No sigma has a place in a subdomain, in whatever form. -/
theorem no_sigma_of_scan (h : scan p (Text.lowercaseBetween before s after) = true) : 'Σ' ∉ s := by
  intro hsigma
  obtain ⟨d, hd, hsmall⟩ := Text.exists_small_sigma hsigma before after
  have hchar : isNameChar d = true := isNameChar_of_scan h d hd
  rcases hsmall with rfl | rfl
  · exact absurd hchar (by decide)
  · exact absurd hchar (by decide)

/-- Nor has the combining dot that is left of a dotted capital I. -/
theorem no_dotted_of_scan (h : scan p (Text.lowercaseBetween before s after) = true) : 'İ' ∉ s := by
  intro hdotted
  have hdot : '\u0307' ∈ Text.lowercaseBetween before s after :=
    Text.lowerChar_subset hdotted (by decide) before after '\u0307' (by decide)
  exact absurd (isNameChar_of_scan h _ hdot) (by decide)

/-- **Whether the scan takes a text in small letters does not depend on where the text stands.** -/
theorem scan_lowercaseBetween (p : Position) (before s after : List Char) :
    scan p (Text.lowercaseBetween before s after) = scan p (Text.lowercase s) := by
  rw [Text.lowercase, ← Text.lowercaseBetween_nil [] s]
  by_cases hsigma : 'Σ' ∈ s
  · have hnone (before after : List Char) :
        scan p (Text.lowercaseBetween before s after) = false :=
      Bool.eq_false_iff.2 fun h => no_sigma_of_scan h hsigma
    rw [hnone, hnone]
  · rw [Text.lowercaseBetween_of_no_sigma hsigma, Text.lowercaseBetween_of_no_sigma hsigma]

/-- **A text that the scan takes in small letters is as long as it was in its own.** -/
theorem length_of_scan (h : scan p (Text.lowercaseBetween before s after) = true) :
    (Text.lowercaseBetween before s after).length = s.length := by
  have hdotted := no_dotted_of_scan h
  rw [Text.lowercaseBetween_of_no_sigma (no_sigma_of_scan h), List.length_flatMap]
  have hone : s.map (fun c => (Text.lowerChar c).length) = s.map fun _ => 1 := by
    refine List.map_congr_left fun c hc => ?_
    rw [Text.length_lowerChar, if_neg]
    rintro rfl
    exact hdotted hc
  rw [hone]
  simp

end Parts

/-- A text that the scan takes is a name when it keeps to the greatest length in characters. -/
theorem isSubdomain_iff_scan {s : List Char}
    (hlength : scan .labelStart s = true → s.length ≤ longest) :
    isSubdomain (String.ofList s) = true ↔ scan .labelStart s = true := by
  rw [isSubdomain, String.toList_ofList, Bool.and_eq_true, decide_eq_true_eq]
  refine and_iff_right_of_imp fun hscan => ?_
  rw [utf8ByteSize_ofList (isNameChar_of_scan hscan)]
  exact hlength hscan

/-- A part of a name is a subdomain on its own when the scan takes it in small letters. -/
theorem isSubdomain_lowercase {s : List Char} (hs : s.length ≤ longest) :
    isSubdomain (String.ofList (Text.lowercase s)) = true ↔
      scan .labelStart (Text.lowercase s) = true := by
  refine isSubdomain_iff_scan fun hscan => ?_
  rw [Text.lowercase, ← Text.lowercaseBetween_nil] at hscan ⊢
  rw [length_of_scan hscan]
  exact hs

theorem scan_digits (id : PromotionId) : scan .labelStart id.digits = true := by
  have hne : id.digits ≠ [] := List.ne_nil_of_length_pos (by rw [id.length_digits]; decide)
  rw [scan_eq, Position.after_alphanumeric hne id.digits_alphanumeric]
  rfl

/-- The scan takes the name of a promotion when it takes both parts, each in small letters. -/
theorem scan_nameFor (stage freight : String) (id : PromotionId) :
    scan .labelStart (nameFor stage freight id).toList = true ↔
      scan .labelStart (Text.lowercase (keptStage stage)) = true ∧
        scan .labelStart (Text.lowercase (keptFreight freight)) = true := by
  rw [toList_nameFor, scan_append_dot, scan_append_dot, scan_digits, Bool.true_and,
    Bool.and_eq_true, stagePart, freightPart, ← Text.lowercaseBetween_nil, scan_lowercaseBetween,
    scan_lowercaseBetween]

/-- A name that the scan takes keeps to the greatest length. -/
theorem length_nameFor_of_scan {stage freight : String} {id : PromotionId}
    (h : scan .labelStart (nameFor stage freight id).toList = true) :
    (nameFor stage freight id).toList.length ≤ longest := by
  obtain ⟨hstage, hfreight⟩ := (scan_nameFor stage freight id).1 h
  rw [← scan_lowercaseBetween _ [] _ ('.' :: id.digits)] at hstage
  rw [← scan_lowercaseBetween _ ('.' :: id.digits.reverse) _ []] at hfreight
  have hstage_length : (stagePart stage id).length = (keptStage stage).length :=
    length_of_scan hstage
  have hfreight_length : (freightPart id freight).length = (keptFreight freight).length := by
    rw [freightPart, ← Text.lowercaseBetween_nil]
    exact length_of_scan hfreight
  have hs : (keptStage stage).length ≤ 212 := List.length_take_le _ _
  have hf : (keptFreight freight).length ≤ 7 := List.length_take_le _ _
  rw [toList_nameFor]
  simp only [List.length_append, List.length_cons, hstage_length, hfreight_length,
    PromotionId.length_digits, longest]
  omega

/-- **A promotion's name is a subdomain when both its parts are.** -/
theorem isSubdomain_nameFor_iff (stage freight : String) (id : PromotionId) :
    isSubdomain (nameFor stage freight id) = true ↔
      isSubdomain (String.ofList (Text.lowercase (keptStage stage))) = true ∧
        isSubdomain (String.ofList (Text.lowercase (keptFreight freight))) = true := by
  have hs : (keptStage stage).length ≤ 212 := List.length_take_le _ _
  have hf : (keptFreight freight).length ≤ 7 := List.length_take_le _ _
  have hname := isSubdomain_iff_scan (s := (nameFor stage freight id).toList) length_nameFor_of_scan
  rw [String.ofList_toList] at hname
  rw [hname, scan_nameFor, isSubdomain_lowercase (hs.trans (by decide)),
    isSubdomain_lowercase (hf.trans (by decide))]

end Promotion

namespace Store

open Subdomain Promotion

/-- **Which promotions can be stored.** For a stage and a freight of any names, a promotion's name
is a subdomain when the first 212 characters of the one and the first 7 of the other, in small
letters, both are. The identifier decides nothing, and so a store that is up answers that the name
is bad by the two names alone. -/
theorem storable_iff_parts (stage : Stage) (freight : String) (stamp : Promotion.Stamp)
    (id : PromotionId) (s : Store) :
    (isSubdomain (nameFor stage.name freight id) = true ↔
      isSubdomain (String.ofList (Text.lowercase (stage.name.toList.take 212))) = true ∧
        isSubdomain (String.ofList (Text.lowercase (freight.toList.take 7))) = true) ∧
    isSubdomain (Promotion.build stage freight stamp).name =
      isSubdomain (nameFor stage.name freight id) ∧
    ((∃ message, (s.create (.promotion (.build stage freight stamp))).1 =
        .error (.invalid message)) ↔
      s.unavailable = false ∧
        ¬ (isSubdomain (String.ofList (Text.lowercase (stage.name.toList.take 212))) = true ∧
          isSubdomain (String.ofList (Text.lowercase (freight.toList.take 7))) = true)) := by
  have hname (id : PromotionId) : isSubdomain (nameFor stage.name freight id) = true ↔
      isSubdomain (String.ofList (Text.lowercase (stage.name.toList.take 212))) = true ∧
        isSubdomain (String.ofList (Text.lowercase (freight.toList.take 7))) = true :=
    isSubdomain_nameFor_iff stage.name freight id
  have hbuilt : (Promotion.build stage freight stamp).name = nameFor stage.name freight stamp.id :=
    rfl
  refine ⟨hname id, ?_, ?_⟩
  · rw [hbuilt, Bool.eq_iff_iff, hname, hname]
  · rw [create_eq_invalid, hbuilt, ← hname stamp.id, Bool.not_eq_true]

/-! A Kelvin sign is a small k; a dotted capital I is more than a small i. -/

example : isSubdomain (nameFor "\u212A8s" "F1" (.ofNat 1)) = true ∧
    isSubdomain (nameFor "İx" "f1" (.ofNat 1)) = false := by
  decide +kernel

end Store

end Delivery
