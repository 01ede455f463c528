import Delivery.Proofs.StorableNames
import Mathlib.Data.List.TakeWhile

/-!
# The layout of a promotion's name

The name of a promotion is what is kept of the stage's name, the identifier and what is kept of the
freight's name, in small letters. It can be divided in one way only, whatever stands in the outer
parts (`Promotion.nameFor_eq_iff`). The parts are cut before they are put in small letters, so the
name is one character longer for every dotted capital I that was kept, and with long parts it gets
longer than a name may be (`Promotion.nameFor_fits_iff`).
-/

namespace Delivery

namespace Text

/-- The small letters of a text that stands between two others, the first read backwards. -/
def lowercaseBetween (before : List Char) : List Char → List Char → List Char
  | [], _ => []
  | c :: rest, after =>
    (if c = 'Σ' then
      [if leadsToCased before && !leadsToCased (rest ++ after) then 'ς' else 'σ']
    else lowerChar c) ++ lowercaseBetween (c :: before) rest after

theorem lowercaseAfter_between (before s after : List Char) :
    lowercaseAfter before (s ++ after) =
      lowercaseBetween before s after ++ lowercaseAfter (s.reverse ++ before) after := by
  induction s generalizing before with
  | nil => rfl
  | cons c rest ih =>
      rw [List.cons_append, lowercaseAfter, ih, lowercaseBetween, List.append_assoc,
        List.reverse_cons, List.append_assoc, List.singleton_append]

/-- A text with a character that is not passed over decides alone what it leads to. -/
theorem leadsToCased_append {s : List Char} (h : ∃ c ∈ s, caseIgnorable.contains c = false)
    (t : List Char) : leadsToCased (s ++ t) = leadsToCased s := by
  obtain ⟨c, hc, hstop⟩ := h
  have hne : s.dropWhile caseIgnorable.contains ≠ [] := by
    intro hnil
    have hpassed := List.dropWhile_eq_nil_iff.1 hnil c hc
    rw [hstop] at hpassed
    cases hpassed
  obtain ⟨d, rest, hd⟩ := List.exists_cons_of_ne_nil hne
  unfold leadsToCased
  rw [List.dropWhile_append, hd]
  rfl

/-- Small letters look no further back than to the last character that is not passed over. -/
theorem lowercaseAfter_before {before : List Char}
    (h : ∃ c ∈ before, caseIgnorable.contains c = false) (further s : List Char) :
    lowercaseAfter (before ++ further) s = lowercaseAfter before s := by
  induction s generalizing before with
  | nil => rfl
  | cons c rest ih =>
      obtain ⟨d, hd, hstop⟩ := h
      have hrest : lowercaseAfter (c :: before ++ further) rest = lowercaseAfter (c :: before) rest :=
        ih ⟨d, List.mem_cons_of_mem _ hd, hstop⟩
      rw [lowercaseAfter, lowercaseAfter, leadsToCased_append ⟨d, hd, hstop⟩, ← hrest,
        List.cons_append]

/-- Nor further ahead than to the first one. -/
theorem lowercaseBetween_after {after : List Char}
    (h : ∃ c ∈ after, caseIgnorable.contains c = false) (before s further : List Char) :
    lowercaseBetween before s (after ++ further) = lowercaseBetween before s after := by
  obtain ⟨d, hd, hstop⟩ := h
  induction s generalizing before with
  | nil => rfl
  | cons c rest ih =>
      rw [lowercaseBetween, lowercaseBetween, ih, ← List.append_assoc,
        leadsToCased_append ⟨d, List.mem_append_right _ hd, hstop⟩]

end Text

namespace PromotionId

/-- The digits of an identifier are not passed over when looking for a character with case. -/
theorem exists_digit (id : PromotionId) :
    ∃ c ∈ id.digits, Text.caseIgnorable.contains c = false := by
  have hall : ∀ d < 16, Text.caseIgnorable.contains (Nat.digitChar d) = false := by decide +kernel
  exact ⟨_, List.mem_append_right _ List.mem_cons_self, hall _ (Nat.mod_lt _ (by decide))⟩

end PromotionId

namespace Promotion

/-! ## The parts of a name -/

/-- What the name has of the stage's name. Whether a sigma that ends it is final depends on the
identifier. -/
def stagePart (stage : String) (id : PromotionId) : List Char :=
  Text.lowercaseBetween [] (keptStage stage) ('.' :: id.digits)

/-- What the name has of the freight's name. -/
def freightPart (id : PromotionId) (freight : String) : List Char :=
  Text.lowercaseAfter ('.' :: id.digits.reverse) (keptFreight freight)

example : stagePart "aΣ" (.ofNat 1) = ['a', 'ς'] ∧
    stagePart "aΣ" (.ofNat (10 * 16 ^ 31)) = ['a', 'σ'] := by decide +kernel

/-- **The name is the three parts with dots between.** -/
theorem toList_nameFor (stage freight : String) (id : PromotionId) :
    (nameFor stage freight id).toList =
      stagePart stage id ++ '.' :: (id.digits ++ '.' :: freightPart id freight) := by
  obtain ⟨d, hd, hstop⟩ := id.exists_digit
  have hplain : ∀ c ∈ '.' :: id.digits ++ ['.'], Text.IsPlain c := by
    intro c hc
    simp only [List.mem_append, List.mem_cons, List.not_mem_nil, or_false] at hc
    rcases hc with (rfl | hc) | rfl
    · exact Text.isPlain_dot
    · exact id.digits_isPlain c hc
    · exact Text.isPlain_dot
  have hmiddle : '.' :: id.digits ++ '.' :: keptFreight freight =
      ('.' :: id.digits ++ ['.']) ++ keptFreight freight := by simp
  have hfreight : Text.lowercaseAfter (('.' :: id.digits ++ ['.']).reverse ++
      ((keptStage stage).reverse ++ [])) (keptFreight freight) = freightPart id freight := by
    have hback : ('.' :: id.digits ++ ['.']).reverse ++ ((keptStage stage).reverse ++ []) =
        ('.' :: id.digits.reverse) ++ '.' :: (keptStage stage).reverse := by simp
    rw [hback, Text.lowercaseAfter_before
      ⟨d, List.mem_cons_of_mem _ (List.mem_reverse.2 hd), hstop⟩, freightPart]
  have hstage : Text.lowercaseBetween [] (keptStage stage)
      ('.' :: id.digits ++ '.' :: keptFreight freight) = stagePart stage id :=
    Text.lowercaseBetween_after ⟨d, List.mem_cons_of_mem _ hd, hstop⟩ _ _ _
  rw [nameFor, String.toList_ofList, nameChars, Text.lowercase, List.append_assoc]
  show Text.lowercaseAfter [] (keptStage stage ++ ('.' :: id.digits ++ '.' :: keptFreight freight))
    = _
  rw [Text.lowercaseAfter_between, hstage, hmiddle, Text.lowercaseAfter_plain hplain, hfreight]
  simp

theorem length_freightPart_lt (id : PromotionId) (freight : String) :
    (freightPart id freight).length < 32 := by
  have hkept : (keptFreight freight).length ≤ 7 := List.length_take_le _ _
  have hsmall := Text.length_lowercaseAfter_le ('.' :: id.digits.reverse) (keptFreight freight)
  rw [freightPart]
  omega

/-- **A name tells its parts.** Equal names of promotions have equal identifiers, and what they have
of the stages and of the freights is equal too, although both may hold dots and digits. -/
theorem nameFor_eq_iff (stage stage' freight freight' : String) (id id' : PromotionId) :
    ((nameFor stage freight id).toList =
      stagePart stage id ++ '.' :: (id.digits ++ '.' :: freightPart id freight)) ∧
    (nameFor stage freight id = nameFor stage' freight' id' ↔
      id = id' ∧ stagePart stage id = stagePart stage' id' ∧
        freightPart id freight = freightPart id' freight') := by
  refine ⟨toList_nameFor stage freight id, ?_⟩
  constructor
  · intro heq
    have hchars := congrArg String.toList heq
    rw [toList_nameFor, toList_nameFor] at hchars
    obtain ⟨hstage, hid, hfreight⟩ := split_unique hchars (length_freightPart_lt id freight)
      (length_freightPart_lt id' freight')
    exact ⟨hid, hstage, hfreight⟩
  · rintro ⟨rfl, hstage, hfreight⟩
    refine String.toList_injective ?_
    rw [toList_nameFor, toList_nameFor, hstage, hfreight]

/-! ## How long a name is -/

theorem length_nameFor (stage freight : String) (id : PromotionId) :
    (nameFor stage freight id).length =
      (keptStage stage).length + (keptStage stage).count 'İ' +
        ((keptFreight freight).length + (keptFreight freight).count 'İ') + (idLength + 2) := by
  have hdigits : id.digits.count 'İ' = 0 := by
    refine List.count_eq_zero.2 fun hmem => ?_
    have hlower := Text.length_lowerChar 'İ'
    rw [(id.digits_isPlain _ hmem).2, if_pos rfl] at hlower
    cases hlower
  rw [nameFor, String.length_ofList, nameChars, Text.lowercase, Text.length_lowercaseAfter]
  show (keptStage stage ++ '.' :: id.digits ++ '.' :: keptFreight freight).length +
    (keptStage stage ++ '.' :: id.digits ++ '.' :: keptFreight freight).count 'İ' = _
  simp only [List.length_append, List.length_cons, List.count_append, PromotionId.length_digits,
    hdigits, List.count_cons_of_ne (show '.' ≠ 'İ' by decide), idLength]
  omega

/-- **Whether a name keeps within the longest one.** Every dotted capital I among the characters that
are kept makes the name one longer, and there is room for as many as the parts are short of what may
be kept of them. -/
theorem nameFor_fits_iff (stage freight : String) (id : PromotionId) :
    ((nameFor stage freight id).length =
      (keptStage stage).length + (keptStage stage).count 'İ' +
        ((keptFreight freight).length + (keptFreight freight).count 'İ') + (idLength + 2)) ∧
    ((nameFor stage freight id).length ≤ longestName ↔
      (keptStage stage).count 'İ' + (keptFreight freight).count 'İ' ≤
        (stageLength - (keptStage stage).length) +
          (freightLength - (keptFreight freight).length)) := by
  have hlength := length_nameFor stage freight id
  have hstage : (keptStage stage).length ≤ 212 := List.length_take_le _ _
  have hfreight : (keptFreight freight).length ≤ 7 := List.length_take_le _ _
  refine ⟨hlength, ?_⟩
  rw [hlength]
  simp only [longestName, stageLength, idLength, freightLength]
  omega

/-- A name that is too long: a stage's name is kept whole and begins with a dotted capital I. -/
theorem nameFor_too_long :
    ("İ" ++ String.ofList (List.replicate 211 's')).length = stageLength ∧
      (nameFor ("İ" ++ String.ofList (List.replicate 211 's')) "abcdef0" (.ofNat 1)).length =
        longestName + 1 := by
  have hlength : ('İ' :: List.replicate 211 's').length = stageLength := by
    rw [List.length_cons, List.length_replicate]
    rfl
  have hchars : ("İ" ++ String.ofList (List.replicate 211 's')).toList =
      'İ' :: List.replicate 211 's' := by
    rw [String.toList_append, String.toList_ofList, String.toList_ofList, List.singleton_append]
  have hkept : keptStage ("İ" ++ String.ofList (List.replicate 211 's')) =
      'İ' :: List.replicate 211 's' := by
    rw [keptStage, hchars, List.take_of_length_le (Nat.le_of_eq hlength)]
  have hfreight : keptFreight "abcdef0" = ['a', 'b', 'c', 'd', 'e', 'f', '0'] := by decide +kernel
  have hcount : (List.replicate 211 's').count 'İ' = 0 := List.count_replicate.trans (by decide)
  refine ⟨by rw [← String.length_toList, hchars, hlength], ?_⟩
  rw [length_nameFor, hkept, hlength, List.count_cons_self, hcount, hfreight]
  decide

end Promotion

end Delivery
