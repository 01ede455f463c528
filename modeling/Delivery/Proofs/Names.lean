import Delivery.Resource.Promotion
import Delivery.Subdomain
import Mathlib.Data.Nat.ModEq

/-!
# The names of promotions

Whatever stages and freights are called, promotions with different identifiers have different names
(`Promotion.nameFor_ne`): what is kept of the freight's name is shorter than an identifier, even in
small letters, and no identifier has a dot in it, so equal names have their identifiers in one place.
A stage without a name gives no name that a resource can be stored under
(`Promotion.nameFor_empty_not_subdomain`).
-/

namespace Delivery

namespace Text

/-- The small letters of a text begin with something for its first part, and go on as those of the
rest. -/
theorem lowercaseAfter_append (before a b : List Char) :
    ∃ l, lowercaseAfter before (a ++ b) = l ++ lowercaseAfter (a.reverse ++ before) b := by
  induction a generalizing before with
  | nil => exact ⟨[], rfl⟩
  | cons c rest ih =>
      obtain ⟨l, hl⟩ := ih (c :: before)
      simp only [List.cons_append, lowercaseAfter, hl, List.reverse_cons, List.append_assoc,
        List.nil_append]
      exact ⟨_, (List.append_assoc _ _ _).symm⟩

/-- One letter has one small letter, but the dotted capital I has two. -/
theorem length_lowerChar (c : Char) : (lowerChar c).length = if c = 'İ' then 2 else 1 := by
  unfold lowerChar
  by_cases hdotted : c = 'İ'
  · subst hdotted
    decide
  · rw [if_neg hdotted, if_neg hdotted]
    split
    · rfl
    · split
      · rfl
      · rfl

/-- A text grows by as many characters as it has dotted capital I's. -/
theorem length_lowercaseAfter (before s : List Char) :
    (lowercaseAfter before s).length = s.length + s.count 'İ' := by
  induction s generalizing before with
  | nil => rfl
  | cons c rest ih =>
      rw [lowercaseAfter, List.length_append, ih, List.length_cons]
      by_cases hsigma : c = 'Σ'
      · subst hsigma
        rw [if_pos rfl, List.count_cons_of_ne (by decide), List.length_singleton]
        omega
      · rw [if_neg hsigma, length_lowerChar]
        by_cases hdotted : c = 'İ'
        · subst hdotted
          rw [if_pos rfl, List.count_cons_self]
          omega
        · rw [if_neg hdotted, List.count_cons_of_ne hdotted]
          omega

theorem length_lowercaseAfter_le (before s : List Char) :
    (lowercaseAfter before s).length ≤ 2 * s.length := by
  have hcount : s.count 'İ' ≤ s.length := List.count_le_length
  rw [length_lowercaseAfter]
  omega

/-- A character that stays as it is. -/
def IsPlain (c : Char) : Prop := c ≠ 'Σ' ∧ lowerChar c = [c]

theorem lowercaseAfter_plain {a : List Char} (ha : ∀ c ∈ a, IsPlain c) (before b : List Char) :
    lowercaseAfter before (a ++ b) = a ++ lowercaseAfter (a.reverse ++ before) b := by
  induction a generalizing before with
  | nil => rfl
  | cons c rest ih =>
      obtain ⟨hne, hsame⟩ := ha c List.mem_cons_self
      simp only [List.cons_append, lowercaseAfter, if_neg hne, hsame, List.reverse_cons,
        List.append_assoc, List.nil_append]
      rw [ih fun c hc => ha c (List.mem_cons_of_mem _ hc)]

theorem isPlain_dot : IsPlain '.' := by
  constructor <;> decide

end Text

namespace PromotionId

theorem digit_isPlain (v : Nat) : Text.IsPlain (Nat.digitChar (v % 16)) := by
  have hall : ∀ d < 16, Nat.digitChar d ≠ 'Σ' ∧
      Text.lowerChar (Nat.digitChar d) = [Nat.digitChar d] := by decide
  exact hall _ (Nat.mod_lt _ (by decide))

theorem digit_inj {v v' : Nat} (h : Nat.digitChar (v % 16) = Nat.digitChar (v' % 16)) :
    v % 16 = v' % 16 := by
  have hall : ∀ d < 16, ∀ d' < 16, Nat.digitChar d = Nat.digitChar d' → d = d' := by decide
  exact hall _ (Nat.mod_lt _ (by decide)) _ (Nat.mod_lt _ (by decide)) h

theorem hexDigits_isPlain (n v : Nat) : ∀ c ∈ hexDigits n v, Text.IsPlain c := by
  induction n generalizing v with
  | zero => exact fun c hc => absurd hc List.not_mem_nil
  | succ n ih =>
      intro c hc
      rcases List.mem_append.1 hc with hc | hc
      · exact ih _ c hc
      · obtain rfl := List.mem_singleton.1 hc
        exact digit_isPlain v

theorem dot_not_mem_hexDigits (n v : Nat) : '.' ∉ hexDigits n v := by
  have hall : ∀ d < 16, '.' ≠ Nat.digitChar d := by decide
  induction n generalizing v with
  | zero => exact List.not_mem_nil
  | succ n ih =>
      intro hmem
      rcases List.mem_append.1 hmem with hmem | hmem
      · exact ih _ hmem
      · exact hall _ (Nat.mod_lt _ (by decide)) (List.mem_singleton.1 hmem)

@[simp] theorem length_hexDigits (n v : Nat) : (hexDigits n v).length = n := by
  induction n generalizing v with
  | zero => rfl
  | succ n ih => simp [hexDigits, ih]

/-- Equal digits denote equal numbers, as far as they go. -/
theorem hexDigits_inj {n v v' : Nat} (h : hexDigits n v = hexDigits n v') :
    v % 16 ^ n = v' % 16 ^ n := by
  induction n generalizing v v' with
  | zero => rw [Nat.pow_zero, Nat.mod_one, Nat.mod_one]
  | succ n ih =>
      obtain ⟨hhigh, hlow⟩ := List.append_inj' h rfl
      have hlow := digit_inj (List.cons.inj hlow).1
      rw [Nat.pow_succ, Nat.mul_comm, Nat.mod_mul, Nat.mod_mul, hlow, ih hhigh]

@[simp] theorem length_digits (id : PromotionId) : id.digits.length = 32 := length_hexDigits _ _

theorem digits_isPlain (id : PromotionId) : ∀ c ∈ id.digits, Text.IsPlain c := hexDigits_isPlain _ _

theorem dot_not_mem_digits (id : PromotionId) : '.' ∉ id.digits := dot_not_mem_hexDigits _ _

/-- **An identifier is known from its digits.** -/
theorem digits_inj {id id' : PromotionId} (h : id.digits = id'.digits) : id = id' := by
  have hmod := hexDigits_inj h
  rw [show (16 : Nat) ^ 32 = 2 ^ 128 by decide, Nat.mod_eq_of_lt id.bits.isLt,
    Nat.mod_eq_of_lt id'.bits.isLt] at hmod
  exact congrArg PromotionId.mk (BitVec.eq_of_toNat_eq hmod)

end PromotionId

namespace Promotion

/-- The identifier stands in the name as it is, between two dots, and what comes behind it is
shorter. -/
theorem nameChars_split (stage freight : List Char) (id : PromotionId) :
    ∃ before tail, nameChars stage freight id = before ++ '.' :: (id.digits ++ '.' :: tail) ∧
      tail.length < id.digits.length := by
  obtain ⟨before, hbefore⟩ := Text.lowercaseAfter_append [] (stage.take stageLength)
    (('.' :: id.digits ++ ['.']) ++ freight.take freightLength)
  have hplain : ∀ c ∈ '.' :: id.digits ++ ['.'], Text.IsPlain c := by
    intro c hc
    simp only [List.mem_append, List.mem_cons, List.not_mem_nil, or_false] at hc
    rcases hc with (rfl | hc) | rfl
    · exact Text.isPlain_dot
    · exact id.digits_isPlain c hc
    · exact Text.isPlain_dot
  rw [Text.lowercaseAfter_plain hplain] at hbefore
  generalize hrest : Text.lowercaseAfter _ (freight.take freightLength) = tail at hbefore
  refine ⟨before, tail, ?_, ?_⟩
  · rw [nameChars, Text.lowercase, List.append_assoc]
    simp only [List.cons_append, List.append_assoc, List.nil_append] at hbefore ⊢
    exact hbefore
  · have hlen := Text.length_lowercaseAfter_le
      (('.' :: id.digits ++ ['.']).reverse ++ ((stage.take stageLength).reverse ++ []))
      (freight.take freightLength)
    rw [hrest] at hlen
    have hkept : (freight.take freightLength).length ≤ 7 := List.length_take_le _ _
    rw [id.length_digits]
    omega

/-- No dot falls within a text that has none. -/
theorem length_le_of_dot {x y d t t' : List Char} (h : x ++ '.' :: (d ++ '.' :: t) = y ++ '.' :: t')
    (hd : '.' ∉ d) (hle : t'.length ≤ d.length) : t'.length ≤ t.length := by
  refine Nat.le_of_not_lt fun hlt => hd ?_
  have hlen := congrArg List.length h
  simp only [List.length_append, List.length_cons] at hlen
  -- The second text has its dot where the first one has a character of `d`.
  obtain ⟨k, hk⟩ : ∃ k, y.length = x.length + (k + 1) := ⟨y.length - x.length - 1, by omega⟩
  have hat : (x ++ '.' :: (d ++ '.' :: t))[y.length]? = d[k]? := by
    rw [hk, List.getElem?_append_right (Nat.le_add_right _ _), Nat.add_sub_cancel_left,
      List.getElem?_cons_succ, List.getElem?_append_left (by omega)]
  rw [h, List.getElem?_append_right (Nat.le_refl _), Nat.sub_self, List.getElem?_cons_zero] at hat
  exact List.mem_of_getElem? hat.symm

/-- **There is one way to divide a text at an identifier**, counted from the end: what stands behind
the identifier is shorter than one. -/
theorem split_unique {x y t t' : List Char} {id id' : PromotionId}
    (h : x ++ '.' :: (id.digits ++ '.' :: t) = y ++ '.' :: (id'.digits ++ '.' :: t'))
    (ht : t.length < 32) (ht' : t'.length < 32) : x = y ∧ id = id' ∧ t = t' := by
  have hback (x : List Char) (id : PromotionId) (t : List Char) :
      x ++ '.' :: (id.digits ++ '.' :: t) = (x ++ '.' :: id.digits) ++ '.' :: t := by simp
  have hle : t'.length ≤ t.length :=
    length_le_of_dot (h.trans (hback y id' t')) id.dot_not_mem_digits
      (by rw [id.length_digits]; omega)
  have hge : t.length ≤ t'.length :=
    length_le_of_dot (h.symm.trans (hback x id t)) id'.dot_not_mem_digits
      (by rw [id'.length_digits]; omega)
  -- The texts behind the identifiers are as long as each other, so all the parts are.
  obtain ⟨hxy, htail⟩ := List.append_inj' h (by
    simp only [List.length_cons, List.length_append, PromotionId.length_digits]
    omega)
  obtain ⟨hdigits, hrest⟩ := List.append_inj (List.cons.inj htail).2
    (id.length_digits.trans id'.length_digits.symm)
  exact ⟨hxy, PromotionId.digits_inj hdigits, (List.cons.inj hrest).2⟩

/-- **Different identifiers give different names.** -/
theorem nameFor_ne (stage stage' freight freight' : String) {id id' : PromotionId} (h : id ≠ id') :
    nameFor stage freight id ≠ nameFor stage' freight' id' := by
  intro heq
  obtain ⟨x, t, hsplit, ht⟩ := nameChars_split stage.toList freight.toList id
  obtain ⟨y, t', hsplit', ht'⟩ := nameChars_split stage'.toList freight'.toList id'
  have hchars : nameChars stage.toList freight.toList id =
      nameChars stage'.toList freight'.toList id' := String.ofList_injective heq
  rw [hsplit, hsplit'] at hchars
  rw [PromotionId.length_digits] at ht ht'
  exact h (split_unique hchars ht ht').2.1

/-- The name begins with the dot before the identifier when there is no stage. -/
theorem nameChars_nil (freight : List Char) (id : PromotionId) :
    ∃ rest, nameChars [] freight id = '.' :: rest := by
  have hplain : ∀ c ∈ ['.'], Text.IsPlain c := by
    intro c hc
    obtain rfl := List.mem_singleton.1 hc
    exact Text.isPlain_dot
  have hdot (x : List Char) : ∃ rest, Text.lowercase ('.' :: x) = '.' :: rest :=
    ⟨_, Text.lowercaseAfter_plain hplain [] x⟩
  rw [nameChars, List.take_nil, List.nil_append, List.cons_append]
  exact hdot _

theorem scan_dot (rest : List Char) : Subdomain.scan .labelStart ('.' :: rest) = false := rfl

/-- Without a stage there is no name to store a promotion under. -/
theorem nameFor_empty_not_subdomain (freight : String) (id : PromotionId) :
    Subdomain.isSubdomain (nameFor "" freight id) = false := by
  obtain ⟨rest, hrest⟩ := nameChars_nil freight.toList id
  have htoList : (nameFor "" freight id).toList = '.' :: rest := by
    rw [nameFor, String.toList_ofList, String.toList_empty, hrest]
  rw [Subdomain.isSubdomain, htoList, scan_dot, Bool.and_false]

end Promotion

end Delivery
