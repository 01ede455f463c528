import Delivery.Json.Token

/-!
# From a text to its tokens

`tokens` splits a JSON text into its pieces. Each piece takes at least one character
(`length_token_le`), so the text runs out; nothing follows a piece at which the text breaks off.
-/

namespace Delivery.Json

theorem length_string?_le (readable : Bool) (acc s : List Char) :
    (string? readable acc s).2.length ≤ s.length := by
  fun_induction string? readable acc s with
  | case1 | case2 | case3 | case7 | case8 => simp
  | case4 acc c r _ _ _ ih => simp only [List.length_cons]; omega
  | case5 readable acc c r _ _ _ x rest h ih =>
    have := length_rest_unescape_le r
    simp only [h, Unescaped.rest] at this
    simp only [List.length_cons]; omega
  | case6 readable acc c r _ _ _ rest h ih =>
    have := length_rest_unescape_le r
    simp only [h, Unescaped.rest] at this
    simp only [List.length_cons]; omega

theorem length_exponentPart_le (negative : Bool) (d : Digits) (s : List Char) :
    (exponentPart negative d s).2.length ≤ s.length := by
  unfold exponentPart
  simp only
  have hs := Text.length_takeSign_le s
  have ht := Text.length_takeDigits_le (Text.takeSign s).2
  revert ht
  generalize Text.takeDigits (Text.takeSign s).2 = q
  obtain ⟨ds, rest⟩ := q
  intro ht
  cases ds <;> cases rest <;> simp only [List.length_cons, List.length_nil] at ht ⊢ <;> omega

theorem length_fractionPart_le (negative : Bool) (d : Digits) (s : List Char) :
    (fractionPart negative d s).2.length ≤ s.length := by
  unfold fractionPart
  have ht := Text.length_takeDigits_le s
  revert ht
  generalize Text.takeDigits s = q
  intro ht
  split
  · simp
  · simp at ht ⊢; omega
  · split
    all_goals
      simp only [List.length_cons] at ht ⊢
      first
        | exact Nat.le_trans (length_exponentPart_le _ _ _) (by omega)
        | exact ht

theorem length_number?_le (negative : Bool) (c : Char) (s : List Char) :
    (number? negative c s).2.length ≤ s.length := by
  unfold number?
  have ht := Text.length_takeDigits_le s
  revert ht
  generalize Text.takeDigits s = q
  obtain ⟨ds, rest⟩ := q
  intro ht
  simp only
  split
  · exact ht
  · split
    all_goals simp only [List.length_cons] at ht ⊢
    · exact Nat.le_trans (length_fractionPart_le _ _ _) (by omega)
    · exact Nat.le_trans (length_exponentPart_le _ _ _) (by omega)
    · exact Nat.le_trans (length_exponentPart_le _ _ _) (by omega)
    · exact ht

theorem length_negative?_le (s : List Char) : (negative? s).2.length ≤ s.length := by
  unfold negative?
  split
  · simp
  · split
    · exact Nat.le_succ_of_le (length_number?_le ..)
    · simp

theorem length_word?_le (value : Scalar) (w s : List Char) :
    (word? value w s).2.length ≤ s.length := by
  fun_induction word? value w s <;> simp_all; omega

/-- A token takes at least its first character. -/
theorem length_token_le (c : Char) (s : List Char) : (token c s).2.length ≤ s.length := by
  fun_cases token c s
  all_goals first
    | exact Nat.le_refl _
    | exact length_string?_le ..
    | exact length_negative?_le ..
    | exact length_number?_le ..
    | exact length_word?_le ..

/-- The tokens of a text, up to where it breaks off. -/
def tokens (s : List Char) : List Token :=
  match s with
  | [] => []
  | c :: r =>
    if isBlank c then tokens r
    else
      let piece := token c r
      if piece.1.isLast then [piece.1] else piece.1 :: tokens piece.2
termination_by s.length
decreasing_by
  · simp
  · have := length_token_le c r
    simp only [List.length_cons]; omega

end Delivery.Json
