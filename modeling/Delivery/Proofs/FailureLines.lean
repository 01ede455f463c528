import Delivery.Error
import Mathlib.Algebra.Ring.Nat
import Mathlib.Data.List.Basic

/-!
# The lines of a report on failed writes

The wordings of several failed writes are joined by line feeds. Names of stages and resources are
quoted, so that they hold none, but what a collaborator or a caller wrote is inserted as it is
(`StoreError.unquoted`), and each line feed in it is one line more (`WriteFailure.length_lines`).
The report has one line per failure when there is none, and only then
(`WriteFailure.joined_line_by_line`).
-/

namespace Delivery

namespace Text

/-- The lines of a text: what stands before, between and after its line feeds. -/
def lines (s : String) : List String := (s.toList.splitOn '\n').map String.ofList

/-- How many line feeds a text has. -/
def feeds (s : String) : Nat := s.toList.count '\n'

/-! ## Dividing a text into lines -/

theorem feeds_eq_zero {s : String} : feeds s = 0 ↔ '\n' ∉ s.toList := List.count_eq_zero

@[simp] theorem feeds_append (s t : String) : feeds (s ++ t) = feeds s + feeds t := by
  rw [feeds, String.toList_append, List.count_append]
  rfl

theorem length_splitOn (d : Char) (s : List Char) : (s.splitOn d).length = s.count d + 1 := by
  induction s with
  | nil => rfl
  | cons c rest ih =>
      rw [List.splitOn_cons_eq_if_modifyHead, List.count_cons]
      by_cases hc : (c == d) = true
      · rw [if_pos hc, if_pos hc, List.length_cons, ih]
      · rw [if_neg hc, if_neg hc, List.length_modifyHead, ih, Nat.add_zero]

theorem length_lines (s : String) : (lines s).length = feeds s + 1 := by
  rw [lines, List.length_map, length_splitOn, feeds]

/-- A text is its only line when it has no line feed. -/
theorem lines_eq_singleton_iff {s : String} : lines s = [s] ↔ feeds s = 0 := by
  constructor
  · intro h
    have hlength := length_lines s
    rw [h, List.length_singleton] at hlength
    omega
  · intro h
    rw [lines, List.splitOn_eq_singleton (feeds_eq_zero.1 h), List.map_singleton,
      String.ofList_toList]

/-- A line feed ends the lines before it. -/
theorem lines_append_feed (s t : String) : lines (s ++ "\n" ++ t) = lines s ++ lines t := by
  have htoList : (s ++ "\n" ++ t).toList = s.toList ++ '\n' :: t.toList := by simp
  rw [lines, htoList, List.splitOn_append_cons_self, List.map_append]
  rfl

/-- Texts joined by line feeds keep their lines. -/
theorem lines_intercalate {texts : List String} (h : texts ≠ []) :
    lines ("\n".intercalate texts) = texts.flatMap lines := by
  induction texts with
  | nil => exact absurd rfl h
  | cons s rest ih =>
      cases rest with
      | nil => simp
      | cons t rest =>
          rw [String.intercalate_cons_cons, lines_append_feed, ih (List.cons_ne_nil t rest)]
          rfl

/-! ## Texts without line feeds -/

theorem exists_digitChar_of_mem_toDigits {b n : Nat} (hb : 1 < b) {c : Char}
    (h : c ∈ Nat.toDigits b n) : ∃ d, c = Nat.digitChar d := by
  induction n using Nat.strongRecOn with
  | ind n ih =>
      rw [Nat.toDigits_eq_if hb] at h
      by_cases hn : n < b
      · rw [if_pos hn] at h
        exact ⟨n, List.mem_singleton.1 h⟩
      · rw [if_neg hn] at h
        rcases List.mem_append.1 h with h | h
        · exact ih (n / b) (Nat.div_lt_self (by omega) hb) h
        · exact ⟨n % b, List.mem_singleton.1 h⟩

theorem feed_ne_digitChar (d : Nat) : '\n' ≠ Nat.digitChar d := (Nat.digitChar_ne '\n' rfl).symm

theorem feed_not_mem_toDigits {b : Nat} (hb : 1 < b) (n : Nat) : '\n' ∉ Nat.toDigits b n := by
  intro h
  obtain ⟨d, hd⟩ := exists_digitChar_of_mem_toDigits hb h
  exact feed_ne_digitChar d hd

@[simp] theorem feeds_toString (n : Nat) : feeds (toString n) = 0 := by
  show (String.ofList (Nat.toDigits 10 n)).toList.count '\n' = 0
  rw [String.toList_ofList]
  exact List.count_eq_zero.2 (feed_not_mem_toDigits (by decide) n)

theorem feed_not_mem_escape (c : Char) : '\n' ∉ escape c := by
  by_cases hc : c = '\n'
  · subst hc
    decide
  · -- Any other character stands for itself, or is spelled with characters that can be seen.
    have hself : '\n' ∉ [c] := fun h => hc (List.mem_singleton.1 h).symm
    have hcode : '\n' ∉ ['\\', 'u', '\x7b'] ++ hex c.toNat ++ ['\x7d'] := by
      have hhex : '\n' ∉ hex c.toNat := feed_not_mem_toDigits (by decide) _
      simp [hhex]
    unfold escape
    split_ifs <;> first | exact hself | exact hcode | decide

/-- No quoted text has a line feed. -/
@[simp] theorem feeds_quote (s : String) : feeds (quote s) = 0 := by
  have hescaped : '\n' ∉ s.toList.flatMap escape := by
    intro h
    obtain ⟨c, -, hc⟩ := List.mem_flatMap.1 h
    exact feed_not_mem_escape c hc
  rw [feeds_eq_zero, quote, String.toList_ofList]
  simp [hescaped]

end Text

namespace Duration

theorem feed_not_mem_decimals (places part whole : Nat) : '\n' ∉ decimals places part whole := by
  induction places generalizing part with
  | zero => exact List.not_mem_nil
  | succ places ih =>
      unfold decimals
      by_cases hpart : part = 0
      · rw [if_pos hpart]
        exact List.not_mem_nil
      · rw [if_neg hpart]
        exact List.not_mem_cons_of_ne_of_not_mem (Text.feed_ne_digitChar _) (ih _)

theorem feeds_inUnit (d unit : Duration) (places : Nat) (name : String) :
    Text.feeds (inUnit d unit places name) = Text.feeds name := by
  -- Before the name of the unit stand digits, and a point between them.
  have hfraction : Text.feeds (String.ofList (if (decimals places (d % unit) unit).isEmpty then []
      else '.' :: decimals places (d % unit) unit)) = 0 := by
    have hdecimals := feed_not_mem_decimals places (d % unit) unit
    rw [Text.feeds_eq_zero, String.toList_ofList]
    split_ifs
    · exact List.not_mem_nil
    · exact List.not_mem_cons_of_ne_of_not_mem (by decide) hdecimals
  rw [inUnit, Text.feeds_append, Text.feeds_append, Text.feeds_toString, hfraction,
    Nat.zero_add]

/-- No duration is written with a line feed. -/
@[simp] theorem feeds_text (d : Duration) : Text.feeds d.text = 0 := by
  unfold text
  split_ifs
  · exact feeds_inUnit ..
  · exact feeds_inUnit ..
  · exact feeds_inUnit ..
  · rw [Text.feeds_append, Text.feeds_toString]
    rfl

end Duration

/-! ## Failures -/

/-- The part of the wording of a failure that somebody else wrote and that is not quoted. -/
def StoreError.unquoted : StoreError → String
  | backend message => message
  | alreadyExists kind _ _ => kind
  | invalid reason | cancelled reason | serialization reason => reason
  | deadlineExceeded _ => ""

/-- The line feeds of a wording are those of its unquoted part. -/
theorem StoreError.feeds_message (e : StoreError) :
    Text.feeds e.message = Text.feeds e.unquoted := by
  -- The words around what is inserted have no line feed.
  have hspace : Text.feeds " " = 0 := by decide
  have hexists : Text.feeds " already exists in namespace " = 0 := by decide
  have hinvalid : Text.feeds "invalid object: " = 0 := by decide
  have hcancelled : Text.feeds "context canceled: " = 0 := by decide
  have hexceeded : Text.feeds "context deadline exceeded after " = 0 := by decide
  have hserialization : Text.feeds "serialization error: " = 0 := by decide
  unfold message
  cases e with
  | backend message => rfl
  | alreadyExists kind project name =>
      simp only [Text.feeds_append, Text.feeds_quote, hspace, hexists]
      rfl
  | invalid reason => rw [Text.feeds_append, hinvalid, Nat.zero_add, unquoted]
  | cancelled reason => rw [Text.feeds_append, hcancelled, Nat.zero_add, unquoted]
  | deadlineExceeded budget =>
      rw [Text.feeds_append, hexceeded, Duration.feeds_text]
      rfl
  | serialization reason => rw [Text.feeds_append, hserialization, Nat.zero_add, unquoted]

namespace WriteFailure

theorem feeds_message (f : WriteFailure) :
    Text.feeds f.message = Text.feeds f.error.unquoted := by
  have hcreating : Text.feeds "error creating Promotion for Stage " = 0 := by decide
  have hcolon : Text.feeds ": " = 0 := by decide
  unfold message
  rw [Text.feeds_append, Text.feeds_append, Text.feeds_append, Text.feeds_quote, hcreating,
    hcolon, Nat.zero_add, StoreError.feeds_message]

/-- A failure takes one line, and one more for every line feed that is not quoted. -/
theorem length_lines (f : WriteFailure) :
    (Text.lines f.message).length = Text.feeds f.error.unquoted + 1 := by
  rw [Text.length_lines, feeds_message]

theorem lines_message_iff {f : WriteFailure} :
    Text.lines f.message = [f.message] ↔ Text.feeds f.error.unquoted = 0 := by
  rw [Text.lines_eq_singleton_iff, feeds_message]

theorem length_flatMap_lines (failures : List WriteFailure) :
    (failures.flatMap fun f => Text.lines f.message).length =
      failures.length + (failures.map fun f => Text.feeds f.error.unquoted).sum := by
  induction failures with
  | nil => rfl
  | cons f rest ih =>
      rw [List.flatMap_cons, List.length_append, ih, length_lines, List.map_cons, List.sum_cons,
        List.length_cons]
      omega

/-- **A report on failed writes has the lines of each failure.** It has as many lines as there are
failures, and one more for every line feed in what was inserted unquoted. So its lines are the
failures, one by one, exactly when no such line feed is there. -/
theorem joined_line_by_line (failures : List WriteFailure) (h : failures ≠ []) :
    Text.lines (joined failures) = failures.flatMap (fun f => Text.lines f.message) ∧
    (Text.lines (joined failures)).length =
      failures.length + (failures.map fun f => Text.feeds f.error.unquoted).sum ∧
    (Text.lines (joined failures) = failures.map message ↔
      ∀ f ∈ failures, '\n' ∉ f.error.unquoted.toList) := by
  have hlines : Text.lines (joined failures) =
      failures.flatMap fun f => Text.lines f.message := by
    rw [joined, Text.lines_intercalate (by simpa using h), List.flatMap_map]
  have hlength := length_flatMap_lines failures
  refine ⟨hlines, by rw [hlines, hlength], ?_⟩
  simp only [← Text.feeds_eq_zero]
  rw [hlines]
  constructor
  · -- There is no room for a line feed when the lines are as many as the failures.
    intro heq f hf
    rw [heq, List.length_map] at hlength
    have hsum : (failures.map fun f => Text.feeds f.error.unquoted).sum = 0 := by omega
    exact List.sum_eq_zero_iff_forall_eq_nat.1 hsum _ (List.mem_map_of_mem hf)
  · intro hnone
    rw [List.map_eq_flatMap]
    exact List.flatMap_congr fun f hf => lines_message_iff.2 (hnone f hf)

/-- Two failures that are told in one word each stand on a line each. -/
theorem joined_line_by_line_two :
    [(⟨"b", .backend "boom"⟩ : WriteFailure), ⟨"d", .backend "bang"⟩] ≠ [] ∧
    Text.lines (joined [⟨"b", .backend "boom"⟩, ⟨"d", .backend "bang"⟩]) =
      ["error creating Promotion for Stage \"b\": boom",
        "error creating Promotion for Stage \"d\": bang"] := by
  have hne : [(⟨"b", .backend "boom"⟩ : WriteFailure), ⟨"d", .backend "bang"⟩] ≠ [] :=
    List.cons_ne_nil _ _
  refine ⟨hne, ((joined_line_by_line _ hne).2.2.2 ?_).trans (by decide)⟩
  decide

/-- One failure whose message has a line feed reads like two, and is told in the very words in which
these are told. -/
theorem joined_forged :
    let forged : List WriteFailure :=
      [⟨"b", .backend "boom\nerror creating Promotion for Stage \"d\": bang"⟩]
    let two : List WriteFailure := [⟨"b", .backend "boom"⟩, ⟨"d", .backend "bang"⟩]
    forged ≠ [] ∧ joined forged = joined two ∧
      (Text.lines (joined forged)).length = 2 ∧ forged.length = 1 ∧
      Text.lines (joined forged) ≠ forged.map message := by
  decide

end WriteFailure

end Delivery
