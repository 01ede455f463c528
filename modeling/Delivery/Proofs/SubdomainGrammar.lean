import Delivery.Proofs.StorableNames
import Mathlib.Computability.RegularExpressions

/-!
# The grammar of subdomain names

A name is a subdomain when it keeps to the greatest length and is labels with dots between
(`IsLabel`). That is the grammar in words; written as a pattern it is a regular expression
(`namePattern`). The scan of a name takes exactly what both describe
(`isSubdomain_iff_grammar`): it reads a name label by label, since it begins anew behind every dot
(`scan_append_dot`), and within a label it stands at an end exactly behind a letter or a digit.
-/

namespace Delivery.Subdomain

/-! ## Labels -/

/-- What stands between the dots of a name: letters, digits and hyphens, at least one of them, and
no hyphen at either end. -/
structure IsLabel (label : List Char) : Prop where
  ne_nil : label ≠ []
  chars : ∀ c ∈ label, isAlphanumeric c = true ∨ c = '-'
  first : label.head? ≠ some '-'
  last : label.getLast? ≠ some '-'

theorem isAlphanumeric_hyphen : isAlphanumeric '-' = false := by decide

theorem isAlphanumeric_dot : isAlphanumeric '.' = false := by decide

theorem IsLabel.dot_not_mem {label : List Char} (h : IsLabel label) : '.' ∉ label := by
  intro hdot
  rcases h.chars '.' hdot with halphanumeric | heq
  · rw [isAlphanumeric_dot] at halphanumeric
    cases halphanumeric
  · cases heq

/-- A text of label characters ends like a label when it does not end with a hyphen. -/
theorem endsLabel_iff {s : List Char} (hs : s ≠ [])
    (hchars : ∀ c ∈ s, isAlphanumeric c = true ∨ c = '-') :
    EndsLabel s ↔ s.getLast? ≠ some '-' := by
  have hlast : s.getLast? = some (s.getLast hs) := List.getLast?_eq_some_getLast hs
  have hends : EndsLabel s ↔ isAlphanumeric (s.getLast hs) = true := by simp [EndsLabel, hlast]
  rw [hends, hlast]
  rcases hchars _ (List.getLast_mem hs) with halphanumeric | hhyphen
  · refine iff_of_true halphanumeric fun heq => ?_
    rw [Option.some.inj heq, isAlphanumeric_hyphen] at halphanumeric
    cases halphanumeric
  · refine iff_of_false (fun halphanumeric => ?_) (fun hne => hne (congrArg some hhyphen))
    rw [hhyphen, isAlphanumeric_hyphen] at halphanumeric
    cases halphanumeric

/-! ## The scan of a label -/

/-- Behind the first character of a label the scan goes on over label characters, and stops at
anything else but a dot. -/
theorem exists_next_iff {p : Position} {c : Char} (hp : p ≠ .labelStart) (hdot : c ≠ '.') :
    (∃ q, p.next c = some q ∧ q ≠ .labelStart) ↔ isAlphanumeric c = true ∨ c = '-' := by
  unfold Position.next
  cases hc : isAlphanumeric c with
  | true => simp
  | false =>
      cases p with
      | labelStart => exact absurd rfl hp
      | mayEnd => by_cases hhyphen : c = '-' <;> simp [hhyphen, hdot]
      | mustGoOn => by_cases hhyphen : c = '-' <;> simp [hhyphen]

theorem next_ne_labelStart {p q : Position} {c : Char} (hdot : c ≠ '.') (h : p.next c = some q) :
    q ≠ .labelStart := by
  unfold Position.next at h
  grind

/-- Within a label the scan comes as far as there are label characters. -/
theorem exists_after_iff {p : Position} {s : List Char} (hp : p ≠ .labelStart) (hdot : '.' ∉ s) :
    (∃ q, p.after s = some q) ↔ ∀ c ∈ s, isAlphanumeric c = true ∨ c = '-' := by
  induction s generalizing p with
  | nil => exact iff_of_true ⟨p, rfl⟩ fun c hc => absurd hc List.not_mem_nil
  | cons c rest ih =>
      obtain ⟨hc, hrest⟩ := List.ne_and_not_mem_of_not_mem_cons hdot
      rw [List.forall_mem_cons, ← exists_next_iff hp (Ne.symm hc), Position.after,
        List.foldlM_cons]
      cases hnext : p.next c with
      | none => simp
      | some q =>
          have hq : q ≠ .labelStart := next_ne_labelStart (Ne.symm hc) hnext
          rw [← ih hq hrest]
          simp [hq, Position.after]

/-- **The scan takes a text without dots when it is a label.** -/
theorem scan_iff_isLabel {s : List Char} (hdot : '.' ∉ s) :
    scan .labelStart s = true ↔ IsLabel s := by
  cases s with
  | nil => exact iff_of_false (by decide) fun h => h.ne_nil rfl
  | cons c rest =>
      have hne : c :: rest ≠ [] := List.cons_ne_nil c rest
      rw [scan_eq, decide_eq_true_eq]
      cases hc : isAlphanumeric c with
      | false =>
          -- Nothing else may stand at the beginning of a label.
          have hstuck : Position.after .labelStart (c :: rest) = none := by
            rw [Position.after, List.foldlM_cons, Position.next, if_neg (by simp [hc])]
            rfl
          refine iff_of_false (by simp [hstuck]) fun hlabel => ?_
          rcases hlabel.chars c List.mem_cons_self with halphanumeric | hhyphen
          · rw [hc] at halphanumeric
            cases halphanumeric
          · exact hlabel.first (congrArg some hhyphen)
      | true =>
          have hstep : Position.after .labelStart (c :: rest) = Position.after .mayEnd rest := by
            rw [Position.after, List.foldlM_cons, Position.next, if_pos hc]
            rfl
          have hgoes := exists_after_iff (p := .mayEnd) (by decide)
            (List.ne_and_not_mem_of_not_mem_cons hdot).2
          constructor
          · intro hend
            have hchars : ∀ d ∈ c :: rest, isAlphanumeric d = true ∨ d = '-' :=
              List.forall_mem_cons.2 ⟨.inl hc, hgoes.1 ⟨_, hstep.symm.trans hend⟩⟩
            refine ⟨hne, hchars, fun hfirst => ?_, ?_⟩
            · rw [Option.some.inj hfirst, isAlphanumeric_hyphen] at hc
              cases hc
            · exact (endsLabel_iff hne hchars).1 ((Position.eq_mayEnd_of_after hne hend).1 rfl)
          · intro hlabel
            obtain ⟨q, hq⟩ := hgoes.2 (List.forall_mem_cons.1 hlabel.chars).2
            have hend : Position.after .labelStart (c :: rest) = some q := hstep.trans hq
            rw [hend, (Position.eq_mayEnd_of_after hne hend).2
              ((endsLabel_iff hne hlabel.chars).2 hlabel.last)]

/-! ## Names are labels with dots between -/

/-- The scan begins anew behind every dot. -/
theorem scan_append_dot (p : Position) (a b : List Char) :
    scan p (a ++ '.' :: b) = (scan p a && scan .labelStart b) := by
  rw [scan_eq, scan_eq, scan_eq, Position.after_append]
  cases p.after a with
  | none => rfl
  | some q =>
      show decide (q.after ('.' :: b) = some .mayEnd) = _
      rw [Position.after_dot]
      by_cases hq : q = .mayEnd
      · simp [hq]
      · simp [hq]

theorem scan_intercalate (labels : List (List Char)) (hne : labels ≠ []) :
    scan .labelStart (['.'].intercalate labels) = true ↔
      ∀ label ∈ labels, scan .labelStart label = true := by
  induction labels with
  | nil => exact absurd rfl hne
  | cons label rest ih =>
      cases rest with
      | nil => simp
      | cons next rest =>
          rw [List.intercalate_cons_cons, List.append_assoc, List.singleton_append,
            scan_append_dot, Bool.and_eq_true, ih (List.cons_ne_nil _ _),
            List.forall_mem_cons (l := next :: rest)]

/-- No piece of a text that was divided at a character has that character. -/
theorem not_mem_of_mem_splitOn {d : Char} {s piece : List Char} (h : piece ∈ s.splitOn d) :
    d ∉ piece := by
  induction s generalizing piece with
  | nil =>
      obtain rfl : piece = [] := by simpa using h
      exact List.not_mem_nil
  | cons c rest ih =>
      rw [List.splitOn_cons_eq_if_modifyHead] at h
      obtain ⟨head, tail, hsplit⟩ := List.exists_cons_of_ne_nil (List.splitOn_ne_nil d rest)
      rw [hsplit] at h ih
      by_cases hc : c = d
      · rw [if_pos (beq_iff_eq.2 hc)] at h
        rcases List.mem_cons.1 h with rfl | h
        · exact List.not_mem_nil
        · exact ih h
      · rw [if_neg (by simpa using hc), List.modifyHead_cons] at h
        rcases List.mem_cons.1 h with rfl | h
        · exact List.not_mem_cons_of_ne_of_not_mem (Ne.symm hc) (ih List.mem_cons_self)
        · exact ih (List.mem_cons_of_mem _ h)

/-- **The scan takes a text when all that stands between its dots is labels.** -/
theorem scan_iff_labels (s : List Char) :
    scan .labelStart s = true ↔ ∀ label ∈ s.splitOn '.', IsLabel label := by
  have hscan := scan_intercalate (s.splitOn '.') (List.splitOn_ne_nil '.' s)
  rw [List.intercalate_splitOn] at hscan
  rw [hscan]
  exact forall₂_congr fun label hlabel => scan_iff_isLabel (not_mem_of_mem_splitOn hlabel)

/-! ## The pattern of names -/

/-- One character out of some. -/
def oneOf (chars : List Char) : RegularExpression Char := (chars.map .char).sum

/-- Small letters and digits: `[a-z0-9]`. -/
def alphanumerics : List Char := "abcdefghijklmnopqrstuvwxyz0123456789".toList

/-- The pattern of a label: `[a-z0-9]([-a-z0-9]*[a-z0-9])?`. -/
def labelPattern : RegularExpression Char :=
  oneOf alphanumerics *
    (1 + .star (oneOf ('-' :: alphanumerics)) * oneOf alphanumerics)

/-- The pattern of a name, from its beginning to its end:
`^[a-z0-9]([-a-z0-9]*[a-z0-9])?(\.[a-z0-9]([-a-z0-9]*[a-z0-9])?)*$`. -/
def namePattern : RegularExpression Char := labelPattern * .star (.char '.' * labelPattern)

theorem mem_oneOf {chars s : List Char} : s ∈ (oneOf chars).matches' ↔ ∃ c ∈ chars, s = [c] := by
  induction chars with
  | nil => exact iff_of_false (fun h => h) fun ⟨c, hc, _⟩ => absurd hc List.not_mem_nil
  | cons a rest ih =>
      have hsum : oneOf (a :: rest) = .char a + oneOf rest := by simp [oneOf]
      have hchar : s ∈ (RegularExpression.char a).matches' ↔ s = [a] := Iff.rfl
      rw [hsum, RegularExpression.matches'_add, Language.mem_add, ih, hchar,
        List.exists_mem_cons_iff]

theorem mem_star_oneOf {chars s : List Char} :
    s ∈ (RegularExpression.star (oneOf chars)).matches' ↔ ∀ c ∈ s, c ∈ chars := by
  rw [RegularExpression.matches'_star, Language.mem_kstar]
  constructor
  · rintro ⟨pieces, rfl, hpieces⟩ c hc
    obtain ⟨piece, hpiece, hc⟩ := List.mem_flatten.1 hc
    obtain ⟨d, hd, rfl⟩ := mem_oneOf.1 (hpieces piece hpiece)
    rwa [List.mem_singleton.1 hc]
  · intro hchars
    refine ⟨s.map fun c => [c], ?_, ?_⟩
    · induction s with
      | nil => rfl
      | cons c rest ih =>
          rw [List.map_cons, List.flatten_cons, List.singleton_append,
            ← ih fun d hd => hchars d (List.mem_cons_of_mem _ hd)]
    · intro piece hpiece
      obtain ⟨c, hc, rfl⟩ := List.mem_map.1 hpiece
      exact mem_oneOf.2 ⟨c, hchars c hc, rfl⟩

theorem mem_alphanumerics {c : Char} : c ∈ alphanumerics ↔ isAlphanumeric c = true := by
  constructor
  · have hall : alphanumerics.all isAlphanumeric = true := by decide +kernel
    exact List.all_eq_true.1 hall c
  · intro hc
    have hall : ∀ n < 128, isAlphanumeric (Char.ofNat n) = true → Char.ofNat n ∈ alphanumerics := by
      decide +kernel
    have hmem := hall c.toNat (toNat_lt_of_isNameChar (by simp [isNameChar, hc]))
    rw [Char.ofNat_toNat] at hmem
    exact hmem hc

/-- **The pattern of a label describes labels.** -/
theorem mem_labelPattern {s : List Char} : s ∈ labelPattern.matches' ↔ IsLabel s := by
  have hhyphen {c : Char} (hc : isAlphanumeric c = true) : some c ≠ some '-' := by
    intro heq
    rw [Option.some.inj heq, isAlphanumeric_hyphen] at hc
    cases hc
  have hchar {c : Char} (hc : c ∈ '-' :: alphanumerics) : isAlphanumeric c = true ∨ c = '-' :=
    (List.mem_cons.1 hc).symm.imp_left mem_alphanumerics.1
  unfold labelPattern
  simp only [RegularExpression.matches'_mul, RegularExpression.matches'_add, Language.mem_mul,
    Language.mem_add, RegularExpression.matches'_epsilon, Language.mem_one, mem_oneOf,
    mem_star_oneOf, mem_alphanumerics]
  constructor
  · rintro ⟨_, ⟨a, ha, rfl⟩, rest, rfl | ⟨middle, hmiddle, _, ⟨b, hb, rfl⟩, rfl⟩, rfl⟩
    · -- A label of one character.
      refine ⟨by simp, ?_, hhyphen ha, hhyphen ha⟩
      intro c hc
      rw [List.append_nil, List.mem_singleton] at hc
      exact .inl (hc ▸ ha)
    · refine ⟨by simp, ?_, hhyphen ha, ?_⟩
      · intro c hc
        simp only [List.mem_append, List.mem_singleton] at hc
        rcases hc with rfl | hc | rfl
        · exact .inl ha
        · exact hchar (hmiddle c hc)
        · exact .inl hb
      · rw [← List.append_assoc, List.getLast?_concat]
        exact hhyphen hb
  · intro hlabel
    obtain ⟨a, rest, rfl⟩ := List.exists_cons_of_ne_nil hlabel.ne_nil
    have ha : isAlphanumeric a = true :=
      (hlabel.chars a List.mem_cons_self).resolve_right fun heq => hlabel.first (congrArg some heq)
    refine ⟨[a], ⟨a, ha, rfl⟩, rest, ?_, rfl⟩
    rcases List.eq_nil_or_concat rest with rfl | ⟨middle, b, rfl⟩
    · exact .inl rfl
    · rw [List.concat_eq_append] at hlabel ⊢
      have hb : isAlphanumeric b = true := by
        refine (hlabel.chars b (by simp)).resolve_right fun heq => hlabel.last ?_
        rw [← List.cons_append, List.getLast?_concat, heq]
      refine .inr ⟨middle, fun c hc => ?_, [b], ⟨b, hb, rfl⟩, rfl⟩
      have hc : isAlphanumeric c = true ∨ c = '-' := hlabel.chars c (by simp [hc])
      exact List.mem_cons.2 (hc.symm.imp_right mem_alphanumerics.2)

/-- A label, and more of them each behind a dot. -/
theorem append_flatten_dotted (label : List Char) (labels : List (List Char)) :
    label ++ (labels.map fun l => '.' :: l).flatten = ['.'].intercalate (label :: labels) := by
  induction labels generalizing label with
  | nil => simp
  | cons next rest ih =>
      rw [List.intercalate_cons_cons, ← ih next]
      simp

theorem mem_namePattern_iff_exists {s : List Char} :
    s ∈ namePattern.matches' ↔ ∃ label labels, (∀ l ∈ label :: labels, IsLabel l) ∧
      s = ['.'].intercalate (label :: labels) := by
  have hdotted {piece : List Char} : piece ∈ (.char '.' * labelPattern).matches' ↔
      ∃ l, IsLabel l ∧ '.' :: l = piece := by
    rw [RegularExpression.matches'_mul, Language.mem_mul]
    constructor
    · rintro ⟨dot, hdot, l, hl, rfl⟩
      obtain rfl : dot = ['.'] := hdot
      exact ⟨l, mem_labelPattern.1 hl, rfl⟩
    · rintro ⟨l, hl, rfl⟩
      exact ⟨['.'], rfl, l, mem_labelPattern.2 hl, rfl⟩
  unfold namePattern
  rw [RegularExpression.matches'_mul, Language.mem_mul, RegularExpression.matches'_star]
  simp only [mem_labelPattern, Language.mem_kstar]
  constructor
  · rintro ⟨label, hlabel, _, ⟨pieces, rfl, hpieces⟩, rfl⟩
    obtain ⟨labels, hlabels, rfl⟩ : ∃ labels : List (List Char), (∀ l ∈ labels, IsLabel l) ∧
        labels.map (fun l => '.' :: l) = pieces := by
      induction pieces with
      | nil => exact ⟨[], fun l hl => absurd hl List.not_mem_nil, rfl⟩
      | cons piece rest ih =>
          obtain ⟨hpiece, hrest⟩ := List.forall_mem_cons.1 hpieces
          obtain ⟨l, hl, rfl⟩ := hdotted.1 hpiece
          obtain ⟨labels, hlabels, rfl⟩ := ih hrest
          exact ⟨l :: labels, List.forall_mem_cons.2 ⟨hl, hlabels⟩, rfl⟩
    exact ⟨label, labels, List.forall_mem_cons.2 ⟨hlabel, hlabels⟩,
      append_flatten_dotted label labels⟩
  · rintro ⟨label, labels, hlabels, rfl⟩
    obtain ⟨hlabel, hlabels⟩ := List.forall_mem_cons.1 hlabels
    refine ⟨label, hlabel, _, ⟨labels.map fun l => '.' :: l, rfl, ?_⟩,
      append_flatten_dotted label labels⟩
    intro piece hpiece
    obtain ⟨l, hl, rfl⟩ := List.mem_map.1 hpiece
    exact hdotted.2 ⟨l, hlabels l hl, rfl⟩

/-- **The pattern of a name describes labels with dots between.** -/
theorem mem_namePattern {s : List Char} :
    s ∈ namePattern.matches' ↔ ∀ label ∈ s.splitOn '.', IsLabel label := by
  rw [mem_namePattern_iff_exists]
  constructor
  · rintro ⟨label, labels, hlabels, rfl⟩
    rwa [List.splitOn_intercalate '.' (fun l hl => (hlabels l hl).dot_not_mem)
      (List.cons_ne_nil label labels)]
  · intro hlabels
    obtain ⟨label, labels, hsplit⟩ := List.exists_cons_of_ne_nil (List.splitOn_ne_nil '.' s)
    refine ⟨label, labels, hsplit ▸ hlabels, ?_⟩
    rw [← hsplit, List.intercalate_splitOn]

/-- **A name is a subdomain exactly by the grammar.** It has 253 bytes at most, and it is one label
or more with dots between; which is to say that it has 253 bytes at most and the whole of it is
described by the pattern. -/
theorem isSubdomain_iff_grammar (name : String) :
    (isSubdomain name = true ↔ name.utf8ByteSize ≤ 253 ∧
      name.toList.splitOn '.' ≠ [] ∧ ∀ label ∈ name.toList.splitOn '.', IsLabel label) ∧
    (isSubdomain name = true ↔
      name.utf8ByteSize ≤ 253 ∧ name.toList ∈ namePattern.matches') := by
  have hscan : isSubdomain name = true ↔
      name.utf8ByteSize ≤ 253 ∧ scan .labelStart name.toList = true := by
    rw [isSubdomain, Bool.and_eq_true, decide_eq_true_eq]
    rfl
  refine ⟨?_, ?_⟩
  · rw [hscan, scan_iff_labels]
    exact and_congr_right fun _ => (and_iff_right (List.splitOn_ne_nil '.' _)).symm
  · rw [hscan, scan_iff_labels, mem_namePattern]

/-! A line feed at the end is part of the last label. -/

example : isSubdomain "a.0" = true ∧ isSubdomain "a.0\n" = false := by decide +kernel

end Delivery.Subdomain
