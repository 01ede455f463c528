import Delivery.Json.Decode

/-!
# Values read back from their texts

The compact text of a value without numbers is split into the tokens it was written with, whatever
follows it (`tokens_quoted` for strings), and the tokens are assembled to the node of the value
(`assemble_render`). So the text of such a value is a faultless document of it
(`ofText_compact`), and decoding the text is decoding the value (`decodeText_compact`).
-/

namespace Delivery.Json

/-- A value in which no number stands. -/
inductive Numberless : Json → Prop where
  | null : Numberless .null
  | bool (b : Bool) : Numberless (.bool b)
  | text (s : String) : Numberless (.text s)
  | list {items : List Json} (h : ∀ v ∈ items, Numberless v) : Numberless (.list items)
  | object {members : List (String × Json)} (h : ∀ m ∈ members, Numberless m.2) :
      Numberless (.object members)

/-! ## Strings -/

theorem string?_plain {c : Char} (hquote : c ≠ '\x22') (hcontrol : ¬ c.toNat < 0x20)
    (hback : c ≠ '\\') (readable : Bool) (acc r : List Char) :
    string? readable acc (c :: r) = string? readable (c :: acc) r := by
  rw [string?, if_neg hquote, if_neg hcontrol, if_pos hback]

theorem string?_escaped {x : Char} {r rest : List Char} (h : unescape r = .char x rest)
    (readable : Bool) (acc : List Char) :
    string? readable acc ('\\' :: r) = string? readable (x :: acc) rest := by
  rw [string?, if_neg (by decide), if_neg (by decide), if_neg (by decide)]
  split
  next hx =>
    rw [h] at hx
    cases hx
    rfl
  all_goals
    next hx =>
      rw [h] at hx
      cases hx

theorem hexDigit?_digitChar {d : Nat} (h : d < 16) : Text.hexDigit? (Nat.digitChar d) = some d := by
  have hall : ∀ d < 16, Text.hexDigit? (Nat.digitChar d) = some d := by decide
  exact hall d h

/-- A control character is read from its four digits. -/
theorem unescape_control {c : Char} (h : c.toNat < 0x20) (rest : List Char) :
    unescape ('u' :: '0' :: '0' :: Nat.digitChar (c.toNat / 16) :: Nat.digitChar (c.toNat % 16) ::
      rest) = .char c rest := by
  have hzero : Text.hexDigit? '0' = some 0 := rfl
  have hvalue : ((0 * 16 + 0) * 16 + c.toNat / 16) * 16 + c.toNat % 16 = c.toNat := by omega
  have htrailing : trailing c.toNat = false := by
    simp only [trailing, Bool.and_eq_false_iff, decide_eq_false_iff_not]
    omega
  have hleading : leading c.toNat = false := by
    simp only [leading, Bool.and_eq_false_iff, decide_eq_false_iff_not]
    omega
  rw [unescape, hexEscape, hzero, hexDigit?_digitChar (by omega), hexDigit?_digitChar (by omega)]
  dsimp only
  rw [hvalue, htrailing, hleading, if_neg (by decide), if_neg (by decide), Char.ofNat_toNat]

/-- Every character is read from its form inside a string. -/
theorem string?_escape (c : Char) (readable : Bool) (acc rest : List Char) :
    string? readable acc (escape c ++ rest) = string? readable (c :: acc) rest := by
  have hshort {e x : Char} (h : unescape (e :: rest) = .char x rest) :
      string? readable acc ('\\' :: e :: rest) = string? readable (x :: acc) rest :=
    string?_escaped h readable acc
  unfold escape
  by_cases hquote : c = '\x22'
  · subst hquote
    exact hshort rfl
  by_cases hback : c = '\\'
  · subst hback
    exact hshort rfl
  by_cases hb : c = '\x08'
  · subst hb
    exact hshort rfl
  by_cases hf : c = '\x0c'
  · subst hf
    exact hshort rfl
  by_cases hn : c = '\n'
  · subst hn
    exact hshort rfl
  by_cases hr : c = '\r'
  · subst hr
    exact hshort rfl
  by_cases ht : c = '\t'
  · subst ht
    exact hshort rfl
  rw [if_neg hquote, if_neg hback, if_neg hb, if_neg hf, if_neg hn, if_neg hr, if_neg ht]
  by_cases hcontrol : c.toNat < 0x20
  · rw [if_pos hcontrol]
    exact string?_escaped (unescape_control hcontrol rest) readable acc
  · rw [if_neg hcontrol]
    exact string?_plain hquote hcontrol hback readable acc rest

/-- **A string is read from its quoted form**, up to its closing quote. -/
theorem string?_quoted (s acc rest : List Char) :
    string? true acc (s.flatMap escape ++ '\x22' :: rest) =
      (.text (some (String.ofList (acc.reverse ++ s))), rest) := by
  induction s generalizing acc with
  | nil =>
      rw [List.flatMap_nil, List.nil_append, string?, if_pos rfl, if_pos rfl, List.append_nil]
  | cons c s ih =>
      rw [List.flatMap_cons, List.append_assoc, string?_escape, ih, List.reverse_cons,
        List.append_assoc, List.singleton_append]

/-! ## Tokens -/

theorem tokens_cons {c : Char} {r rest : List Char} {t : Token} (hblank : isBlank c = false)
    (htoken : token c r = (t, rest)) (hlast : t.isLast = false) :
    tokens (c :: r) = t :: tokens rest := by
  rw [tokens, hblank, if_neg (by decide), htoken]
  dsimp only
  rw [hlast, if_neg (by decide)]

theorem tokens_openList (rest : List Char) : tokens ('[' :: rest) = .openList :: tokens rest :=
  tokens_cons rfl rfl rfl

theorem tokens_closeList (rest : List Char) : tokens (']' :: rest) = .closeList :: tokens rest :=
  tokens_cons rfl rfl rfl

theorem tokens_openObject (rest : List Char) :
    tokens ('\x7b' :: rest) = .openObject :: tokens rest := tokens_cons rfl rfl rfl

theorem tokens_closeObject (rest : List Char) :
    tokens ('\x7d' :: rest) = .closeObject :: tokens rest := tokens_cons rfl rfl rfl

theorem tokens_comma (rest : List Char) : tokens (',' :: rest) = .comma :: tokens rest :=
  tokens_cons rfl rfl rfl

theorem tokens_colon (rest : List Char) : tokens (':' :: rest) = .colon :: tokens rest :=
  tokens_cons rfl rfl rfl

theorem tokens_null (rest : List Char) :
    tokens (render .null ++ rest) = .scalar .null :: tokens rest :=
  show tokens ('n' :: 'u' :: 'l' :: 'l' :: rest) = _ from tokens_cons rfl rfl rfl

theorem tokens_bool (b : Bool) (rest : List Char) :
    tokens (render (.bool b) ++ rest) = .scalar (.bool b) :: tokens rest := by
  cases b with
  | true =>
      show tokens ('t' :: 'r' :: 'u' :: 'e' :: rest) = _
      exact tokens_cons rfl rfl rfl
  | false =>
      show tokens ('f' :: 'a' :: 'l' :: 's' :: 'e' :: rest) = _
      exact tokens_cons rfl rfl rfl

theorem tokens_quoted (s : String) (rest : List Char) :
    tokens (quoted s ++ rest) = .scalar (.text (some s)) :: tokens rest := by
  have hrest : quoted s ++ rest = '\x22' :: (s.toList.flatMap escape ++ '\x22' :: rest) := by
    simp [quoted]
  have htoken : token '\x22' (s.toList.flatMap escape ++ '\x22' :: rest) =
      (.scalar (.text (some s)), rest) := by
    show (Token.scalar (string? true [] _).1, (string? true [] _).2) = _
    rw [string?_quoted, List.reverse_nil, List.nil_append, String.ofList_toList]
  rw [hrest, tokens_cons rfl htoken rfl]

/-! ## Reading on -/

/-- What a reader makes of the tokens left over after a step. -/
def Step.resume : Step → List Token → Document
  | .next frames due, rest => assemble frames due rest
  | .finished n, rest => ⟨n, !rest.isEmpty⟩
  | .stopped n, _ => ⟨n, false⟩

theorem assemble_cons (frames : List Frame) (due : Due) (t : Token) (rest : List Token) :
    assemble frames due (t :: rest) = (Step.read frames due t).resume rest := by
  rw [assemble]
  cases Step.read frames due t <;> rfl

/-- A value's text begins with a token that closes no list. -/
theorem Numberless.exists_token {v : Json} (h : Numberless v) (rest : List Char) :
    ∃ t more, tokens (v.render ++ rest) = t :: more ∧ t ≠ .closeList := by
  cases h with
  | null => exact ⟨_, _, tokens_null rest, by decide⟩
  | bool b => exact ⟨_, _, tokens_bool b rest, by simp⟩
  | text s => exact ⟨_, _, tokens_quoted s rest, by simp⟩
  | list _ => exact ⟨_, _, tokens_openList _, by decide⟩
  | object _ => exact ⟨_, _, tokens_openObject _, by decide⟩

/-- A value is read where the first item of a list is due as it is anywhere. -/
theorem Numberless.assemble_firstItem {v : Json} (h : Numberless v) (frames : List Frame)
    (rest : List Char) :
    assemble frames .firstItem (tokens (v.render ++ rest)) =
      assemble frames .value (tokens (v.render ++ rest)) := by
  obtain ⟨t, more, htokens, hopen⟩ := h.exists_token rest
  rw [htokens, assemble_cons, assemble_cons]
  cases t <;> first | rfl | exact absurd rfl hopen

/-- From the node of a value on, a reader goes on after it. -/
def ReadsOn (v : Json) : Prop :=
  ∀ frames rest, assemble frames .value (tokens (v.render ++ rest)) =
    (Step.after (Node.ofJson v) frames).resume (tokens rest)

theorem assemble_items {items : List Json} (h : ∀ v ∈ items, ReadsOn v) (hne : items ≠ [])
    (before : List Node) (outer : List Frame) (rest : List Char) :
    assemble (.list before :: outer) .value (tokens (renderItems items ++ ']' :: rest)) =
      (Step.after (.list (before.reverse ++ Node.ofItems items) .closed) outer).resume
        (tokens rest) := by
  induction items generalizing before with
  | nil => exact absurd rfl hne
  | cons v more ih =>
      have hv := h v List.mem_cons_self
      cases more with
      | nil =>
          rw [renderItems, hv]
          show assemble (.list (Node.ofJson v :: before) :: outer) .afterItem
            (tokens (']' :: rest)) = _
          rw [tokens_closeList, assemble_cons]
          show (Step.after (.list (Node.ofJson v :: before).reverse .closed) outer).resume _ = _
          rw [List.reverse_cons]
          rfl
      | cons w more =>
          have hmore := ih (fun v hv => h v (List.mem_cons_of_mem _ hv)) (List.cons_ne_nil _ _)
            (Node.ofJson v :: before)
          rw [renderItems, List.append_assoc, hv, List.cons_append]
          · show assemble (.list (Node.ofJson v :: before) :: outer) .afterItem
              (tokens (',' :: (renderItems (w :: more) ++ ']' :: rest))) = _
            rw [tokens_comma, assemble_cons]
            show assemble (.list (Node.ofJson v :: before) :: outer) .value _ = _
            rw [hmore, List.reverse_cons, List.append_assoc]
            rfl
          · exact List.cons_ne_nil _ _

/-- One member of an object is read up to its end, from where a key may stand. -/
theorem assemble_member {k : String} {v : Json} (h : ReadsOn v) {due : Due}
    (hdue : due = .firstKey ∨ due = .key) (before : List (Option String × Node))
    (outer : List Frame) (rest : List Char) :
    assemble (.object before :: outer) due (tokens (quoted k ++ ':' :: v.render ++ rest)) =
      assemble (.object ((some k, Node.ofJson v) :: before) :: outer) .afterField (tokens rest) := by
  have hkey : Step.read (.object before :: outer) due (.scalar (.text (some k))) =
      .next (.field before (some k) :: outer) .colon := by
    rcases hdue with rfl | rfl <;> rfl
  rw [List.append_assoc, tokens_quoted, assemble_cons, hkey, List.cons_append]
  show assemble (.field before (some k) :: outer) .colon _ = _
  rw [tokens_colon, assemble_cons]
  show assemble (.field before (some k) :: outer) .value _ = _
  rw [h]
  rfl

theorem assemble_members {members : List (String × Json)} (h : ∀ m ∈ members, ReadsOn m.2)
    (hne : members ≠ []) {due : Due} (hdue : due = .firstKey ∨ due = .key)
    (before : List (Option String × Node)) (outer : List Frame) (rest : List Char) :
    assemble (.object before :: outer) due (tokens (renderMembers members ++ '\x7d' :: rest)) =
      (Step.after (.object (before.reverse ++ Node.ofMembers members) .closed) outer).resume
        (tokens rest) := by
  induction members generalizing before due with
  | nil => exact absurd rfl hne
  | cons m more ih =>
      obtain ⟨k, v⟩ := m
      have hv : ReadsOn v := h (k, v) List.mem_cons_self
      cases more with
      | nil =>
          rw [renderMembers, assemble_member hv hdue, tokens_closeObject, assemble_cons]
          show (Step.after (.object ((some k, Node.ofJson v) :: before).reverse .closed)
            outer).resume _ = _
          rw [List.reverse_cons]
          rfl
      | cons w more =>
          have hmore := ih (fun m hm => h m (List.mem_cons_of_mem _ hm)) (List.cons_ne_nil _ _)
            (.inr rfl) ((some k, Node.ofJson v) :: before)
          have hrender : renderMembers ((k, v) :: w :: more) ++ '\x7d' :: rest =
              quoted k ++ ':' :: v.render ++ ',' :: (renderMembers (w :: more) ++ '\x7d' :: rest) := by
            rw [renderMembers]
            · simp
            · exact List.cons_ne_nil _ _
          rw [hrender, assemble_member hv hdue, tokens_comma, assemble_cons]
          show assemble (.object ((some k, Node.ofJson v) :: before) :: outer) .key _ = _
          rw [hmore, List.reverse_cons, List.append_assoc]
          rfl

/-- **A value is read from its text wherever one is due**, and reading goes on behind it. -/
theorem Numberless.assemble_render {v : Json} (h : Numberless v) : ReadsOn v := by
  induction h with
  | null =>
      intro frames rest
      rw [tokens_null, assemble_cons]
      rfl
  | bool b =>
      intro frames rest
      rw [tokens_bool, assemble_cons]
      rfl
  | text s =>
      intro frames rest
      rw [render, tokens_quoted, assemble_cons]
      rfl
  | @list items hitems ih =>
      intro frames rest
      have hrender : render (.list items) ++ rest = '[' :: (renderItems items ++ ']' :: rest) := by
        simp [render]
      rw [hrender, tokens_openList, assemble_cons]
      show assemble (.list [] :: frames) .firstItem _ = _
      cases items with
      | nil =>
          rw [renderItems, List.nil_append, tokens_closeList, assemble_cons]
          rfl
      | cons v more =>
          have hfirst : ∃ tail, renderItems (v :: more) ++ ']' :: rest = v.render ++ tail := by
            cases more with
            | nil => exact ⟨_, rfl⟩
            | cons w more => exact ⟨_, List.append_assoc _ _ _⟩
          obtain ⟨tail, htail⟩ := hfirst
          rw [htail, (hitems v List.mem_cons_self).assemble_firstItem, ← htail,
            assemble_items ih (List.cons_ne_nil _ _)]
          rfl
  | @object members hmembers ih =>
      intro frames rest
      have hrender : render (.object members) ++ rest =
          '\x7b' :: (renderMembers members ++ '\x7d' :: rest) := by
        simp [render]
      rw [hrender, tokens_openObject, assemble_cons]
      show assemble (.object [] :: frames) .firstKey _ = _
      cases members with
      | nil =>
          rw [renderMembers, List.nil_append, tokens_closeObject, assemble_cons]
          rfl
      | cons m more =>
          rw [assemble_members ih (List.cons_ne_nil _ _) (.inl rfl)]
          rfl

/-! ## Documents -/

/-- **The text of a value is a faultless document of it.** -/
theorem Numberless.ofText_compact {v : Json} (h : Numberless v) :
    Document.ofText v.compact = ⟨.ofJson v, false⟩ := by
  have hread := h.assemble_render [] []
  rw [List.append_nil] at hread
  rw [Document.ofText, compact, String.toList_ofList, hread, tokens]
  rfl

/-- Decoding the text of a value is decoding the value. -/
theorem Numberless.decodeText_compact {α : Type} {v : Json} (h : Numberless v) (d : Decoder α) :
    decodeText d v.compact = decodeJson d v := by
  rw [decodeText, h.ofText_compact, Document.decode, decodeJson]
  cases d (.ofJson v) <;> rfl

end Delivery.Json
