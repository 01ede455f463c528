import Delivery.Proofs.DecodedValues
import Delivery.Proofs.JsonText

/-!
# Resources written and read back

Stages, freights and promotions are read back from their texts and from the values that are handed
on instead of texts, exactly as they were if they are legible (`resources_roundTrip`). A resource's
JSON form holds no number, so its text is read as it was written; its fields stand apart from each
other, so the order of the members does not matter. What no text can tell is a leap second within a
minute: it comes back as the second after it (`leap_second_lost`).
-/

namespace Delivery

open Json

/-! ## No numbers -/

section Numberless

variable {α : Type} {encode : α → Json}

theorem numberless_optionalMember (h : ∀ a, Numberless (encode a)) (name : String) (x : Option α) :
    ∀ m ∈ optionalMember name encode x, Numberless m.2 := by
  intro m hm
  cases x with
  | none => cases hm
  | some a =>
      obtain rfl := List.mem_singleton.1 hm
      exact h a

theorem numberless_listMember (h : ∀ a, Numberless (encode a)) (name : String) (l : List α) :
    ∀ m ∈ listMember name encode l, Numberless m.2 := by
  intro m hm
  unfold listMember at hm
  split at hm
  · cases hm
  · obtain rfl := List.mem_singleton.1 hm
    refine .list fun v hv => ?_
    obtain ⟨a, -, rfl⟩ := List.mem_map.1 hv
    exact h a

theorem numberless_tableMember (h : ∀ a, Numberless (encode a)) (name : String)
    (t : Table String α) : ∀ m ∈ tableMember name encode t, Numberless m.2 := by
  intro m hm
  unfold tableMember at hm
  split at hm
  · cases hm
  · obtain rfl := List.mem_singleton.1 hm
    refine .object fun e he => ?_
    obtain ⟨e, -, rfl⟩ := List.mem_map.1 he
    exact h e.2

theorem numberless_append {a b : List (String × Json)} (ha : ∀ m ∈ a, Numberless m.2)
    (hb : ∀ m ∈ b, Numberless m.2) : ∀ m ∈ a ++ b, Numberless m.2 :=
  List.forall_mem_append.2 ⟨ha, hb⟩

theorem numberless_cons {name : String} {v : Json} {rest : List (String × Json)}
    (hv : Numberless v) (hrest : ∀ m ∈ rest, Numberless m.2) :
    ∀ m ∈ (name, v) :: rest, Numberless m.2 :=
  List.forall_mem_cons.2 ⟨hv, hrest⟩

theorem numberless_nil : ∀ m ∈ ([] : List (String × Json)), Numberless m.2 :=
  fun _ hm => absurd hm List.not_mem_nil

end Numberless

theorem DateTime.numberless (m : DateTime) : Numberless m.toJson := .text _

theorem Owner.numberless (o : Owner) : Numberless o.toJson :=
  .object (numberless_cons (.text _) (numberless_cons (.text _) numberless_nil))

theorem PromotionSpec.numberless (s : PromotionSpec) : Numberless s.toJson :=
  .object (numberless_cons (.text _) (numberless_cons (.text _) numberless_nil))

theorem Metadata.numberless (m : Metadata) : Numberless m.toJson := by
  have hnames : ∀ e ∈ [("namespace", Json.text m.project), ("name", .text m.name)],
      Numberless e.2 :=
    numberless_cons (.text _) (numberless_cons (.text _) numberless_nil)
  exact .object (numberless_append (numberless_append (numberless_append hnames
    (numberless_tableMember .text _ _)) (numberless_listMember Owner.numberless _ _))
    (numberless_optionalMember DateTime.numberless _ _))

theorem Source.numberless (u : Source) : Numberless u.toJson :=
  .object (numberless_cons (.text _) numberless_nil)

theorem Subscriptions.numberless (s : Subscriptions) : Numberless s.toJson :=
  .object (numberless_append (numberless_optionalMember .text _ _)
    (numberless_listMember Source.numberless _ _))

theorem StageSpec.numberless (s : StageSpec) : Numberless s.toJson :=
  .object (numberless_optionalMember Subscriptions.numberless _ _)

theorem Stage.numberless (s : Stage) : Numberless s.toJson :=
  .object (numberless_cons s.metadata.numberless
    (numberless_optionalMember StageSpec.numberless _ _))

theorem Qualification.numberless (q : Qualification) : Numberless q.toJson :=
  .object (numberless_optionalMember DateTime.numberless _ _)

theorem Freight.numberless (f : Freight) : Numberless f.toJson :=
  .object (numberless_cons f.metadata.numberless
    (numberless_tableMember Qualification.numberless _ _))

theorem Promotion.numberless (p : Promotion) : Numberless p.toJson :=
  .object (numberless_cons p.metadata.numberless
    (numberless_cons p.spec.numberless numberless_nil))

/-! ## Any order of members -/

/-- The one field of a structure has none beside it. -/
theorem singleShape_separate {α β : Type} (name : String) {field : FieldShape (Option α)}
    (build : Option α → Option β) (h : field.Steady) :
    (singleShape name field build).Separate where
  apart f hf g hg hne := by
    obtain rfl := List.mem_singleton.1 hf
    obtain rfl := List.mem_singleton.1 hg
    exact absurd rfl hne
  steady f hf := List.mem_singleton.1 hf ▸ h

theorem separate_of_pair {σ α : Type} {s : Shape σ α} {f g : FieldShape σ}
    (hfields : s.fields = [f, g]) (hfg : f.Apart g) (hgf : g.Apart f) (hf : f.Steady)
    (hg : g.Steady) : s.Separate where
  apart a ha b hb hne := by
    rw [hfields] at ha hb
    simp only [List.mem_cons, List.not_mem_nil, or_false] at ha hb
    rcases ha with rfl | rfl
    · rcases hb with rfl | rfl
      · exact absurd rfl hne
      · exact hfg
    · rcases hb with rfl | rfl
      · exact hgf
      · exact absurd rfl hne
  steady a ha := by
    rw [hfields] at ha
    simp only [List.mem_cons, List.not_mem_nil, or_false] at ha
    rcases ha with rfl | rfl
    · exact hf
    · exact hg

theorem pairShape_separate {α : Type} (name first second : String)
    (make : String → String → α) : (pairShape name first second make).Separate :=
  separate_of_pair rfl (.of_stored (by intros; rfl) (by intros; rfl))
    (.of_stored (by intros; rfl) (by intros; rfl)) (.of_stored orderless_string (by intros; rfl))
    (.of_stored orderless_string (by intros; rfl))

theorem Owner.orderless : Orderless Owner.decode := (pairShape_separate _ _ _ _).orderless

theorem PromotionSpec.orderless : Orderless PromotionSpec.decode :=
  (pairShape_separate _ _ _ _).orderless

theorem Metadata.shape_separate : Metadata.shape.Separate where
  apart f hf g hg hne := by
    simp only [shape, List.mem_cons, List.not_mem_nil, or_false] at hf hg
    -- Each of the five fields beside each other one.
    rcases hf with rfl | rfl | rfl | rfl | rfl <;> rcases hg with rfl | rfl | rfl | rfl | rfl <;>
      first
      | exact absurd rfl hne
      | exact .of_stored (by intros; rfl) (by intros; rfl)
  steady f hf := by
    simp only [shape, List.mem_cons, List.not_mem_nil, or_false] at hf
    rcases hf with rfl | rfl | rfl | rfl | rfl
    · exact .of_stored orderless_string (by intros; rfl)
    · exact .of_stored orderless_string (by intros; rfl)
    · exact .of_stored (orderless_table orderless_string) (by intros; rfl)
    · exact .of_stored (orderless_list Owner.orderless) (by intros; rfl)
    · exact .of_stored (orderless_option orderless_dateTime) (by intros; rfl)

theorem Metadata.orderless : Orderless Metadata.decode := shape_separate.orderless

theorem Source.orderless : Orderless Source.decode :=
  (singleShape_separate _ _ (.of_stored orderless_string (by intros; rfl))).orderless

theorem Subscriptions.orderless : Orderless Subscriptions.decode := by
  have hseparate : shape.Separate := separate_of_pair rfl
    (.of_stored (by intros; rfl) (by intros; rfl)) (.of_stored (by intros; rfl) (by intros; rfl))
    (.of_stored (orderless_option orderless_string) (by intros; rfl))
    (.of_stored (orderless_list Source.orderless) (by intros; rfl))
  exact hseparate.orderless

theorem StageSpec.orderless : Orderless StageSpec.decode :=
  (singleShape_separate _ _
    (.of_stored (orderless_option Subscriptions.orderless) (by intros; rfl))).orderless

theorem Stage.orderless : Orderless Stage.decode := by
  have hseparate : shape.Separate := separate_of_pair rfl
    (.of_stored (by intros; rfl) (by intros; rfl)) (.of_stored (by intros; rfl) (by intros; rfl))
    (.of_stored Metadata.orderless (by intros; rfl))
    (.of_stored (orderless_option StageSpec.orderless) (by intros; rfl))
  exact hseparate.orderless

theorem Qualification.orderless : Orderless Qualification.decode :=
  (singleShape_separate _ _
    (.of_stored (orderless_option orderless_dateTime) (by intros; rfl))).orderless

theorem Freight.orderless : Orderless Freight.decode := by
  have hseparate : shape.Separate := separate_of_pair rfl
    (.of_stored (by intros; rfl) (by intros; rfl)) (.of_stored (by intros; rfl) (by intros; rfl))
    (.of_stored Metadata.orderless (by intros; rfl))
    (.of_stored (orderless_table Qualification.orderless) (by intros; rfl))
  exact hseparate.orderless

theorem Promotion.orderless : Orderless Promotion.decode := by
  have hseparate : shape.Separate := separate_of_pair rfl
    (.of_stored (by intros; rfl) (by intros; rfl)) (.of_stored (by intros; rfl) (by intros; rfl))
    (.of_stored Metadata.orderless (by intros; rfl))
    (.of_stored PromotionSpec.orderless (by intros; rfl))
  exact hseparate.orderless

/-! ## There and back -/

namespace Json

variable {α : Type} {d : Decoder α} {encode : α → Json} {asRead : α → α} {Legible : α → Prop}

/-- Values of a type are written and read back: legible ones as they are, any other one as the
legible one that is written alike. -/
structure RoundTrips (asRead : α → α) (Legible : α → Prop) (d : Decoder α) (encode : α → Json) :
    Prop where
  /-- From its text every value is read back. -/
  text : ∀ a, decodeText d (encode a).compact = .ok (asRead a)
  /-- So it is from the value that is handed on, with the members of every object sorted. -/
  value : ∀ a, decodeJson d (encode a).sorted = .ok (asRead a)
  /-- It comes back exactly as it was if it is legible, and only then. -/
  same : ∀ a, asRead a = a ↔ Legible a
  /-- The text denotes the value that is handed on. -/
  denotes : ∀ a, parse? (encode a).compact = some (encode a).sorted
  /-- What was read from any text at all is legible, and the same after it is written and read
  again. -/
  stable : ∀ s a, decodeText d s = .ok a →
    Legible a ∧ decodeText d (encode a).compact = decodeText d s
  /-- Values are written alike exactly when they are read back alike. -/
  text_eq_iff : ∀ a b, (encode a).compact = (encode b).compact ↔ asRead a = asRead b
  /-- Values are handed on alike exactly when they are read back alike. -/
  value_eq_iff : ∀ a b, (encode a).sorted = (encode b).sorted ↔ asRead a = asRead b

/-- **An encoding without numbers is read back from its text** when its decoder reads every value,
does not mind the order of members and makes only legible values. -/
theorem RoundTrips.of_reads (hreads : ReadsAs asRead d encode)
    (hwritten : ∀ a, encode (asRead a) = encode a) (hsame : ∀ a, asRead a = a ↔ Legible a)
    (hmakes : Makes d Legible) (horderless : Orderless d)
    (hnumberless : ∀ a, Numberless (encode a)) : RoundTrips asRead Legible d encode := by
  have htext (a : α) : decodeText d (encode a).compact = .ok (asRead a) := by
    rw [(hnumberless a).decodeText_compact, hreads a]
  have hvalue (a : α) : decodeJson d (encode a).sorted = .ok (asRead a) :=
    horderless _ _ (hreads a)
  have halike {a b : α} (h : asRead a = asRead b) : encode a = encode b := by
    rw [← hwritten a, h, hwritten b]
  constructor
  case text => exact htext
  case value => exact hvalue
  case same => exact hsame
  case denotes =>
    intro a
    rw [parse?, (hnumberless a).ofText_compact]
    exact toJson?_ofJson (encode a)
  case stable =>
    intro s a h
    have hlegible : Legible a := hmakes.of_text h
    refine ⟨hlegible, ?_⟩
    rw [htext, h, (hsame a).2 hlegible]
  case text_eq_iff =>
    intro a b
    constructor
    · intro h
      exact Except.ok.inj ((htext a).symm.trans (h ▸ htext b))
    · intro h
      rw [halike h]
  case value_eq_iff =>
    intro a b
    constructor
    · intro h
      exact Except.ok.inj ((hvalue a).symm.trans (h ▸ hvalue b))
    · intro h
      rw [halike h]

end Json

/-- **Every stage, freight and promotion is written and read back**, whatever its fields hold: from
its text and from the value handed on, exactly as it was but for leap seconds within a minute. -/
theorem resources_roundTrip :
    RoundTrips Stage.asRead Stage.Legible Stage.decode Stage.toJson ∧
    RoundTrips Freight.asRead Freight.Legible Freight.decode Freight.toJson ∧
    RoundTrips Promotion.asRead Promotion.Legible Promotion.decode Promotion.toJson :=
  ⟨.of_reads Stage.reads Stage.toJson_asRead (fun _ => Stage.asRead_eq_self_iff)
      Stage.makes_legible Stage.orderless Stage.numberless,
    .of_reads Freight.reads Freight.toJson_asRead (fun _ => Freight.asRead_eq_self_iff)
      Freight.makes_legible Freight.orderless Freight.numberless,
    .of_reads Promotion.reads Promotion.toJson_asRead (fun _ => Promotion.asRead_eq_self_iff)
      Promotion.makes_legible Promotion.orderless Promotion.numberless⟩

/-- A leap second within a minute is not read back: the promotion that was created in it, and the
freight that was verified in it, come back with the second after it. -/
theorem leap_second_lost :
    let promotion := Promotion.createdAt
    let freight := (Freight.named "proj" "f1").qualifiedFor "qa"
    promotion .leaping ≠ promotion .afterLeap ∧ freight .leaping ≠ freight .afterLeap ∧
    decodeText Promotion.decode (promotion .leaping).toJson.compact = .ok (promotion .afterLeap) ∧
    decodeJson Promotion.decode (promotion .leaping).toJson.sorted = .ok (promotion .afterLeap) ∧
    decodeText Freight.decode (freight .leaping).toJson.compact = .ok (freight .afterLeap) ∧
    decodeJson Freight.decode (freight .leaping).toJson.sorted = .ok (freight .afterLeap) := by
  decide +kernel

end Delivery
