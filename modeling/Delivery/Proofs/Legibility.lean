import Delivery.Proofs.TimestampText
import Delivery.Resource.Encoding

/-!
# Legible resources

Its moments are the only part of a resource that its JSON form may not tell: a leap second within a
minute is written as the second after it. `Promotion.asRead` is a promotion with every moment as it
is read from its text, and so for stages and freights. It has the JSON form of the promotion
(`Promotion.toJson_asRead`), and it is the promotion exactly when that is legible
(`Promotion.asRead_eq_self_iff`).
-/

namespace Delivery

/-! ## As they are read -/

/-- Metadata with its moment as it is read. -/
def Metadata.asRead (m : Metadata) : Metadata :=
  { m with created := m.created.map fun t => t.asRead }

/-- A qualification with its moment as it is read. -/
def Qualification.asRead (q : Qualification) : Qualification :=
  ⟨q.verifiedAt.map fun t => t.asRead⟩

/-- A stage with its moment as it is read. -/
def Stage.asRead (s : Stage) : Stage := { s with metadata := s.metadata.asRead }

/-- A freight with its moments as they are read. -/
def Freight.asRead (f : Freight) : Freight :=
  ⟨f.metadata.asRead, f.qualifications.map Qualification.asRead⟩

/-- A promotion with its moment as it is read. -/
def Promotion.asRead (p : Promotion) : Promotion := { p with metadata := p.metadata.asRead }

/-! ## Legible ones -/

/-- The moment in the metadata can be read from its text. -/
def Metadata.Legible (m : Metadata) : Prop := ∀ t ∈ m.created, t.time.isLegible = true

/-- The moment in the qualification can be read from its text. -/
def Qualification.Legible (q : Qualification) : Prop := ∀ t ∈ q.verifiedAt, t.time.isLegible = true

/-- The moment in the stage can be read from its text. -/
def Stage.Legible (s : Stage) : Prop := s.metadata.Legible

/-- Every moment in the freight can be read from its text. -/
def Freight.Legible (f : Freight) : Prop :=
  f.metadata.Legible ∧ ∀ e ∈ f.qualifications.toList, e.2.Legible

/-- The moment in the promotion can be read from its text. -/
def Promotion.Legible (p : Promotion) : Prop := p.metadata.Legible

theorem DateTime.map_asRead_eq_self_iff {x : Option DateTime} :
    (x.map fun t => (t.asRead : DateTime)) = x ↔ ∀ t ∈ x, t.time.isLegible = true := by
  cases x with
  | none => simp
  | some t => simp [asRead_eq_self_iff]

theorem Metadata.asRead_eq_self_iff {m : Metadata} : m.asRead = m ↔ m.Legible := by
  obtain ⟨project, name, labels, owners, created⟩ := m
  simp only [asRead, mk.injEq, true_and, DateTime.map_asRead_eq_self_iff, Legible]

theorem Qualification.asRead_eq_self_iff {q : Qualification} : q.asRead = q ↔ q.Legible := by
  obtain ⟨verifiedAt⟩ := q
  simp only [asRead, mk.injEq, DateTime.map_asRead_eq_self_iff, Legible]

theorem Stage.asRead_eq_self_iff {s : Stage} : s.asRead = s ↔ s.Legible := by
  obtain ⟨metadata, spec⟩ := s
  simp only [asRead, mk.injEq, and_true, Metadata.asRead_eq_self_iff, Legible]

theorem Freight.asRead_eq_self_iff {f : Freight} : f.asRead = f ↔ f.Legible := by
  obtain ⟨metadata, qualifications⟩ := f
  simp only [asRead, mk.injEq, Metadata.asRead_eq_self_iff, Table.map_eq_self_iff,
    Qualification.asRead_eq_self_iff, Legible]

theorem Promotion.asRead_eq_self_iff {p : Promotion} : p.asRead = p ↔ p.Legible := by
  obtain ⟨metadata, spec⟩ := p
  simp only [asRead, mk.injEq, and_true, Metadata.asRead_eq_self_iff, Legible]

/-- What is read is legible. -/
theorem Metadata.legible_asRead (m : Metadata) : m.asRead.Legible := by
  intro t ht
  obtain ⟨t, -, rfl⟩ := Option.map_eq_some_iff.1 ht
  exact t.asRead.time_legible

theorem Promotion.legible_asRead (p : Promotion) : p.asRead.Legible := p.metadata.legible_asRead

/-- A promotion that is built is legible: its moment is a clock's. -/
theorem Promotion.legible_build (stage : Stage) (freight : String) (stamp : Stamp) :
    (build stage freight stamp).Legible := by
  rintro _ ⟨⟩
  exact stamp.created.time_legible

/-! ## Written alike -/

theorem DateTime.toJson_asRead (m : DateTime) : (m.asRead : DateTime).toJson = m.toJson :=
  congrArg Json.text m.text_asRead

theorem optionalMember_map {α β : Type} (name : String) (encode : β → Json) (f : α → β)
    (x : Option α) :
    optionalMember name encode (x.map f) = optionalMember name (fun a => encode (f a)) x := by
  cases x <;> rfl

theorem tableMember_map {α β : Type} (name : String) (encode : β → Json) (f : α → β)
    (t : Table String α) :
    tableMember name encode (t.map f) = tableMember name (fun a => encode (f a)) t := by
  have hempty : (t.map f).isEmpty = t.isEmpty := List.isEmpty_map
  unfold tableMember
  rw [hempty, Table.toList_map, List.map_map]
  rfl

theorem Metadata.toJson_asRead (m : Metadata) : m.asRead.toJson = m.toJson := by
  simp only [toJson, asRead, optionalMember_map, DateTime.toJson_asRead]

theorem Qualification.toJson_asRead (q : Qualification) : q.asRead.toJson = q.toJson := by
  simp only [toJson, asRead, optionalMember_map, DateTime.toJson_asRead]

theorem Stage.toJson_asRead (s : Stage) : s.asRead.toJson = s.toJson := by
  simp only [toJson, asRead, Metadata.toJson_asRead]

theorem Freight.toJson_asRead (f : Freight) : f.asRead.toJson = f.toJson := by
  simp only [toJson, asRead, Metadata.toJson_asRead, tableMember_map, Qualification.toJson_asRead]

theorem Promotion.toJson_asRead (p : Promotion) : p.asRead.toJson = p.toJson := by
  simp only [toJson, asRead, Metadata.toJson_asRead]

/-- A moment in the leap second after 23:56:04. -/
def DateTime.leaping : DateTime where
  date := ⟨2024, 1, 2⟩
  time := ⟨23, 56, 4, 1333333333⟩

/-- The moment in the second after that which is written alike. -/
def DateTime.afterLeap : DateTime where
  date := ⟨2024, 1, 2⟩
  time := ⟨23, 56, 5, 333333333⟩

example : (DateTime.leaping.asRead : DateTime) = .afterLeap := by decide

/-- A promotion created at a given moment. -/
def Promotion.createdAt (m : DateTime) : Promotion :=
  ⟨{ project := "proj", name := "p", created := some m }, ⟨"qa", "f1"⟩⟩

end Delivery
