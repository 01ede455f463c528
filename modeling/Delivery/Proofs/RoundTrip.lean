import Delivery.Proofs.Legibility
import Delivery.Resource.Decoding

/-!
# Values read back

A decoder reads an encoding (`Json.Reads`) when it gives back every value from its JSON form; where
that form does not tell all of a value, it reads it as another one (`Json.ReadsAs`). The members of
an object are followed one by one through a shape (`Json.Shape.Takes`): each puts its value among
the parts, and one that is left out leaves the parts as they are. In this way stages, freights and
promotions are read back, whatever they hold, with their moments as these are read (`Stage.reads`,
`Freight.reads`, `Promotion.reads`).
-/

namespace Delivery

namespace Json

/-- From its JSON form a decoder gives back every value as it is read. -/
def ReadsAs {α : Type} (asRead : α → α) (d : Decoder α) (encode : α → Json) : Prop :=
  ∀ a, decodeJson d (encode a) = .ok (asRead a)

/-- A decoder gives back every value from its JSON form. -/
abbrev Reads {α : Type} (d : Decoder α) (encode : α → Json) : Prop := ReadsAs id d encode

theorem reads_string : Reads decodeString .text := fun _ => rfl

theorem reads_dateTime : ReadsAs (fun m => m.asRead) decodeDateTime DateTime.toJson := by
  intro m
  unfold decodeJson DateTime.toJson
  rw [Node.ofJson, decodeDateTime, DateTime.read_text]

/-! ## Lists and tables -/

variable {α β σ : Type} {d : Decoder α} {encode : α → Json} {asRead : α → α}

theorem ofMembers_eq_map (l : List (String × Json)) :
    Node.ofMembers l = l.map fun m => (some m.1, Node.ofJson m.2) := by
  induction l with
  | nil => rfl
  | cons m rest ih => rw [Node.ofMembers, ih, List.map_cons]

theorem decodeItems_map (h : Reads d encode) (l : List α) :
    decodeItems d (Node.ofItems (l.map encode)) = .ok l := by
  induction l with
  | nil => rfl
  | cons a rest ih =>
      have ha : d (Node.ofJson (encode a)) = .ok a := h a
      rw [List.map_cons, Node.ofItems, decodeItems, ha]
      dsimp only
      rw [ih]

theorem reads_list (h : Reads d encode) :
    Reads (decodeList d) fun l => .list (l.map encode) := by
  intro l
  unfold decodeJson
  rw [Node.ofJson, decodeList, decodeItems_map h]
  rfl

/-- Entries are put into the table one after another. -/
theorem decodeEntries_map (h : ReadsAs asRead d encode) (l : List (String × α))
    (t : Table String α) :
    decodeEntries d t (Node.ofMembers (l.map fun e => (e.1, encode e.2))) =
      .ok (l.foldl (fun t e => t.insert e.1 (asRead e.2)) t) := by
  induction l generalizing t with
  | nil => rfl
  | cons e rest ih =>
      have he : d (Node.ofJson (encode e.2)) = .ok (asRead e.2) := h e.2
      rw [List.map_cons, Node.ofMembers, decodeEntries, he]
      exact ih _

theorem reads_table (h : ReadsAs asRead d encode) :
    ReadsAs (Table.map asRead) (decodeTable d)
      fun t => .object (t.toList.map fun e => (e.1, encode e.2)) := by
  intro t
  have hentries : t.toList.foldl (fun t e => t.insert e.1 (asRead e.2)) .empty = t.map asRead := by
    rw [← Table.ofList_toList (t.map asRead), Table.ofList, Table.toList_map, List.foldl_map]
  unfold decodeJson
  rw [Node.ofJson, decodeTable, decodeEntries_map h, hentries]
  rfl

/-- Where null may stand, anything else is decoded as it is elsewhere. -/
theorem decodeOption_of_ne_null {v : Json} (hv : v ≠ .null) (d : Decoder α) :
    decodeJson (decodeOption d) v = (decodeJson d v).map some := by
  cases v with
  | null => exact absurd rfl hv
  | _ => rfl

/-- A value that is never null is read where null may stand. -/
theorem reads_option (h : ReadsAs asRead d encode) (hnull : ∀ a, encode a ≠ .null) (a : α) :
    decodeJson (decodeOption d) (encode a) = .ok (some (asRead a)) := by
  rw [decodeOption_of_ne_null (hnull a), h a]
  rfl

/-! ## Structures -/

namespace Shape

variable {s : Shape σ β} {parts parts' parts'' : σ}

/-- The members of an object lead from some parts to others. -/
def Takes (s : Shape σ β) (members : List (String × Json)) (parts parts' : σ) : Prop :=
  s.readObject parts (Node.ofMembers members) = .ok parts'

theorem Takes.nil : s.Takes [] parts parts := rfl

theorem readObject_append (parts : σ) (a b : List (Option String × Node)) :
    s.readObject parts (a ++ b) =
      (s.readObject parts a).bind fun parts => s.readObject parts b := by
  induction a generalizing parts with
  | nil => rfl
  | cons m rest ih =>
      obtain ⟨k, n⟩ := m
      cases k with
      | none => rfl
      | some k =>
          rw [List.cons_append, readObject, readObject]
          cases s.fields.find? (·.name == k) with
          | none =>
              dsimp only
              cases n.skip with
              | error f => rfl
              | ok u => exact ih parts
          | some f =>
              dsimp only
              by_cases hpresent : f.present parts = true
              · rw [if_pos hpresent, if_pos hpresent]
                rfl
              · rw [if_neg hpresent, if_neg hpresent]
                cases f.read n parts with
                | error e => rfl
                | ok next => exact ih next

theorem Takes.append {a b : List (String × Json)} (h : s.Takes a parts parts')
    (h' : s.Takes b parts' parts'') : s.Takes (a ++ b) parts parts'' := by
  unfold Takes at *
  rw [ofMembers_eq_map, List.map_append, ← ofMembers_eq_map, ← ofMembers_eq_map,
    readObject_append, h]
  exact h'

variable {name : String} {get : σ → Option α} {set : Option α → σ → σ}

theorem takes_one {f : FieldShape σ} {v : Json}
    (hfind : s.fields.find? (·.name == name) = some f) (hpresent : f.present parts = false)
    (hread : f.read (.ofJson v) parts = .ok parts') : s.Takes [(name, v)] parts parts' := by
  show s.readObject parts [(some name, Node.ofJson v)] = _
  rw [readObject, hfind]
  dsimp only
  rw [hpresent, if_neg (by decide), hread]
  rfl

/-- A member that must be there puts its value among the parts. -/
theorem takes_required {v : Json} {a : α}
    (hfind : s.fields.find? (·.name == name) = some (requiredField name d get set))
    (hget : get parts = none) (hset : set (some a) parts = parts')
    (hv : decodeJson d v = .ok a) : s.Takes [(name, v)] parts parts' := by
  refine takes_one hfind ?_ ?_
  · show (get parts).isSome = false
    rw [hget]
    rfl
  · have hv : d (.ofJson v) = .ok a := hv
    show (d (.ofJson v)).map (fun v => set (some v) parts) = _
    rw [hv, ← hset]
    rfl

/-- One that may be left out does so too, and nothing when it is left out. -/
theorem takes_optional {γ : Type} {encode : γ → Json} {asRead : γ → α} (x : Option γ)
    (hx : ∀ c, decodeJson d (encode c) = .ok (asRead c))
    (hfind : s.fields.find? (·.name == name) = some (optionalField name d get set))
    (hget : get parts = none) (hnone : set none parts = parts)
    (hset : set (x.map asRead) parts = parts') :
    s.Takes (x.map fun c => (name, encode c)).toList parts parts' := by
  cases x with
  | none =>
      rw [Option.map_none, hnone] at hset
      rw [hset]
      exact .nil
  | some c =>
      refine takes_one hfind ?_ ?_
      · show (get parts).isSome = false
        rw [hget]
        rfl
      · have hc : d (.ofJson (encode c)) = .ok (asRead c) := hx c
        show (d (.ofJson (encode c))).map (fun v => set (some v) parts) = _
        rw [hc, ← hset]
        rfl

theorem takes_optionalMember {get : σ → Option (Option α)} {set : Option (Option α) → σ → σ}
    (x : Option α) (hd : ReadsAs asRead d encode) (hnull : ∀ a, encode a ≠ .null)
    (hfind : s.fields.find? (·.name == name) = some (optionalField name (decodeOption d) get set))
    (hget : get parts = none) (hnone : set none parts = parts)
    (hset : set (x.map fun a => some (asRead a)) parts = parts') :
    s.Takes (optionalMember name encode x) parts parts' := by
  have hmember : optionalMember name encode x = (x.map fun a => (name, encode a)).toList := by
    cases x <;> rfl
  rw [hmember]
  exact takes_optional x (reads_option hd hnull) hfind hget hnone hset

/-- What is written of a list: nothing when it is empty. -/
def listWritten (l : List α) : Option (List α) := if l.isEmpty then none else some l

theorem listWritten_getD (l : List α) : (listWritten l).getD [] = l := by
  cases l <;> rfl

theorem takes_listMember {get : σ → Option (List α)} {set : Option (List α) → σ → σ} (l : List α)
    (hd : Reads d encode)
    (hfind : s.fields.find? (·.name == name) = some (optionalField name (decodeList d) get set))
    (hget : get parts = none) (hnone : set none parts = parts)
    (hset : set (listWritten l) parts = parts') :
    s.Takes (listMember name encode l) parts parts' := by
  have hmember : listMember name encode l =
      ((listWritten l).map fun l => (name, Json.list (l.map encode))).toList := by
    cases l <;> rfl
  rw [hmember]
  refine takes_optional _ (reads_list hd) hfind hget hnone ?_
  rw [Option.map_id]
  exact hset

/-- What is written of a table: nothing when it is empty. -/
def tableWritten (t : Table String α) : Option (Table String α) :=
  if t.isEmpty then none else some t

theorem tableWritten_getD (t : Table String α) : (tableWritten t).getD .empty = t := by
  obtain ⟨entries, sorted⟩ := t
  cases entries <;> rfl

theorem takes_tableMember {get : σ → Option (Table String α)}
    {set : Option (Table String α) → σ → σ} (t : Table String α) (hd : ReadsAs asRead d encode)
    (hfind : s.fields.find? (·.name == name) = some (optionalField name (decodeTable d) get set))
    (hget : get parts = none) (hnone : set none parts = parts)
    (hset : set (tableWritten (t.map asRead)) parts = parts') :
    s.Takes (tableMember name encode t) parts parts' := by
  have hmember : tableMember name encode t = ((tableWritten t).map fun t =>
      (name, Json.object (t.toList.map fun e => (e.1, encode e.2)))).toList := by
    obtain ⟨entries, sorted⟩ := t
    cases entries <;> rfl
  have hwritten : (tableWritten t).map (Table.map asRead) = tableWritten (t.map asRead) := by
    obtain ⟨entries, sorted⟩ := t
    cases entries <;> rfl
  rw [hmember]
  refine takes_optional _ (reads_table hd) hfind hget hnone ?_
  rw [hwritten]
  exact hset

/-- An object is decoded when its members lead to parts from which the value is built. -/
theorem decode_object {members : List (String × Json)} {b : β}
    (h : s.Takes members s.start parts) (hfinish : s.finish parts = .ok b) :
    decodeJson s.decode (.object members) = .ok b := by
  have h : s.readObject s.start (Node.ofMembers members) = .ok parts := h
  unfold decodeJson
  rw [Node.ofJson, decode, h]
  exact hfinish

end Shape

end Json

open Json

/-! ## Metadata -/

/-- A structure of two strings is read. -/
theorem decode_pair {α : Type} (name : String) {first second : String}
    (make : String → String → α) (hne : (first == second) = false) (x y : String) :
    decodeJson (pairShape name first second make).decode
      (.object [(first, .text x), (second, .text y)]) = .ok (make x y) := by
  have hfirst : (pairShape name first second make).Takes [(first, .text x)] (none, none)
      (some x, none) := by
    have hfind : (pairShape name first second make).fields.find? (·.name == first) =
        some (requiredField first decodeString Prod.fst fun v p => (v, p.2)) :=
      List.find?_cons_of_pos BEq.rfl
    exact Shape.takes_required hfind rfl rfl (reads_string x)
  have hsecond : (pairShape name first second make).Takes [(second, .text y)] (some x, none)
      (some x, some y) := by
    have hfind : (pairShape name first second make).fields.find? (·.name == second) =
        some (requiredField second decodeString Prod.snd fun v p => (p.1, v)) := by
      refine (List.find?_cons_of_neg ?_).trans (List.find?_cons_of_pos BEq.rfl)
      show ¬ (first == second) = true
      rw [hne]
      decide
    exact Shape.takes_required hfind rfl rfl (reads_string y)
  exact Shape.decode_object (hfirst.append hsecond) rfl

theorem Owner.reads : Reads Owner.decode Owner.toJson := fun o =>
  decode_pair "OwnerReference" Owner.mk (by decide) o.kind o.name

theorem PromotionSpec.reads : Reads PromotionSpec.decode PromotionSpec.toJson := fun p =>
  decode_pair "PromotionSpec" PromotionSpec.mk (by decide) p.stage p.freight

theorem Metadata.reads : ReadsAs asRead Metadata.decode Metadata.toJson := by
  intro m
  have hproject : shape.Takes [("namespace", .text m.project)] {} { project := some m.project } :=
    Shape.takes_required rfl rfl rfl (reads_string m.project)
  have hname : shape.Takes [("name", .text m.name)] { project := some m.project }
      { project := some m.project, name := some m.name } :=
    Shape.takes_required rfl rfl rfl (reads_string m.name)
  have hlabels : shape.Takes (tableMember "labels" .text m.labels)
      { project := some m.project, name := some m.name }
      { project := some m.project, name := some m.name
        labels := Shape.tableWritten (m.labels.map id) } :=
    Shape.takes_tableMember _ reads_string rfl rfl rfl rfl
  have howners : shape.Takes (listMember "owner_references" Owner.toJson m.owners)
      { project := some m.project, name := some m.name
        labels := Shape.tableWritten (m.labels.map id) }
      { project := some m.project, name := some m.name
        labels := Shape.tableWritten (m.labels.map id), owners := Shape.listWritten m.owners } :=
    Shape.takes_listMember _ Owner.reads rfl rfl rfl rfl
  have hcreated : shape.Takes (optionalMember "creation_timestamp" DateTime.toJson m.created)
      { project := some m.project, name := some m.name
        labels := Shape.tableWritten (m.labels.map id), owners := Shape.listWritten m.owners }
      { project := some m.project, name := some m.name
        labels := Shape.tableWritten (m.labels.map id), owners := Shape.listWritten m.owners
        created := m.created.map fun t => some t.asRead } :=
    Shape.takes_optionalMember _ reads_dateTime (fun _ h => by cases h) rfl rfl rfl rfl
  refine Shape.decode_object
    ((((hproject.append hname).append hlabels).append howners).append hcreated) ?_
  show Except.ok (Metadata.mk m.project m.name
    ((Shape.tableWritten (m.labels.map id)).getD .empty) ((Shape.listWritten m.owners).getD [])
    ((m.created.map fun t => some (t.asRead : DateTime)).getD none)) = _
  rw [Shape.tableWritten_getD, Shape.listWritten_getD, Table.map_eq_self_iff.2 fun _ _ => rfl]
  obtain ⟨project, name, labels, owners, created⟩ := m
  cases created <;> rfl

/-! ## Stages -/

theorem Source.reads : Reads Source.decode Source.toJson := fun u =>
  Shape.decode_object (Shape.takes_required rfl rfl rfl (reads_string u.name)) rfl

theorem Subscriptions.reads : Reads Subscriptions.decode Subscriptions.toJson := by
  intro s
  have hwarehouse : shape.Takes (optionalMember "warehouse" .text s.warehouse) {}
      { warehouse := s.warehouse.map some } :=
    Shape.takes_optionalMember _ reads_string (fun _ h => by cases h) rfl rfl rfl rfl
  have hsources : shape.Takes (listMember "upstream_stages" Source.toJson s.sources)
      { warehouse := s.warehouse.map some }
      { warehouse := s.warehouse.map some, sources := Shape.listWritten s.sources } :=
    Shape.takes_listMember _ Source.reads rfl rfl rfl rfl
  refine Shape.decode_object (hwarehouse.append hsources) ?_
  show Except.ok (Subscriptions.mk ((s.warehouse.map some).getD none)
    ((Shape.listWritten s.sources).getD [])) = _
  rw [Shape.listWritten_getD]
  obtain ⟨warehouse, sources⟩ := s
  cases warehouse <;> rfl

theorem StageSpec.reads : Reads StageSpec.decode StageSpec.toJson := by
  intro s
  obtain ⟨subscriptions⟩ := s
  refine Shape.decode_object (Shape.takes_optionalMember subscriptions Subscriptions.reads
    (fun _ h => by cases h) rfl rfl rfl rfl) ?_
  cases subscriptions <;> rfl

/-- **Every stage is read back from its JSON form.** -/
theorem Stage.reads : ReadsAs asRead Stage.decode Stage.toJson := by
  intro s
  obtain ⟨metadata, spec⟩ := s
  have hmetadata : shape.Takes [("metadata", metadata.toJson)] {}
      { metadata := some metadata.asRead } :=
    Shape.takes_required rfl rfl rfl (Metadata.reads metadata)
  have hspec : shape.Takes (optionalMember "spec" StageSpec.toJson spec)
      { metadata := some metadata.asRead }
      { metadata := some metadata.asRead, spec := spec.map some } :=
    Shape.takes_optionalMember _ StageSpec.reads (fun _ h => by cases h) rfl rfl rfl rfl
  refine Shape.decode_object (hmetadata.append hspec) ?_
  cases spec <;> rfl

/-! ## Freight -/

theorem Qualification.reads : ReadsAs asRead Qualification.decode Qualification.toJson := by
  intro q
  obtain ⟨verifiedAt⟩ := q
  refine Shape.decode_object (Shape.takes_optionalMember verifiedAt reads_dateTime
    (fun _ h => by cases h) rfl rfl rfl rfl) ?_
  cases verifiedAt <;> rfl

/-- **Every freight is read back from its JSON form.** -/
theorem Freight.reads : ReadsAs asRead Freight.decode Freight.toJson := by
  intro f
  have hmetadata : shape.Takes [("metadata", f.metadata.toJson)] {}
      { metadata := some f.metadata.asRead } :=
    Shape.takes_required rfl rfl rfl (Metadata.reads f.metadata)
  have hqualifications : shape.Takes
      (tableMember "qualifications" Qualification.toJson f.qualifications)
      { metadata := some f.metadata.asRead }
      { metadata := some f.metadata.asRead
        qualifications := Shape.tableWritten (f.qualifications.map Qualification.asRead) } :=
    Shape.takes_tableMember _ Qualification.reads rfl rfl rfl rfl
  refine Shape.decode_object (hmetadata.append hqualifications) ?_
  show Except.ok (Freight.mk f.metadata.asRead ((Shape.tableWritten
    (f.qualifications.map Qualification.asRead)).getD .empty)) = _
  rw [Shape.tableWritten_getD]
  rfl

/-! ## Promotions -/

/-- **Every promotion is read back from its JSON form.** -/
theorem Promotion.reads : ReadsAs asRead Promotion.decode Promotion.toJson := by
  intro p
  have hmetadata : shape.Takes [("metadata", p.metadata.toJson)] {}
      { metadata := some p.metadata.asRead } :=
    Shape.takes_required rfl rfl rfl (Metadata.reads p.metadata)
  have hspec : shape.Takes [("spec", p.spec.toJson)] { metadata := some p.metadata.asRead }
      { metadata := some p.metadata.asRead, spec := some p.spec } :=
    Shape.takes_required rfl rfl rfl (PromotionSpec.reads p.spec)
  exact Shape.decode_object (hmetadata.append hspec) rfl

end Delivery
