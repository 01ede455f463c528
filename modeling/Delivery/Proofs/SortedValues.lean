import Delivery.Proofs.RoundTrip

/-!
# Values with sorted members

A value that is handed on instead of its text has the members of every object sorted by name
(`Json.sorted`); it is what reading the text yields (`Json.toJson?_ofJson`). A decoder is orderless
when it takes a value in this form as it takes the value as it was written. Strings, lists and tables
are decoded so, and so is every structure whose fields stand apart from each other
(`Json.Shape.Separate.orderless`): members may be read in any order, and those that are no fields may
be left out. The decoders of stages, freights and promotions are put together from these.
-/

namespace Delivery

namespace Json

mutual

/-- The value with the members of every object sorted by name; of two with one name the later
counts. -/
def sorted : Json → Json
  | .list items => .list (sortedItems items)
  | .object members => record (sortedMembers members)
  | v => v

/-- The items of a list, sorted inside. -/
def sortedItems : List Json → List Json
  | [] => []
  | v :: rest => v.sorted :: sortedItems rest

/-- The members of an object, sorted inside. -/
def sortedMembers : List (String × Json) → List (String × Json)
  | [] => []
  | (k, v) :: rest => (k, v.sorted) :: sortedMembers rest

end

mutual

/-- The value of a value's node is the value with sorted members. -/
theorem toJson?_ofJson : ∀ v : Json, (Node.ofJson v).toJson? = some v.sorted
  | .null | .bool _ | .int _ | .float _ | .text _ => rfl
  | .list items => by
      rw [Node.ofJson, Node.toJson?, toItems?_ofItems items]
      rfl
  | .object members => by
      rw [Node.ofJson, Node.toJson?, toMembers?_ofMembers members]
      rfl

theorem toItems?_ofItems : ∀ items : List Json,
    Node.toItems? (Node.ofItems items) = some (sortedItems items)
  | [] => rfl
  | v :: rest => by
      rw [Node.ofItems, Node.toItems?, toJson?_ofJson v, toItems?_ofItems rest]
      rfl

theorem toMembers?_ofMembers : ∀ members : List (String × Json),
    Node.toMembers? (Node.ofMembers members) = some (sortedMembers members)
  | [] => rfl
  | (k, v) :: rest => by
      rw [Node.ofMembers, Node.toMembers?, toJson?_ofJson v, toMembers?_ofMembers rest]
      rfl

end

mutual

/-- Nothing in the node of a value stops a reader that passes over it. -/
theorem skip_ofJson : ∀ v : Json, (Node.ofJson v).skip = .ok ()
  | .null | .bool _ | .int _ | .float _ | .text _ => rfl
  | .list items => by
      rw [Node.ofJson, Node.skip, skipItems_ofItems items]
      rfl
  | .object members => by
      rw [Node.ofJson, Node.skip, skipFields_ofMembers members]
      rfl

theorem skipItems_ofItems : ∀ items : List Json, Node.skipItems (Node.ofItems items) = .ok ()
  | [] => rfl
  | v :: rest => by
      rw [Node.ofItems, Node.skipItems, skip_ofJson v]
      exact skipItems_ofItems rest

theorem skipFields_ofMembers : ∀ members : List (String × Json),
    Node.skipFields (Node.ofMembers members) = .ok ()
  | [] => rfl
  | (k, v) :: rest => by
      rw [Node.ofMembers, Node.skipFields, skip_ofJson v]
      exact skipFields_ofMembers rest

end

variable {α β σ : Type} {d : Decoder α}

/-- A decoder makes of a value with sorted members what it makes of the value. -/
def Orderless (d : Decoder α) : Prop :=
  ∀ v a, decodeJson d v = .ok a → decodeJson d v.sorted = .ok a

theorem orderless_string : Orderless decodeString := by
  intro v a h
  cases v with
  | text s => exact h
  | _ => cases h

theorem orderless_dateTime : Orderless decodeDateTime := by
  intro v a h
  cases v with
  | text s => exact h
  | _ => cases h

theorem sorted_ne_null {v : Json} (h : v ≠ .null) : v.sorted ≠ .null := by
  cases v with
  | null => exact absurd rfl h
  | _ => exact fun hnull => by cases hnull

theorem orderless_option (hd : Orderless d) : Orderless (decodeOption d) := by
  intro v a h
  by_cases hnull : v = .null
  · subst hnull
    exact h
  · rw [decodeOption_of_ne_null hnull] at h
    rw [decodeOption_of_ne_null (sorted_ne_null hnull)]
    cases hv : decodeJson d v with
    | error f =>
        rw [hv] at h
        cases h
    | ok b =>
        rw [hv] at h
        rw [hd v b hv]
        exact h

/-! ## Lists -/

theorem decodeItems_sorted (hd : Orderless d) {items : List Json} {l : List α}
    (h : decodeItems d (Node.ofItems items) = .ok l) :
    decodeItems d (Node.ofItems (sortedItems items)) = .ok l := by
  induction items generalizing l with
  | nil => exact h
  | cons v rest ih =>
      rw [Node.ofItems, decodeItems] at h
      rw [sortedItems, Node.ofItems, decodeItems]
      cases hv : d (Node.ofJson v) with
      | error f =>
          rw [hv] at h
          cases h
      | ok a =>
          have hsorted : d (Node.ofJson v.sorted) = .ok a := hd v a hv
          rw [hv] at h
          rw [hsorted]
          dsimp only at h ⊢
          cases hrest : decodeItems d (Node.ofItems rest) with
          | error f =>
              rw [hrest] at h
              cases h
          | ok more =>
              rw [hrest] at h
              rw [ih hrest]
              exact h

theorem orderless_list (hd : Orderless d) : Orderless (decodeList d) := by
  intro v l h
  cases v with
  | list items =>
      unfold decodeJson at h ⊢
      rw [sorted, Node.ofJson, decodeList]
      rw [Node.ofJson, decodeList] at h
      cases hitems : decodeItems d (Node.ofItems items) with
      | error f =>
          rw [hitems] at h
          cases h
      | ok all =>
          rw [hitems] at h
          rw [decodeItems_sorted hd hitems]
          exact h
  | _ => cases h

/-! ## Tables -/

/-- A member and the entry that is decoded from it. -/
def IsEntry (d : Decoder α) (m : String × Json) (e : String × α) : Prop :=
  m.1 = e.1 ∧ decodeJson d m.2 = .ok e.2

theorem decodeEntries_eq_ok {members : List (String × Json)} {t t' : Table String α} :
    decodeEntries d t (Node.ofMembers members) = .ok t' ↔
      ∃ es, List.Forall₂ (IsEntry d) members es ∧
        t' = es.foldl (fun t e => t.insert e.1 e.2) t := by
  induction members generalizing t with
  | nil =>
      constructor
      · intro h
        cases h
        exact ⟨[], .nil, rfl⟩
      · rintro ⟨es, hes, rfl⟩
        cases hes
        rfl
  | cons m rest ih =>
      obtain ⟨k, v⟩ := m
      rw [Node.ofMembers, decodeEntries]
      constructor
      · intro h
        cases hv : d (Node.ofJson v) with
        | error f =>
            rw [hv] at h
            cases h
        | ok a =>
            rw [hv] at h
            obtain ⟨es, hes, ht⟩ := ih.1 h
            exact ⟨(k, a) :: es, .cons ⟨rfl, hv⟩ hes, ht⟩
      · rintro ⟨es, hes, ht⟩
        obtain _ | ⟨⟨hk, hv⟩, hes⟩ := hes
        rename_i e es
        have hv : d (Node.ofJson v) = .ok e.2 := hv
        rw [hv]
        refine ih.2 ⟨es, hes, ?_⟩
        rw [show k = e.1 from hk]
        exact ht

theorem forall₂_place {l : List (String × Json)} {es : List (String × α)}
    (h : List.Forall₂ (IsEntry d) l es) {k : String} {v : Json} {a : α}
    (hv : decodeJson d v = .ok a) :
    List.Forall₂ (IsEntry d) (Table.place k v l) (Table.place k a es) := by
  induction h with
  | nil => exact .cons ⟨rfl, hv⟩ .nil
  | @cons m e l es hme hes ih =>
      obtain ⟨k', v'⟩ := m
      obtain ⟨k'', a'⟩ := e
      obtain rfl : k' = k'' := hme.1
      unfold Table.place
      cases compare k k' with
      | lt => exact .cons ⟨rfl, hv⟩ (.cons hme hes)
      | eq => exact .cons ⟨rfl, hv⟩ hes
      | gt => exact .cons hme ih

/-- Sorting the members sorts the entries that are decoded from them. -/
theorem forall₂_foldl_place {members l : List (String × Json)} {es : List (String × α)}
    {t : Table String α} (h : List.Forall₂ (IsEntry d) members es)
    (ht : List.Forall₂ (IsEntry d) l t.toList) :
    List.Forall₂ (IsEntry d) (members.foldl (fun l m => Table.place m.1 m.2 l) l)
      (es.foldl (fun t e => t.insert e.1 e.2) t).toList := by
  induction h generalizing l t with
  | nil => exact ht
  | @cons m e members es hme hes ih =>
      rw [List.foldl_cons, List.foldl_cons]
      refine ih ?_
      rw [hme.1]
      exact forall₂_place ht hme.2

theorem forall₂_sortedMembers (hd : Orderless d) {members : List (String × Json)}
    {es : List (String × α)} (h : List.Forall₂ (IsEntry d) members es) :
    List.Forall₂ (IsEntry d) (sortedMembers members) es := by
  induction h with
  | nil => exact .nil
  | cons hme _ ih => exact .cons ⟨hme.1, hd _ _ hme.2⟩ ih

theorem orderless_table (hd : Orderless d) : Orderless (decodeTable d) := by
  intro v t h
  cases v with
  | object members =>
      have hentries : decodeEntries d .empty (Node.ofMembers members) = .ok t := by
        unfold decodeJson at h
        rw [Node.ofJson, decodeTable] at h
        cases hm : decodeEntries d .empty (Node.ofMembers members) with
        | error f =>
            rw [hm] at h
            cases h
        | ok t' =>
            rw [hm] at h
            exact h
      obtain ⟨es, hes, rfl⟩ := decodeEntries_eq_ok.1 hentries
      have hsorted := forall₂_foldl_place (forall₂_sortedMembers hd hes) (t := .empty) .nil
      unfold decodeJson
      rw [sorted, record, Node.ofJson, decodeTable,
        decodeEntries_eq_ok.2 ⟨_, hsorted, (Table.ofList_toList _).symm⟩]
      rfl
  | _ => cases h

/-! ## Structures

The order in which members are read does not matter when reading one field leaves the others as they
are. -/

/-- A field may be read before another one as well as after it: it leaves alone whether the other is
there, and both orders lead to the same parts. -/
def FieldShape.Apart (f g : FieldShape σ) : Prop :=
  ∀ m p q, f.read m p = .ok q → g.present q = g.present p ∧
    ∀ n r, g.read n q = .ok r → ∃ q', g.read n p = .ok q' ∧ f.read m q' = .ok r

/-- A field that is there once it was read, and takes values with sorted members. -/
structure FieldShape.Steady (f : FieldShape σ) : Prop where
  there : ∀ n p q, f.read n p = .ok q → f.present q = true
  orderless : ∀ v p q, f.read (.ofJson v) p = .ok q → f.read (.ofJson v.sorted) p = .ok q

/-- The fields of a structure that do not meddle with each other. -/
structure Shape.Separate (s : Shape σ β) : Prop where
  apart : ∀ f ∈ s.fields, ∀ g ∈ s.fields, f.name ≠ g.name → f.Apart g
  steady : ∀ f ∈ s.fields, f.Steady

namespace Shape

variable {s : Shape σ β} {p q r : σ} {k k' : String} {v v' : Json}
  {members members' : List (String × Json)}

theorem takes_append_iff {a b : List (String × Json)} :
    s.Takes (a ++ b) p r ↔ ∃ q, s.Takes a p q ∧ s.Takes b q r := by
  constructor
  · intro h
    unfold Takes at h
    rw [ofMembers_eq_map, List.map_append, ← ofMembers_eq_map, ← ofMembers_eq_map,
      readObject_append] at h
    cases ha : s.readObject p (Node.ofMembers a) with
    | error f =>
        rw [ha] at h
        cases h
    | ok q =>
        rw [ha] at h
        exact ⟨q, ha, h⟩
  · rintro ⟨q, ha, hb⟩
    exact ha.append hb

theorem takes_cons_iff {m : String × Json} :
    s.Takes (m :: members) p r ↔ ∃ q, s.Takes [m] p q ∧ s.Takes members q r :=
  takes_append_iff (a := [m])

/-- What one member does: it is passed over, or read as the field of its name, which was not there
before. -/
theorem takes_one_iff : s.Takes [(k, v)] p q ↔
    (s.fields.find? (·.name == k) = none ∧ q = p) ∨
      ∃ f, s.fields.find? (·.name == k) = some f ∧ f.present p = false ∧
        f.read (.ofJson v) p = .ok q := by
  show s.readObject p [(some k, Node.ofJson v)] = .ok q ↔ _
  rw [readObject]
  cases s.fields.find? (·.name == k) with
  | none =>
      rw [skip_ofJson]
      constructor
      · intro h
        cases h
        exact .inl ⟨rfl, rfl⟩
      · rintro (⟨-, rfl⟩ | ⟨f, hf, -⟩)
        · rfl
        · cases hf
  | some f =>
      dsimp only
      by_cases hpresent : f.present p = true
      · rw [if_pos hpresent]
        simp [hpresent]
      · rw [if_neg hpresent]
        cases hread : f.read (.ofJson v) p with
        | error e => simp [hread]
        | ok q' =>
            show Except.ok q' = Except.ok q ↔ _
            simp [hread, hpresent]

theorem name_of_find? {f : FieldShape σ} (h : s.fields.find? (·.name == k) = some f) :
    f.name = k := by
  have hname := List.find?_some h
  exact eq_of_beq hname

/-- A field that has been read is not read again. -/
theorem Separate.not_takes_again (hs : s.Separate) {f : FieldShape σ}
    (hf : s.fields.find? (·.name == k) = some f) (h : s.Takes [(k, v)] p q) :
    ¬ s.Takes [(k, v')] q r := by
  intro h'
  obtain ⟨hnone, -⟩ | ⟨f₁, hf₁, -, hread⟩ := takes_one_iff.1 h
  · rw [hnone] at hf
    cases hf
  obtain ⟨hnone, -⟩ | ⟨f₂, hf₂, habsent, -⟩ := takes_one_iff.1 h'
  · rw [hnone] at hf
    cases hf
  obtain rfl : f₁ = f := Option.some.inj (hf₁.symm.trans hf)
  obtain rfl : f₂ = f₁ := Option.some.inj (hf₂.symm.trans hf)
  rw [(hs.steady f₂ (List.mem_of_find?_eq_some hf)).there _ _ _ hread] at habsent
  cases habsent

/-- **Two members may be read in either order.** -/
theorem Separate.takes_swap (hs : s.Separate) (h : s.Takes [(k, v)] p q)
    (h' : s.Takes [(k', v')] q r) : ∃ q', s.Takes [(k', v')] p q' ∧ s.Takes [(k, v)] q' r := by
  obtain ⟨hnone, rfl⟩ | ⟨f, hf, habsent, hread⟩ := takes_one_iff.1 h
  · exact ⟨r, h', takes_one_iff.2 (.inl ⟨hnone, rfl⟩)⟩
  obtain ⟨hnone, rfl⟩ | ⟨g, hg, habsent', hread'⟩ := takes_one_iff.1 h'
  · exact ⟨p, takes_one_iff.2 (.inl ⟨hnone, rfl⟩), h⟩
  have hne : f.name ≠ g.name := by
    rw [name_of_find? hf, name_of_find? hg]
    rintro rfl
    exact hs.not_takes_again hf h h'
  have hfmem := List.mem_of_find?_eq_some hf
  have hgmem := List.mem_of_find?_eq_some hg
  obtain ⟨hkept, hother⟩ := hs.apart f hfmem g hgmem hne _ _ _ hread
  obtain ⟨q', hfirst, hsecond⟩ := hother _ _ hread'
  obtain ⟨hkept', -⟩ := hs.apart g hgmem f hfmem (Ne.symm hne) _ _ _ hfirst
  exact ⟨q', takes_one_iff.2 (.inr ⟨g, hg, hkept ▸ habsent', hfirst⟩),
    takes_one_iff.2 (.inr ⟨f, hf, hkept'.trans habsent, hsecond⟩)⟩

theorem Separate.takes_perm (hs : s.Separate) (hperm : members.Perm members')
    (h : s.Takes members p r) : s.Takes members' p r := by
  induction hperm generalizing p with
  | nil => exact h
  | cons m _ ih =>
      obtain ⟨q, hm, hrest⟩ := takes_cons_iff.1 h
      exact takes_cons_iff.2 ⟨q, hm, ih hrest⟩
  | swap m m' rest =>
      obtain ⟨q, hfirst, h⟩ := takes_cons_iff.1 h
      obtain ⟨q₂, hsecond, hrest⟩ := takes_cons_iff.1 h
      obtain ⟨q', hfirst', hsecond'⟩ := hs.takes_swap hfirst hsecond
      exact takes_cons_iff.2 ⟨q', hfirst', takes_cons_iff.2 ⟨q₂, hsecond', hrest⟩⟩
  | trans _ _ ih ih' => exact ih' (ih h)

/-- A member that came last may come in its place by name instead. -/
theorem Separate.takes_place (hs : s.Separate) {l : List (String × Json)}
    (h : s.Takes (l ++ [(k, v)]) p r) : s.Takes (Table.place k v l) p r := by
  induction l generalizing p with
  | nil => exact h
  | cons m rest ih =>
      obtain ⟨k', v'⟩ := m
      unfold Table.place
      split
      next => exact hs.takes_perm (List.perm_append_singleton _ _) h
      next heq =>
          obtain rfl : k = k' := Std.LawfulEqCmp.eq_of_compare heq
          -- A field cannot come twice, so the earlier member was passed over.
          have hfirst : s.Takes ((k, v') :: (k, v) :: rest) p r :=
            hs.takes_perm ((List.perm_append_singleton _ _).cons _) h
          obtain ⟨q, hearlier, hmore⟩ := takes_cons_iff.1 hfirst
          obtain ⟨q', hlater, -⟩ := takes_cons_iff.1 hmore
          obtain ⟨-, rfl⟩ | ⟨f, hf, -⟩ := takes_one_iff.1 hearlier
          · exact hmore
          · exact absurd hlater (hs.not_takes_again hf hearlier)
      next =>
          obtain ⟨q, hm, hrest⟩ := takes_cons_iff.1 h
          exact takes_cons_iff.2 ⟨q, hm, ih hrest⟩

theorem Separate.takes_foldl_place (hs : s.Separate) {l : List (String × Json)}
    (h : s.Takes (l ++ members) p r) :
    s.Takes (members.foldl (fun l m => Table.place m.1 m.2 l) l) p r := by
  induction members generalizing l with
  | nil =>
      rw [List.append_nil] at h
      exact h
  | cons m rest ih =>
      rw [List.foldl_cons]
      rw [List.append_cons] at h
      obtain ⟨q, hm, hrest⟩ := takes_append_iff.1 h
      exact ih (takes_append_iff.2 ⟨q, hs.takes_place hm, hrest⟩)

theorem Separate.takes_sortedMembers (hs : s.Separate) (h : s.Takes members p r) :
    s.Takes (sortedMembers members) p r := by
  induction members generalizing p with
  | nil => exact h
  | cons m rest ih =>
      obtain ⟨k, v⟩ := m
      obtain ⟨q, hm, hrest⟩ := takes_cons_iff.1 h
      refine takes_cons_iff.2 ⟨q, ?_, ih hrest⟩
      obtain hskipped | ⟨f, hf, habsent, hread⟩ := takes_one_iff.1 hm
      · exact takes_one_iff.2 (.inl hskipped)
      · have hsteady := hs.steady f (List.mem_of_find?_eq_some hf)
        exact takes_one_iff.2 (.inr ⟨f, hf, habsent, hsteady.orderless _ _ _ hread⟩)

/-- The fields of a structure that is written as a list are sorted inside. -/
theorem readList_sorted {fields : List (FieldShape σ)} (hfields : ∀ f ∈ fields, f.Steady)
    {items : List Json} {index : Nat}
    (h : s.readList .closed index p fields (Node.ofItems items) = .ok r) :
    s.readList .closed index p fields (Node.ofItems (sortedItems items)) = .ok r := by
  induction fields generalizing items index p with
  | nil =>
      cases items with
      | nil => exact h
      | cons v rest => cases h
  | cons f fields ih =>
      cases items with
      | nil => exact h
      | cons v rest =>
          rw [Node.ofItems, readList] at h
          rw [sortedItems, Node.ofItems, readList]
          cases hread : f.read (.ofJson v) p with
          | error e =>
              rw [hread] at h
              cases h
          | ok q =>
              rw [hread] at h
              rw [(hfields f List.mem_cons_self).orderless _ _ _ hread]
              exact ih (fun g hg => hfields g (List.mem_cons_of_mem _ hg)) h

/-- **A structure whose fields stand apart is decoded whatever the order of its members.** -/
theorem Separate.orderless (hs : s.Separate) : Orderless s.decode := by
  intro v b h
  cases v with
  | object members =>
      unfold decodeJson at h
      rw [Node.ofJson, decode] at h
      cases hread : s.readObject s.start (Node.ofMembers members) with
      | error f =>
          rw [hread] at h
          cases h
      | ok parts =>
          rw [hread] at h
          have htakes : s.Takes members s.start parts := hread
          exact decode_object
            (hs.takes_foldl_place (l := []) (hs.takes_sortedMembers htakes)) h
  | list items =>
      unfold decodeJson at h ⊢
      rw [Node.ofJson, decode] at h
      rw [sorted, Node.ofJson, decode]
      cases hread : s.readList .closed 0 s.start s.fields (Node.ofItems items) with
      | error f =>
          rw [hread] at h
          cases h
      | ok parts =>
          rw [hread] at h
          rw [readList_sorted hs.steady hread]
          exact h
  | _ => cases h

end Shape

/-! ## Fields that are stored -/

/-- A field that decodes its value and stores it among the parts. -/
class FieldShape.Stored (f : FieldShape σ) (α : outParam Type) (d : outParam (Decoder α))
    (get : outParam (σ → Option α)) (set : outParam (Option α → σ → σ)) : Prop where
  read : ∀ n p, f.read n p = (d n).map fun v => set (some v) p
  present : ∀ p, f.present p = (get p).isSome

instance (name : String) (d : Decoder α) (get : σ → Option α) (set : Option α → σ → σ) :
    (requiredField name d get set).Stored α d get set := ⟨fun _ _ => rfl, fun _ => rfl⟩

instance (name : String) (d : Decoder α) (get : σ → Option α) (set : Option α → σ → σ) :
    (optionalField name d get set).Stored α d get set := ⟨fun _ _ => rfl, fun _ => rfl⟩

section Stored

variable {f g : FieldShape σ} {get : σ → Option α} {set : Option α → σ → σ}

theorem FieldShape.read_eq_ok [f.Stored α d get set] {n : Node} {p q : σ} :
    f.read n p = .ok q ↔ ∃ a, d n = .ok a ∧ q = set (some a) p := by
  rw [Stored.read (f := f)]
  cases d n with
  | error e => simp [Except.map]
  | ok a => simp [Except.map, eq_comm]

/-- Fields that are stored in different places stand apart. -/
theorem FieldShape.Apart.of_stored [f.Stored α d get set] {e : Decoder β} {get' : σ → Option β}
    {set' : Option β → σ → σ} [g.Stored β e get' set'] (hkeep : ∀ x p, get' (set x p) = get' p)
    (hswap : ∀ x y p, set' y (set x p) = set x (set' y p)) : f.Apart g := by
  intro m p q hread
  obtain ⟨a, ha, rfl⟩ := FieldShape.read_eq_ok.1 hread
  refine ⟨by rw [Stored.present (f := g), Stored.present (f := g), hkeep], ?_⟩
  intro n r hread'
  obtain ⟨b, hb, rfl⟩ := FieldShape.read_eq_ok.1 hread'
  exact ⟨set' (some b) p, FieldShape.read_eq_ok.2 ⟨b, hb, rfl⟩,
    FieldShape.read_eq_ok.2 ⟨a, ha, hswap _ _ _⟩⟩

theorem FieldShape.Steady.of_stored [f.Stored α d get set] (hd : Orderless d) (hget : ∀ x p, get (set x p) = x) :
    f.Steady where
  there n p q hread := by
    obtain ⟨a, -, rfl⟩ := FieldShape.read_eq_ok.1 hread
    rw [Stored.present (f := f), hget]
    rfl
  orderless v p q hread := by
    obtain ⟨a, ha, rfl⟩ := FieldShape.read_eq_ok.1 hread
    exact FieldShape.read_eq_ok.2 ⟨a, hd v a ha, rfl⟩

end Stored

end Json

end Delivery
