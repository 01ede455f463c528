import Delivery.Proofs.SortedValues

/-!
# What decoders make

A decoder makes values with a property (`Json.Makes`) when every node that it accepts gives such a
value. For a structure this follows from an invariant of the parts: it holds at the start, reading a
field keeps it, and it gives the property where the value is built (`Json.Shape.makes`). So every
stage, freight and promotion that was decoded is legible, whatever it was decoded from
(`Stage.makes_legible`, `Freight.makes_legible`, `Promotion.makes_legible`).
-/

namespace Delivery

namespace Json

variable {α σ : Type} {d : Decoder α} {P : α → Prop}

/-- Whatever a decoder makes of a node has a property. -/
def Makes (d : Decoder α) (P : α → Prop) : Prop := ∀ n a, d n = .ok a → P a

/-- What stands for a field that was left out has the property as well. -/
theorem getD_of_forall {x : Option α} {a : α} (hx : ∀ b ∈ x, P b) (ha : P a) : P (x.getD a) := by
  cases x with
  | none => exact ha
  | some b => exact hx b rfl

/-- What is decoded from a text is made of its node. -/
theorem Makes.of_text (hd : Makes d P) {s : String} {a : α} (h : decodeText d s = .ok a) :
    P a := by
  unfold decodeText Document.decode at h
  split at h
  next => cases h
  next b hroot =>
    split at h
    · cases h
    · cases h
      exact hd _ _ hroot

/-- No text is read as a moment that could not be told from it. -/
theorem makes_dateTime : Makes decodeDateTime fun m => m.time.isLegible = true := by
  intro n m h
  unfold decodeDateTime at h
  split at h
  · split at h
    next t _ =>
      cases h
      exact t.time_legible
    next => cases h
  · cases h

theorem makes_option (hd : Makes d P) : Makes (decodeOption d) fun x => ∀ a ∈ x, P a := by
  intro n x h a ha
  unfold decodeOption at h
  split at h
  next =>
    cases h
    cases ha
  next =>
    cases hn : d n with
    | error f =>
        rw [hn] at h
        cases h
    | ok b =>
        rw [hn] at h
        cases h
        cases ha
        exact hd n _ hn

theorem decodeEntries_makes (hd : Makes d P) {fields : List (Option String × Node)}
    {t t' : Table String α} (ht : ∀ e ∈ t.toList, P e.2)
    (h : decodeEntries d t fields = .ok t') : ∀ e ∈ t'.toList, P e.2 := by
  induction fields generalizing t with
  | nil =>
      cases h
      exact ht
  | cons field rest ih =>
      obtain ⟨_ | k, n⟩ := field
      · cases h
      rw [decodeEntries] at h
      split at h
      next => cases h
      next a hn =>
        refine ih ?_ h
        intro e he
        rcases Table.mem_place he with rfl | he
        · exact hd n a hn
        · exact ht e he

theorem makes_table (hd : Makes d P) : Makes (decodeTable d) fun t => ∀ e ∈ t.toList, P e.2 := by
  intro n t h
  unfold decodeTable at h
  split at h
  next fields ending =>
    split at h
    next => cases h
    next t' hentries =>
      cases hending : ending.finish with
      | error f =>
          rw [hending] at h
          cases h
      | ok u =>
          rw [hending] at h
          cases h
          exact decodeEntries_makes hd (fun e he => absurd he List.not_mem_nil) hentries
  next => cases h

/-! ## Structures -/

/-- Reading the field keeps an invariant of the parts. -/
def FieldShape.Keeps (f : FieldShape σ) (I : σ → Prop) : Prop :=
  ∀ n p q, I p → f.read n p = .ok q → I q

namespace FieldShape.Keeps

variable {β : Type} {f : FieldShape σ} {get : σ → Option α} {set : Option α → σ → σ}
  {get' : σ → Option β} {Q : β → Prop} {I J : σ → Prop}

/-- Where a field stores its value there is only what its decoder makes. -/
theorem of_own [f.Stored α d get set] (hd : Makes d P) (hget : ∀ x p, get (set x p) = x) :
    f.Keeps fun p => ∀ a ∈ get p, P a := by
  intro n p q _ hread
  obtain ⟨a, ha, rfl⟩ := FieldShape.read_eq_ok.1 hread
  intro b hb
  rw [hget] at hb
  cases hb
  exact hd n a ha

/-- What other fields have stored it leaves alone. -/
theorem of_other [f.Stored α d get set] (hkeep : ∀ x p, get' (set x p) = get' p) :
    f.Keeps fun p => ∀ b ∈ get' p, Q b := by
  intro n p q hp hread
  obtain ⟨a, -, rfl⟩ := FieldShape.read_eq_ok.1 hread
  intro b hb
  rw [hkeep] at hb
  exact hp b hb

theorem and (hI : f.Keeps I) (hJ : f.Keeps J) : f.Keeps fun p => I p ∧ J p :=
  fun n p q hp hread => ⟨hI n p q hp.1 hread, hJ n p q hp.2 hread⟩

end FieldShape.Keeps

namespace Shape

variable {s : Shape σ α} {I : σ → Prop} {p q : σ}

theorem build_of_finish {a : α} (h : s.finish p = .ok a) : s.build p = some a := by
  unfold finish at h
  split at h
  · cases h
  · split at h
    next b hbuild =>
      cases h
      exact hbuild
    next => cases h

theorem readObject_keeps (hs : ∀ f ∈ s.fields, f.Keeps I) {fields : List (Option String × Node)}
    (hp : I p) (h : s.readObject p fields = .ok q) : I q := by
  induction fields generalizing p with
  | nil =>
      cases h
      exact hp
  | cons field rest ih =>
      obtain ⟨_ | k, n⟩ := field
      · cases h
      rw [readObject] at h
      split at h
      next =>
        split at h
        · cases h
        · exact ih hp h
      next f hfind =>
        split at h
        · cases h
        · split at h
          next => cases h
          next r hread => exact ih (hs f (List.mem_of_find?_eq_some hfind) n p r hp hread) h

theorem readList_keeps {ending : Ending} {fields : List (FieldShape σ)}
    (hs : ∀ f ∈ fields, f.Keeps I) {index : Nat} {items : List Node} (hp : I p)
    (h : s.readList ending index p fields items = .ok q) : I q := by
  induction fields generalizing index items p with
  | nil =>
      cases items with
      | nil =>
          unfold readList at h
          split at h
          next =>
            cases h
            exact hp
          next => cases h
          next => cases h
      | cons n items => cases h
  | cons f fields ih =>
      obtain ⟨hf, hfields⟩ := List.forall_mem_cons.1 hs
      cases items with
      | nil =>
          rw [readList] at h
          split at h
          · cases h
          · split at h
            · cases h
            · exact ih hfields hp h
      | cons n items =>
          rw [readList] at h
          split at h
          next => cases h
          next r hread => exact ih hfields (hf n p r hp hread) h

/-- **An invariant of the parts gives a property of what is built.** -/
theorem makes {P : α → Prop} (hstart : I s.start) (hs : ∀ f ∈ s.fields, f.Keeps I)
    (hbuild : ∀ p a, I p → s.build p = some a → P a) : Makes s.decode P := by
  intro n a h
  unfold decode at h
  split at h
  next fields ending =>
    split at h
    next => cases h
    next p hread =>
      split at h
      · cases h
      · exact hbuild p a (readObject_keeps hs hstart hread) (build_of_finish h)
  next items ending =>
    split at h
    next => cases h
    next p hread => exact hbuild p a (readList_keeps hs hstart hread) (build_of_finish h)
  next => cases h

end Shape

end Json

open Json

/-! ## Resources -/

theorem Metadata.makes_legible : Makes Metadata.decode Legible := by
  refine Shape.makes (I := fun p : Draft => ∀ x ∈ p.created, ∀ t ∈ x, t.time.isLegible = true)
    ?start ?fields ?build
  case start =>
    intro x hx
    cases hx
  case fields =>
    intro f hf
    simp only [shape, List.mem_cons, List.not_mem_nil, or_false] at hf
    -- Only the last of the five fields stores a moment.
    rcases hf with rfl | rfl | rfl | rfl | rfl
    · exact .of_other (by intros; rfl)
    · exact .of_other (by intros; rfl)
    · exact .of_other (by intros; rfl)
    · exact .of_other (by intros; rfl)
    · exact .of_own (makes_option makes_dateTime) (by intros; rfl)
  case build =>
    intro p m hp hbuild
    obtain ⟨_ | project, _ | name, labels, owners, created⟩ := p
    · cases hbuild
    · cases hbuild
    · cases hbuild
    · cases hbuild
      exact getD_of_forall hp fun _ ht => by cases ht

theorem Qualification.makes_legible : Makes Qualification.decode Legible := by
  refine Shape.makes (I := fun p : Option (Option DateTime) => ∀ x ∈ p, ∀ t ∈ x,
    t.time.isLegible = true) ?start ?fields ?build
  case start =>
    intro x hx
    cases hx
  case fields =>
    intro f hf
    obtain rfl := List.mem_singleton.1 hf
    exact .of_own (makes_option makes_dateTime) (by intros; rfl)
  case build =>
    intro p q hp hbuild
    cases hbuild
    exact getD_of_forall hp fun _ ht => by cases ht

/-- Every stage that was decoded is legible. -/
theorem Stage.makes_legible : Makes Stage.decode Legible := by
  refine Shape.makes (I := fun p : Draft => ∀ m ∈ p.metadata, m.Legible) ?start ?fields ?build
  case start =>
    intro m hm
    cases hm
  case fields =>
    intro f hf
    simp only [shape, List.mem_cons, List.not_mem_nil, or_false] at hf
    rcases hf with rfl | rfl
    · exact .of_own Metadata.makes_legible (by intros; rfl)
    · exact .of_other (by intros; rfl)
  case build =>
    intro p s hp hbuild
    obtain ⟨_ | metadata, spec⟩ := p
    · cases hbuild
    · cases hbuild
      exact hp metadata rfl

/-- Every freight that was decoded is legible. -/
theorem Freight.makes_legible : Makes Freight.decode Legible := by
  refine Shape.makes (I := fun p : Draft => (∀ m ∈ p.metadata, m.Legible) ∧
    ∀ t ∈ p.qualifications, ∀ e ∈ t.toList, e.2.Legible) ?start ?fields ?build
  case start =>
    constructor
    · intro m hm
      cases hm
    · intro t ht
      cases ht
  case fields =>
    intro f hf
    simp only [shape, List.mem_cons, List.not_mem_nil, or_false] at hf
    rcases hf with rfl | rfl
    · exact .and (.of_own Metadata.makes_legible (by intros; rfl)) (.of_other (by intros; rfl))
    · exact .and (.of_other (by intros; rfl))
        (.of_own (makes_table Qualification.makes_legible) (by intros; rfl))
  case build =>
    intro p f hp hbuild
    obtain ⟨_ | metadata, qualifications⟩ := p
    · cases hbuild
    · cases hbuild
      exact ⟨hp.1 metadata rfl, getD_of_forall hp.2 fun _ he => by cases he⟩

/-- Every promotion that was decoded is legible. -/
theorem Promotion.makes_legible : Makes Promotion.decode Legible := by
  refine Shape.makes (I := fun p : Draft => ∀ m ∈ p.metadata, m.Legible) ?start ?fields ?build
  case start =>
    intro m hm
    cases hm
  case fields =>
    intro f hf
    simp only [shape, List.mem_cons, List.not_mem_nil, or_false] at hf
    rcases hf with rfl | rfl
    · exact .of_own Metadata.makes_legible (by intros; rfl)
    · exact .of_other (by intros; rfl)
  case build =>
    intro p promotion hp hbuild
    obtain ⟨_ | metadata, _ | spec⟩ := p
    · cases hbuild
    · cases hbuild
    · cases hbuild
    · cases hbuild
      exact hp metadata rfl

end Delivery
