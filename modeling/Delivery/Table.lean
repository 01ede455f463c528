/-!
# Tables sorted by key

A `Table κ α` holds at most one value per key, as a list of entries in strictly increasing
key order. The order is part of the type, so a table has exactly one representation: two
tables are equal when they answer every look-up alike (`Table.ext_get?`), and listing the
entries needs no sort.

* `get?_insert`, `get?_erase` — what a write does to every later look-up;
* `mem_toList_iff` — the entries are exactly the look-ups that succeed;
* `ofList_toList` — a table is rebuilt from its own entries.
-/

namespace Delivery

/-- At most one value per key, listed in strictly increasing key order. -/
structure Table (κ α : Type) [Ord κ] where
  /-- The entries, smallest key first. -/
  entries : List (κ × α)
  /-- Keys strictly increase along the list. -/
  sorted : entries.Pairwise (fun a b => compare a.1 b.1 = .lt)

namespace Table

variable {κ α : Type} [Ord κ]

instance [DecidableEq κ] [DecidableEq α] : DecidableEq (Table κ α) := fun a b =>
  if h : a.entries = b.entries then
    .isTrue (by cases a; cases b; simpa using h)
  else
    .isFalse fun hab => h (hab ▸ rfl)

/-- The table without entries. -/
def empty : Table κ α := ⟨[], .nil⟩

instance : EmptyCollection (Table κ α) := ⟨empty⟩
instance : Inhabited (Table κ α) := ⟨empty⟩

/-- The entries, smallest key first. -/
def toList (t : Table κ α) : List (κ × α) := t.entries

/-- The keys, smallest first. -/
def keys (t : Table κ α) : List κ := t.entries.map Prod.fst

/-- The values, in the order of their keys. -/
def values (t : Table κ α) : List α := t.entries.map Prod.snd

/-- True when nothing is stored. -/
def isEmpty (t : Table κ α) : Bool := t.entries.isEmpty

/-- Look-up in a sorted list of entries. -/
def lookup (k : κ) : List (κ × α) → Option α
  | [] => none
  | (k', v) :: rest => if compare k k' = .eq then some v else lookup k rest

/-- The value stored under a key. -/
def get? (t : Table κ α) (k : κ) : Option α := lookup k t.entries

/-- True when a value is stored under the key. -/
def contains (t : Table κ α) (k : κ) : Bool := (t.get? k).isSome

/-- Puts an entry at its place in a sorted list, replacing one with the same key. -/
def place (k : κ) (v : α) : List (κ × α) → List (κ × α)
  | [] => [(k, v)]
  | (k', v') :: rest =>
    match compare k k' with
    | .lt => (k, v) :: (k', v') :: rest
    | .eq => (k, v) :: rest
    | .gt => (k', v') :: place k v rest

/-- Removes what is stored under a key. -/
def erase (t : Table κ α) (k : κ) : Table κ α :=
  ⟨t.entries.filter (fun e => compare k e.1 != .eq), t.sorted.filter _⟩

/-- The table with every value changed. -/
def map {β : Type} (f : α → β) (t : Table κ α) : Table κ β :=
  ⟨t.entries.map fun e => (e.1, f e.2), List.pairwise_map.2 t.sorted⟩

/-! ## Laws that need no order -/

theorem toList_map {β : Type} (f : α → β) (t : Table κ α) :
    (t.map f).toList = t.toList.map fun e => (e.1, f e.2) := rfl

/-- A change that leaves every value as it is leaves the table so. -/
theorem map_eq_self_iff {f : α → α} {t : Table κ α} :
    t.map f = t ↔ ∀ e ∈ t.toList, f e.2 = e.2 := by
  obtain ⟨entries, sorted⟩ := t
  have hentry (e : κ × α) : (e.1, f e.2) = id e ↔ f e.2 = e.2 := by
    simp [Prod.ext_iff]
  rw [map, mk.injEq, toList]
  conv => lhs; rhs; rw [← List.map_id entries]
  simp only [List.map_inj_left, hentry]

@[simp] theorem get?_empty (k : κ) : (empty : Table κ α).get? k = none := rfl

theorem lookup_eq_none_of_lt {k : κ} {l : List (κ × α)}
    (h : ∀ e ∈ l, compare k e.1 = .lt) : lookup k l = none := by
  induction l with
  | nil => rfl
  | cons x rest ih =>
    obtain ⟨q, w⟩ := x
    have hq : compare k q = .lt := h (q, w) List.mem_cons_self
    simp [lookup, hq, ih fun e he => h e (List.mem_cons_of_mem _ he)]

theorem mem_place {k : κ} {v : α} {e : κ × α} {l : List (κ × α)} (h : e ∈ place k v l) :
    e = (k, v) ∨ e ∈ l := by
  induction l with
  | nil => exact .inl (List.mem_singleton.1 h)
  | cons x rest ih =>
    obtain ⟨k', v'⟩ := x
    unfold place at h
    split at h <;> grind

theorem lookup_filter_ne [Std.LawfulEqOrd κ] [DecidableEq κ] (k k' : κ) (l : List (κ × α)) :
    lookup k' (l.filter fun e => compare k e.1 != .eq) =
      if k' = k then none else lookup k' l := by
  induction l with
  | nil => simp [lookup]
  | cons x rest ih =>
    obtain ⟨q, w⟩ := x
    by_cases hq : k = q
    · subst hq
      by_cases hk : k' = k
      · subst hk; simpa using ih
      · simp [lookup, ih, hk]
    · by_cases hk : k' = k
      · subst hk; simp [lookup, ih, hq]
      · simp [lookup, ih, hq, hk]

theorem mem_iff_lookup [Std.LawfulEqOrd κ] {l : List (κ × α)}
    (hs : l.Pairwise (fun a b => compare a.1 b.1 = .lt)) {k : κ} {v : α} :
    (k, v) ∈ l ↔ lookup k l = some v := by
  induction l with
  | nil => simp [lookup]
  | cons x rest ih =>
    obtain ⟨q, w⟩ := x
    obtain ⟨hx, hrest⟩ := List.pairwise_cons.1 hs
    by_cases hq : k = q
    · subst hq
      simp only [lookup, Std.ReflCmp.compare_self, if_true, List.mem_cons, Prod.mk.injEq, true_and,
        Option.some.injEq]
      refine ⟨fun h => ?_, fun h => .inl h.symm⟩
      rcases h with h | h
      · exact h.symm
      · have := hx _ h
        simp at this
    · simp [lookup, hq, ih hrest]

/-- **Look-up after a removal.** -/
theorem get?_erase [Std.LawfulEqOrd κ] [DecidableEq κ] (t : Table κ α) (k k' : κ) :
    (t.erase k).get? k' = if k' = k then none else t.get? k' :=
  lookup_filter_ne k k' t.entries

/-- The entries are exactly the look-ups that succeed. -/
theorem mem_toList_iff [Std.LawfulEqOrd κ] {t : Table κ α} {k : κ} {v : α} :
    (k, v) ∈ t.toList ↔ t.get? k = some v := mem_iff_lookup t.sorted

/-- No entry is listed twice. -/
theorem nodup_toList [Std.LawfulEqOrd κ] (t : Table κ α) : t.toList.Nodup := by
  refine t.sorted.imp ?_
  rintro a _ hlt rfl
  have heq : compare a.1 a.1 = .eq := Std.ReflCmp.compare_self
  rw [heq] at hlt
  cases hlt

section Ordered

variable [Std.TransOrd κ] [Std.LawfulEqOrd κ]

theorem pairwise_place (k : κ) (v : α) {l : List (κ × α)}
    (h : l.Pairwise (fun a b => compare a.1 b.1 = .lt)) :
    (place k v l).Pairwise (fun a b => compare a.1 b.1 = .lt) := by
  induction l with
  | nil => exact List.pairwise_singleton _ _
  | cons x rest ih =>
    obtain ⟨k', v'⟩ := x
    obtain ⟨hx, hrest⟩ := List.pairwise_cons.1 h
    unfold place
    split
    next hlt =>
      refine List.pairwise_cons.2 ⟨fun e he => ?_, h⟩
      rcases List.mem_cons.1 he with rfl | he
      · exact hlt
      · exact Std.TransCmp.lt_trans hlt (hx e he)
    next heq =>
      refine List.pairwise_cons.2 ⟨fun e he => ?_, hrest⟩
      have hk : k = k' := Std.LawfulEqCmp.eq_of_compare heq
      exact hk ▸ hx e he
    next hgt =>
      refine List.pairwise_cons.2 ⟨fun e he => ?_, ih hrest⟩
      rcases mem_place he with rfl | he
      · exact Std.OrientedCmp.lt_of_gt hgt
      · exact hx e he

/-- Stores a value under a key, replacing the one stored there before. -/
def insert (t : Table κ α) (k : κ) (v : α) : Table κ α :=
  ⟨place k v t.entries, pairwise_place k v t.sorted⟩

/-- The table of a list of entries; of two with the same key the later one counts. -/
def ofList (l : List (κ × α)) : Table κ α := l.foldl (fun t e => t.insert e.1 e.2) empty

/-! ## Laws of writing -/

theorem lookup_place (k k' : κ) (v : α) (l : List (κ × α)) :
    lookup k' (place k v l) = if compare k' k = .eq then some v else lookup k' l := by
  induction l with
  | nil => simp [place, lookup]
  | cons x rest ih =>
    obtain ⟨q, w⟩ := x
    unfold place
    split
    next => simp [lookup]
    next heq =>
      have hk : k = q := Std.LawfulEqCmp.eq_of_compare heq
      subst hk
      by_cases h : compare k' k = .eq <;> simp [lookup, h]
    next hgt =>
      simp only [lookup, ih]
      by_cases hq : compare k' q = .eq
      · have : k' = q := Std.LawfulEqCmp.eq_of_compare hq
        subst this
        have : compare k' k = .lt := Std.OrientedCmp.lt_of_gt hgt
        simp [this]
      · simp [hq]

/-- **Look-up after a write.** -/
theorem get?_insert [DecidableEq κ] (t : Table κ α) (k k' : κ) (v : α) :
    (t.insert k v).get? k' = if k' = k then some v else t.get? k' := by
  simp only [get?, insert, lookup_place]
  by_cases h : k' = k
  · subst h; simp
  · simp [h]

@[simp] theorem get?_insert_self (t : Table κ α) (k : κ) (v : α) :
    (t.insert k v).get? k = some v := by simp [get?, insert, lookup_place]

theorem entries_ext : ∀ {a b : List (κ × α)},
    a.Pairwise (fun a b => compare a.1 b.1 = .lt) →
    b.Pairwise (fun a b => compare a.1 b.1 = .lt) →
    (∀ k, lookup k a = lookup k b) → a = b
  | [], [], _, _, _ => rfl
  | [], (k, v) :: _, _, _, h => by simpa [lookup] using h k
  | (k, v) :: _, [], _, _, h => by simpa [lookup] using h k
  | (k, v) :: r, (q, w) :: s, ha, hb, h => by
    obtain ⟨hx, hr⟩ := List.pairwise_cons.1 ha
    obtain ⟨hy, hs⟩ := List.pairwise_cons.1 hb
    have hkq : k = q := by
      have h1 := h k
      have h2 := h q
      cases hc : compare k q with
      | eq => exact Std.LawfulEqCmp.eq_of_compare hc
      | lt =>
        have : lookup k s = none :=
          lookup_eq_none_of_lt fun e he => Std.TransCmp.lt_trans hc (hy e he)
        simp [lookup, hc, this] at h1
      | gt =>
        have hc' : compare q k = .lt := Std.OrientedCmp.lt_of_gt hc
        have : lookup q r = none :=
          lookup_eq_none_of_lt fun e he => Std.TransCmp.lt_trans hc' (hx e he)
        simp [lookup, hc', this] at h2
    subst hkq
    have hvw : v = w := by simpa [lookup] using h k
    subst hvw
    have : r = s := entries_ext hr hs fun q => by
      have hq := h q
      rcases Classical.em (q = k) with hqk | hqk
      · subst hqk
        rw [lookup_eq_none_of_lt hx, lookup_eq_none_of_lt hy]
      · simpa [lookup, hqk] using hq
    rw [this]

/-- **Tables that answer every look-up alike are equal.** -/
theorem ext_get? {a b : Table κ α} (h : ∀ k, a.get? k = b.get? k) : a = b := by
  have := entries_ext a.sorted b.sorted h
  cases a; cases b; simpa using this

theorem get?_foldl_insert (l : List (κ × α)) (t : Table κ α)
    (hs : l.Pairwise (fun a b => compare a.1 b.1 = .lt)) (k : κ) :
    (l.foldl (fun t e => t.insert e.1 e.2) t).get? k = (lookup k l).or (t.get? k) := by
  induction l generalizing t with
  | nil => simp [lookup]
  | cons x rest ih =>
    obtain ⟨q, w⟩ := x
    obtain ⟨hx, hrest⟩ := List.pairwise_cons.1 hs
    rw [List.foldl_cons, ih _ hrest, get?, insert, lookup_place, ← get?]
    by_cases hq : compare k q = .eq
    · have : k = q := Std.LawfulEqCmp.eq_of_compare hq
      subst this
      simp [lookup, lookup_eq_none_of_lt hx]
    · simp [lookup, hq]

/-- A table is rebuilt from its own entries. -/
theorem ofList_toList (t : Table κ α) : ofList t.toList = t :=
  ext_get? fun k => by
    rw [ofList, toList, get?_foldl_insert t.entries empty t.sorted k, get?_empty, Option.or_none,
      get?]

end Ordered

end Table

end Delivery
