import Delivery.Table
import Delivery.Timestamp.Basic

/-!
# Identity and metadata

Every resource belongs to a project, which is a namespace, and has a name in it. `Key` is that
pair, ordered by project and then by name, so that the resources of a project stand together in
name order.
-/

namespace Delivery

/-- The identity of a resource among those of its kind. -/
structure Key where
  project : String
  name : String
  deriving DecidableEq, Inhabited

namespace Key

instance : Ord Key where
  compare a b := (compare a.project b.project).then (compare a.name b.name)

theorem compare_def (a b : Key) :
    compare a b = (compare a.project b.project).then (compare a.name b.name) := rfl

instance : Std.LawfulEqOrd Key where
  compare_self := by simp [compare_def]
  eq_of_compare {a b} h := by
    rw [compare_def, Ordering.then_eq_eq] at h
    obtain ⟨h₁, h₂⟩ := h
    cases a; cases b
    simp_all [Std.LawfulEqCmp.compare_eq_iff_eq]

instance : Std.TransOrd Key where
  eq_swap {a b} := by
    rw [compare_def, compare_def, Ordering.swap_then, ← Std.OrientedCmp.eq_swap,
      ← Std.OrientedCmp.eq_swap]
  isLE_trans {a b c} := by
    have lex : Std.TransCmp (compareLex (compareOn Key.project) (compareOn Key.name)) :=
      inferInstance
    exact lex.isLE_trans

/-- The text of a key: project and name with a slash between them. -/
def text (k : Key) : String := k.project ++ "/" ++ k.name

end Key

/-- The resource on whose behalf another one exists. -/
structure Owner where
  kind : String
  name : String
  deriving DecidableEq

/-- What every resource carries. -/
structure Metadata where
  project : String
  name : String
  labels : Table String String := .empty
  owners : List Owner := []
  created : Option DateTime := none
  deriving DecidableEq

/-- The identity of the resource. -/
def Metadata.key (m : Metadata) : Key := ⟨m.project, m.name⟩

end Delivery
