import Mathlib.Data.List.Induction
import Mathlib.Order.Bounds.Basic

/-! # The interval that points span

In a lattice: from the meet of the points to their join, which is the smallest interval that holds
all of them.
-/
namespace PowerScreen.Library.Hull

variable {α : Type*} [Lattice α]

/-- The first point starts the interval, every other one extends it. -/
def extend : Option (α × α) → α → Option (α × α)
  | none, x => some (x, x)
  | some i, x => some (i.1 ⊓ x, i.2 ⊔ x)

def hull (l : List α) : Option (α × α) := l.foldl extend none

/-- The least and the greatest bound of a set. -/
structure IsHull (S : Set α) (i : α × α) : Prop where
  lower : IsGLB S i.1
  upper : IsLUB S i.2

theorem hull_append_singleton (l : List α) (x : α) : hull (l ++ [x]) = extend (hull l) x := by
  rw [hull, List.foldl_append]
  rfl

theorem IsHull.extend {S : Set α} {i : α × α} (h : IsHull S i) (x : α) :
    IsHull (insert x S) (i.1 ⊓ x, i.2 ⊔ x) where
  lower := inf_comm x i.1 ▸ h.lower.insert x
  upper := sup_comm x i.2 ▸ h.upper.insert x

theorem IsHull.singleton (x : α) : IsHull {x} (x, x) := ⟨isGLB_singleton, isLUB_singleton⟩

/-- The points of a list span an interval as soon as there is one. -/
theorem hull_spec (l : List α) :
    (l = [] ∧ hull l = none) ∨ l ≠ [] ∧ ∃ i, hull l = some i ∧ IsHull {x | x ∈ l} i := by
  induction l using List.reverseRecOn with
  | nil => exact .inl ⟨rfl, rfl⟩
  | append_singleton l x ih =>
    refine .inr ⟨by simp, ?_⟩
    rw [hull_append_singleton]
    rcases ih with ⟨rfl, hnone⟩ | ⟨-, i, hi, hhull⟩
    · refine ⟨(x, x), by rw [hnone, extend], ?_⟩
      have hset : {y | y ∈ [] ++ [x]} = ({x} : Set α) := by
        ext y
        simp
      exact hset ▸ IsHull.singleton x
    · refine ⟨(i.1 ⊓ x, i.2 ⊔ x), by rw [hi, extend], ?_⟩
      have hset : {y | y ∈ l ++ [x]} = insert x {y | y ∈ l} := by
        ext y
        simp [or_comm]
      exact hset ▸ hhull.extend x

theorem IsHull.subset {S : Set α} {i : α × α} (h : IsHull S i) : S ⊆ Set.Icc i.1 i.2 :=
  fun _ hx => ⟨h.lower.1 hx, h.upper.1 hx⟩

/-- No other interval that holds the points is smaller. -/
theorem IsHull.smallest {S : Set α} {i j : α × α} (h : IsHull S i) (hj : S ⊆ Set.Icc j.1 j.2) :
    Set.Icc i.1 i.2 ⊆ Set.Icc j.1 j.2 :=
  Set.Icc_subset_Icc (h.lower.2 fun _ hx => (hj hx).1) (h.upper.2 fun _ hx => (hj hx).2)

theorem IsHull.le {S : Set α} {i : α × α} (h : IsHull S i) (hS : S.Nonempty) : i.1 ≤ i.2 := by
  obtain ⟨x, hx⟩ := hS
  exact (h.lower.1 hx).trans (h.upper.1 hx)

end PowerScreen.Library.Hull
