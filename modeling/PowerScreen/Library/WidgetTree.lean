import Mathlib.Tactic

/-! # Trees of widgets and pointers into them

Widgets are created under one of a few permanent roots or under another widget,
and a root is cleaned of all its descendants at once. Identifiers are not reused:
a pointer kept after its widget was deleted is dead for good.
-/
namespace PowerScreen.Library

structure Widget (ρ α : Type*) where
  root : ρ
  parent : Option ℕ
  data : α
deriving DecidableEq

/-- Every parent is alive and below the same root as its child. -/
structure WidgetTree (ρ α : Type*) where
  next : ℕ
  heap : ℕ → Option (Widget ρ α)
  fresh : ∀ i, next ≤ i → heap i = none
  parents : ∀ i w p, heap i = some w → w.parent = some p →
    ∃ v, heap p = some v ∧ v.root = w.root

namespace WidgetTree

variable {ρ α : Type*}

def empty : WidgetTree ρ α where
  next := 0
  heap _ := none
  fresh _ _ := rfl
  parents _ _ _ h := nomatch h

theorem lt_next (t : WidgetTree ρ α) {i : ℕ} {w : Widget ρ α} (h : t.heap i = some w) :
    i < t.next := by
  by_contra hi
  rw [t.fresh i (not_lt.mp hi)] at h
  cases h

def add (t : WidgetTree ρ α) (w : Widget ρ α)
    (hw : ∀ p, w.parent = some p → ∃ v, t.heap p = some v ∧ v.root = w.root) :
    WidgetTree ρ α where
  next := t.next + 1
  heap := Function.update t.heap t.next (some w)
  fresh i hi := by
    rw [Function.update_of_ne (by omega)]
    exact t.fresh i (by omega)
  parents i v p hv hp := by
    have hparent : ∃ u, t.heap p = some u ∧ u.root = v.root := by
      by_cases hi : i = t.next
      · rw [hi, Function.update_self, Option.some.injEq] at hv
        subst hv
        exact hw p hp
      · rw [Function.update_of_ne hi] at hv
        exact t.parents i v p hv hp
    obtain ⟨u, hu, hr⟩ := hparent
    exact ⟨u, by rw [Function.update_of_ne (t.lt_next hu).ne, hu], hr⟩

def create (t : WidgetTree ρ α) (r : ρ) (d : α) : WidgetTree ρ α :=
  t.add ⟨r, none, d⟩ fun _ h => nomatch h

/-- `none` when the parent has been deleted. -/
def createUnder (t : WidgetTree ρ α) (p : ℕ) (d : α) : Option (WidgetTree ρ α) :=
  match h : t.heap p with
  | none => none
  | some v => some (t.add ⟨v.root, some p, d⟩ fun q hq => by
      cases hq
      exact ⟨v, h, rfl⟩)

/-- Delete all that is below a root. -/
def clean [DecidableEq ρ] (t : WidgetTree ρ α) (r : ρ) : WidgetTree ρ α where
  next := t.next
  heap i := (t.heap i).filter fun w => w.root ≠ r
  fresh i hi := by rw [t.fresh i hi]; rfl
  parents i w p hw hp := by
    obtain ⟨hw, hr⟩ := Option.filter_eq_some_iff.mp hw
    obtain ⟨v, hv, hvr⟩ := t.parents i w p hw hp
    exact ⟨v, Option.filter_eq_some_iff.mpr ⟨hv, by rw [hvr]; exact hr⟩, hvr⟩

def modify (t : WidgetTree ρ α) (i : ℕ) (f : α → α) : WidgetTree ρ α where
  next := t.next
  heap := Function.update t.heap i ((t.heap i).map fun w => { w with data := f w.data })
  fresh j hj := by
    by_cases h : j = i
    · rw [h, Function.update_self, ← h, t.fresh j hj]
      rfl
    · rw [Function.update_of_ne h, t.fresh j hj]
  parents j w p hw hp := by
    have hold : ∃ w', t.heap j = some w' ∧ w'.parent = some p ∧ w'.root = w.root := by
      by_cases h : j = i
      · rw [h, Function.update_self] at hw
        obtain ⟨w', hw', rfl⟩ := Option.map_eq_some_iff.mp hw
        exact ⟨w', h ▸ hw', hp, rfl⟩
      · rw [Function.update_of_ne h] at hw
        exact ⟨w, hw, hp, rfl⟩
    obtain ⟨w', hw', hp', hr⟩ := hold
    obtain ⟨v, hv, hvr⟩ := t.parents j w' p hw' hp'
    by_cases h : p = i
    · exact ⟨{ v with data := f v.data }, by rw [h, Function.update_self, ← h, hv]; rfl,
        hvr.trans hr⟩
    · exact ⟨v, by rw [Function.update_of_ne h, hv], hvr.trans hr⟩

/-- Through a pointer that may be null. -/
def modifyOpt (t : WidgetTree ρ α) (b : Option ℕ) (f : α → α) : WidgetTree ρ α :=
  b.elim t fun i => t.modify i f

theorem heap_create (t : WidgetTree ρ α) (r : ρ) (d : α) (i : ℕ) :
    (t.create r d).heap i = if i = t.next then some ⟨r, none, d⟩ else t.heap i :=
  Function.update_apply ..

theorem heap_createUnder {t u : WidgetTree ρ α} {p : ℕ} {d : α}
    (h : t.createUnder p d = some u) : ∃ v, t.heap p = some v ∧
      ∀ i, u.heap i = if i = t.next then some ⟨v.root, some p, d⟩ else t.heap i := by
  unfold createUnder at h
  split at h
  · cases h
  · rename_i v hv
    cases h
    exact ⟨v, hv, fun i => Function.update_apply ..⟩

theorem createUnder_eq_none_iff {t : WidgetTree ρ α} {p : ℕ} {d : α} :
    t.createUnder p d = none ↔ t.heap p = none := by
  unfold createUnder
  split <;> rename_i h <;> simp [h]

theorem heap_clean [DecidableEq ρ] (t : WidgetTree ρ α) (r : ρ) (i : ℕ) :
    (t.clean r).heap i = (t.heap i).filter fun w => w.root ≠ r := rfl

theorem heap_modify (t : WidgetTree ρ α) (i j : ℕ) (f : α → α) :
    (t.modify i f).heap j =
      if j = i then (t.heap i).map (fun w => { w with data := f w.data }) else t.heap j :=
  Function.update_apply ..

theorem heap_modifyOpt (t : WidgetTree ρ α) (b : Option ℕ) (f : α → α) (i : ℕ) :
    (t.modifyOpt b f).heap i =
      if b = some i then (t.heap i).map (fun w => { w with data := f w.data }) else t.heap i := by
  cases b with
  | none => simp [modifyOpt]
  | some j =>
    rw [modifyOpt, Option.elim, heap_modify]
    by_cases h : i = j
    · simp [h]
    · simp [h, Ne.symm h]

end WidgetTree
end PowerScreen.Library
