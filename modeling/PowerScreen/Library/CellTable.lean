import Mathlib.Data.List.GetD
import Mathlib.Tactic

/-! # Tables that grow

Writing to a row that is not there yet adds it and the rows before it, blank; setting the number of
rows drops those behind. A row that is there keeps what is not written.
-/
namespace PowerScreen.Library.CellTable

variable {ρ : Type*} (blank : ρ)

def modifyRow (i : ℕ) (f : ρ → ρ) (rows : List ρ) : List ρ :=
  (rows ++ List.replicate (i + 1 - rows.length) blank).modify i f

def setRowCount (n : ℕ) (rows : List ρ) : List ρ :=
  rows.take n ++ List.replicate (n - rows.length) blank

theorem length_modifyRow (i : ℕ) (f : ρ → ρ) (rows : List ρ) :
    (modifyRow blank i f rows).length = max rows.length (i + 1) := by
  rw [modifyRow, List.length_modify, List.length_append, List.length_replicate]
  omega

theorem length_setRowCount (n : ℕ) (rows : List ρ) : (setRowCount blank n rows).length = n := by
  rw [setRowCount, List.length_append, List.length_take, List.length_replicate]
  omega

/-- A row that is not there counts as blank. -/
theorem getD_append_replicate (n j : ℕ) (rows : List ρ) :
    (rows ++ List.replicate n blank).getD j blank = rows.getD j blank := by
  rcases Nat.lt_or_ge j rows.length with hj | hj
  · rw [List.getD_append _ _ _ _ hj]
  · rw [List.getD_append_right _ _ _ _ hj, List.getD_eq_default _ _ hj, List.getD_eq_getElem?_getD,
      List.getElem?_replicate]
    split_ifs <;> rfl

theorem getD_modifyRow (i j : ℕ) (f : ρ → ρ) (rows : List ρ) :
    (modifyRow blank i f rows).getD j blank =
      if j = i then f (rows.getD i blank) else rows.getD j blank := by
  have hpad := getD_append_replicate blank (i + 1 - rows.length) j rows
  rw [modifyRow, List.getD_eq_getElem?_getD, List.getElem?_modify]
  rw [List.getD_eq_getElem?_getD] at hpad
  split_ifs with hij hji hji
  · subst hji
    have hlt : j < (rows ++ List.replicate (j + 1 - rows.length) blank).length := by
      rw [List.length_append, List.length_replicate]
      omega
    rw [List.getElem?_eq_getElem hlt, Option.getD_some] at hpad
    rw [List.getElem?_eq_getElem hlt, Option.map_eq_map, Option.map_some, Option.getD_some, hpad]
  · exact absurd hij.symm hji
  · exact absurd hji.symm hij
  · simpa using hpad

theorem modifyRow_modifyRow (i : ℕ) (f g : ρ → ρ) (rows : List ρ) :
    modifyRow blank i g (modifyRow blank i f rows) = modifyRow blank i (g ∘ f) rows := by
  refine List.ext_getElem ?_ fun j hj hj' => ?_
  · simp only [length_modifyRow]
    omega
  · rw [← List.getD_eq_getElem _ blank hj, ← List.getD_eq_getElem _ blank hj']
    simp only [getD_modifyRow, if_true]
    split_ifs <;> rfl

theorem getD_setRowCount {n j : ℕ} (hj : j < n) (rows : List ρ) :
    (setRowCount blank n rows).getD j blank = rows.getD j blank := by
  rw [setRowCount, getD_append_replicate, List.getD_eq_getElem?_getD, List.getElem?_take_of_lt hj,
    ← List.getD_eq_getElem?_getD]

/-- Rows are written one after the other. -/
def writeFrom : ℕ → List (ρ → ρ) → List ρ → List ρ
  | _, [], rows => rows
  | i, f :: fs, rows => writeFrom (i + 1) fs (modifyRow blank i f rows)

theorem getD_writeFrom (fs : List (ρ → ρ)) (i j : ℕ) (rows : List ρ) :
    (writeFrom blank i fs rows).getD j blank =
      if i ≤ j then (fs.getD (j - i) id) (rows.getD j blank) else rows.getD j blank := by
  induction fs generalizing i rows with
  | nil => simp [writeFrom]
  | cons f fs ih =>
    rw [writeFrom, ih, getD_modifyRow]
    rcases Nat.lt_trichotomy i j with hlt | rfl | hgt
    · have hsub : j - i = j - (i + 1) + 1 := by omega
      rw [if_pos (by omega), if_pos hlt.le, if_neg hlt.ne', hsub, List.getD_cons_succ]
    · rw [if_neg (by omega), if_pos rfl, if_pos le_rfl, Nat.sub_self, List.getD_cons_zero]
    · rw [if_neg (by omega), if_neg (by omega), if_neg (by omega)]

end PowerScreen.Library.CellTable
