import Mathlib.Data.List.Basic
import Mathlib.Data.List.Nodup
import Mathlib.Logic.Function.Basic
import Mathlib.Tactic.SplitIfs

/-! # Filling a grid row by row

The items of a list that are wanted take the cells of a grid of a fixed width one after
another; the others are hidden where they are.
-/
namespace PowerScreen.Library.RowMajor

variable {κ : Type*}

/-- Column and row of a position. -/
def cell (width n : ℕ) : ℕ × ℕ := (n % width, n / width)

theorem cell_injective (width : ℕ) : Function.Injective (cell width) := by
  intro m n h
  obtain ⟨hmod, hdiv⟩ := Prod.mk.inj h
  rw [← Nat.div_add_mod m width, ← Nat.div_add_mod n width, hmod, hdiv]

/-- The rows that hold `n` items. -/
def rowsFor (width n : ℕ) : ℕ := (n + (width - 1)) / width

theorem snd_cell_lt {width m n : ℕ} (hw : 0 < width) (h : m < n) :
    (cell width m).2 < rowsFor width n := by
  have hdiv : m / width + 1 ≤ (n + (width - 1)) / width := by
    rw [← Nat.add_div_right m hw]
    exact Nat.div_le_div_right (by omega)
  exact hdiv

structure Tile where
  hidden : Bool := false
  cell : ℕ × ℕ := (0, 0)
deriving DecidableEq

variable [DecidableEq κ] (width : ℕ)

/-- One item; the number counts the cells that are taken. -/
def place (s : (κ → Tile) × ℕ) (e : κ × Bool) : (κ → Tile) × ℕ :=
  if e.2 then (Function.update s.1 e.1 ⟨false, RowMajor.cell width s.2⟩, s.2 + 1)
  else (Function.update s.1 e.1 { s.1 e.1 with hidden := true }, s.2)

def placeAll (s : (κ → Tile) × ℕ) (l : List (κ × Bool)) : (κ → Tile) × ℕ := l.foldl (place width) s

/-- The wanted items, in their order. -/
def wanted (l : List (κ × Bool)) : List κ := (l.filter Prod.snd).map Prod.fst

variable {width}

theorem placeAll_count (s : (κ → Tile) × ℕ) (l : List (κ × Bool)) :
    (placeAll width s l).2 = s.2 + (wanted l).length := by
  induction l generalizing s with
  | nil => rfl
  | cons e l ih =>
    rw [placeAll, List.foldl_cons, ← placeAll, ih, place]
    obtain ⟨k, b⟩ := e
    cases b
    · rfl
    · simp [wanted, Nat.add_assoc, Nat.add_comm 1]

theorem placeAll_of_not_mem {l : List (κ × Bool)} {k : κ} (h : k ∉ l.map Prod.fst)
    (s : (κ → Tile) × ℕ) : (placeAll width s l).1 k = s.1 k := by
  induction l generalizing s with
  | nil => rfl
  | cons e l ih =>
    rw [List.map_cons, List.mem_cons, not_or] at h
    rw [placeAll, List.foldl_cons, ← placeAll, ih h.2, place]
    split_ifs
    · exact Function.update_of_ne h.1 _ _
    · exact Function.update_of_ne h.1 _ _

/-- An item is hidden exactly if it is not wanted. -/
theorem hidden_placeAll {l : List (κ × Bool)} (hl : (l.map Prod.fst).Nodup) {e : κ × Bool}
    (he : e ∈ l) (s : (κ → Tile) × ℕ) : ((placeAll width s l).1 e.1).hidden = !e.2 := by
  induction l generalizing s with
  | nil => cases he
  | cons d l ih =>
    rw [List.map_cons, List.nodup_cons] at hl
    rw [placeAll, List.foldl_cons, ← placeAll]
    rcases List.mem_cons.mp he with rfl | he
    · rw [placeAll_of_not_mem hl.1, place]
      cases e.2 <;> simp
    · exact ih hl.2 he _

/-- The wanted items have the first cells, in order. -/
theorem map_cell_placeAll {l : List (κ × Bool)} (hl : (l.map Prod.fst).Nodup)
    (s : (κ → Tile) × ℕ) : (wanted l).map (fun k => ((placeAll width s l).1 k).cell) =
      (List.range' s.2 (wanted l).length).map (cell width) := by
  induction l generalizing s with
  | nil => rfl
  | cons e l ih =>
    obtain ⟨k, b⟩ := e
    rw [List.map_cons, List.nodup_cons] at hl
    have htail := ih hl.2 (place width s (k, b))
    cases b with
    | false => exact htail
    | true =>
      have hwanted : wanted ((k, true) :: l) = k :: wanted l := rfl
      have hself : ((placeAll width s ((k, true) :: l)).1 k).cell = cell width s.2 := by
        rw [placeAll, List.foldl_cons, ← placeAll, placeAll_of_not_mem hl.1, place, if_pos rfl]
        dsimp only
        rw [Function.update_self]
      rw [hwanted, List.map_cons, List.length_cons, List.range'_succ, List.map_cons, hself]
      exact congrArg _ htail

end PowerScreen.Library.RowMajor
