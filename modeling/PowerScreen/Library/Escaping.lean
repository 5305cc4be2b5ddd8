import Mathlib.Data.List.Basic

/-! # Codes that escape

A code that writes a plain letter as one letter, and any other one as at least two. What it
writes for a word is the word letter by letter exactly when every letter of it is plain.
-/
namespace PowerScreen.Library

variable {α β : Type*}

theorem length_le_length_flatMap {f : α → List β} (h : ∀ a, 1 ≤ (f a).length) (l : List α) :
    l.length ≤ (l.flatMap f).length := by
  induction l with
  | nil => exact Nat.le_refl 0
  | cons a l ih =>
    have ha := h a
    rw [List.flatMap_cons, List.length_append, List.length_cons]
    omega

/-- What the code `f` writes for a letter: `g` of it where it is plain, else an escape. -/
def Escapes (plain : α → Prop) (g : α → β) (f : α → List β) : Prop :=
  ∀ a, (plain a ∧ f a = [g a]) ∨ (¬ plain a ∧ 2 ≤ (f a).length)

variable {plain : α → Prop} {g : α → β} {f : α → List β}

theorem Escapes.one_le_length (h : Escapes plain g f) (a : α) : 1 ≤ (f a).length := by
  rcases h a with ⟨-, ha⟩ | ⟨-, ha⟩
  · rw [ha]
    exact Nat.le_refl 1
  · exact Nat.le_of_succ_le ha

theorem Escapes.eq_of_plain (h : Escapes plain g f) {a : α} (ha : plain a) : f a = [g a] :=
  ((h a).resolve_right fun hesc => hesc.1 ha).2

theorem Escapes.flatMap_eq_map_iff (h : Escapes plain g f) {l : List α} :
    l.flatMap f = l.map g ↔ ∀ a ∈ l, plain a := by
  induction l with
  | nil => simp
  | cons a l ih =>
    rw [List.flatMap_cons, List.map_cons, List.forall_mem_cons]
    constructor
    · intro heq
      have hlen := congrArg List.length heq
      have hle := length_le_length_flatMap h.one_le_length l
      rw [List.length_append, List.length_cons, List.length_map] at hlen
      rcases h a with ⟨hplain, ha⟩ | ⟨-, hlong⟩
      · rw [ha, List.singleton_append, List.cons.injEq] at heq
        exact ⟨hplain, ih.mp heq.2⟩
      · -- with the first letter escaped, too much is written
        omega
    · rintro ⟨ha, hl⟩
      rw [h.eq_of_plain ha, ih.mpr hl, List.singleton_append]

end PowerScreen.Library
