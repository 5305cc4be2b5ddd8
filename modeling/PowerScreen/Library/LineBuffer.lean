import Mathlib.Data.List.DropRight
import PowerScreen.Library.Fields

/-! # Lines out of pieces

A text arrives in pieces that may end anywhere. What is complete up to the last delimiter is
passed on at once, the rest is held until more arrives or the text ends.
-/
namespace PowerScreen.Library

variable {α : Type*} [DecidableEq α] (d : α)

theorem fields_ne_nil {t : List α} (h : t ≠ []) : fields d t ≠ [] := by
  cases t with
  | nil => exact absurd rfl h
  | cons c t =>
    rw [fields]
    split_ifs
    · simp
    · split <;> simp

/-- A text that ends in the delimiter is read apart from what comes behind it. -/
theorem fields_append_of_last (l t : List α) :
    fields d (l ++ [d] ++ t) = fields d (l ++ [d]) ++ fields d t := by
  induction l with
  | nil => simp [fields]
  | cons c l ih =>
    have hne := fields_ne_nil d (t := l ++ [d]) (by simp)
    rw [List.cons_append, List.cons_append, fields, fields, ih]
    split_ifs
    · rfl
    · cases hl : fields d (l ++ [d]) with
      | nil => exact absurd hl hne
      | cons f fs => rfl

structure LineBuffer (α : Type*) where
  held : List α := []
  out : List (List α) := []

namespace LineBuffer

def feed (b : LineBuffer α) (data : List α) : LineBuffer α :=
  if d ∈ b.held ++ data then
    { held := (b.held ++ data).rtakeWhile (· ≠ d)
      out := b.out ++ [(b.held ++ data).rdropWhile (· ≠ d)] }
  else { b with held := b.held ++ data }

/-- At the end what is held is passed on too. -/
def flush (b : LineBuffer α) : List (List α) := if b.held = [] then b.out else b.out ++ [b.held]

/-- What was fed is passed on or held; only whole lines are passed on, none is held. -/
structure Framed (b : LineBuffer α) (total : List α) : Prop where
  whole : b.out.flatten ++ b.held = total
  held : d ∉ b.held
  lines : ∀ o ∈ b.out, ∃ l, o = l ++ [d]

variable {d} {b : LineBuffer α} {total : List α}

omit [DecidableEq α] in
theorem framed_nil : Framed d ({} : LineBuffer α) [] := ⟨rfl, by simp, by simp⟩

theorem Framed.feed (h : b.Framed d total) (data : List α) :
    (b.feed d data).Framed d (total ++ data) := by
  rw [LineBuffer.feed]
  split_ifs with hmem
  · refine ⟨?_, fun hd => by simpa using List.mem_rtakeWhile_imp hd, ?_⟩
    · rw [List.flatten_append, List.flatten_singleton, List.append_assoc,
        List.rdropWhile_append_rtakeWhile, ← h.whole, List.append_assoc]
    · intro o ho
      rcases List.mem_append.mp ho with ho | ho
      · exact h.lines o ho
      · rw [List.mem_singleton] at ho
        have hne : (b.held ++ data).rdropWhile (· ≠ d) ≠ [] := by
          rw [Ne, List.rdropWhile_eq_nil_iff]
          intro hall
          simpa using hall d hmem
        have hlast := List.rdropWhile_last_not _ _ hne
        have hd : ((b.held ++ data).rdropWhile (· ≠ d)).getLast hne = d := by simpa using hlast
        rw [ho]
        refine ⟨((b.held ++ data).rdropWhile (· ≠ d)).dropLast, ?_⟩
        conv_lhs => rw [← List.dropLast_append_getLast hne, hd]
  · exact ⟨by rw [← h.whole, List.append_assoc], hmem, h.lines⟩

omit [DecidableEq α] in
theorem Framed.flatten_flush (h : b.Framed d total) : b.flush.flatten = total := by
  rw [flush, ← h.whole]
  split_ifs with hheld
  · rw [hheld, List.append_nil]
  · rw [List.flatten_append, List.flatten_singleton]

/-- The lines that are passed on are those of the text: none is cut in two. -/
theorem Framed.fields_flush (h : b.Framed d total) :
    b.flush.flatMap (fields d) = fields d total := by
  have hout : ∀ (os : List (List α)) (t : List α), (∀ o ∈ os, ∃ l, o = l ++ [d]) →
      fields d (os.flatten ++ t) = os.flatMap (fields d) ++ fields d t := by
    intro os t
    induction os with
    | nil => simp
    | cons o os ih =>
      intro hos
      obtain ⟨l, hl⟩ := hos o List.mem_cons_self
      rw [List.flatten_cons, List.append_assoc, List.flatMap_cons, List.append_assoc, hl,
        fields_append_of_last, ih fun o' ho' => hos o' (List.mem_cons_of_mem o ho')]
  rw [flush, ← h.whole, hout _ _ h.lines]
  split_ifs with hheld
  · rw [hheld, fields, List.append_nil]
  · rw [List.flatMap_append, List.flatMap_singleton]

/-- A text of one line is passed on in one piece. -/
theorem Framed.flush_line (h : b.Framed d total) {l : List α} (hl : d ∉ l)
    (htotal : total = l ++ [d]) : b.flush = [l ++ [d]] := by
  have hheld : b.held = [] := by
    by_contra hne
    have hlast := congrArg List.getLast? (h.whole.trans htotal)
    rw [List.getLast?_append_of_ne_nil _ hne, List.getLast?_concat] at hlast
    exact h.held (List.mem_of_getLast? hlast)
  have hfields := h.fields_flush
  rw [htotal, fields_append_cons hl] at hfields
  have hflat := h.flatten_flush
  rw [flush, if_pos hheld] at hfields hflat ⊢
  have hnil : ∀ o ∈ b.out, fields d o ≠ [] := fun o ho => by
    obtain ⟨l', rfl⟩ := h.lines o ho
    exact fields_ne_nil d (by simp)
  match hb : b.out with
  | [] => simp [hb] at hfields
  | [o] => simpa [hb, htotal] using hflat
  | o :: o' :: os =>
    have hlen := congrArg List.length hfields
    have h₁ := List.length_pos_of_ne_nil (hnil o (by simp [hb]))
    have h₂ := List.length_pos_of_ne_nil (hnil o' (by simp [hb]))
    simp only [hb, List.flatMap_cons, List.length_append, fields, List.length_cons,
      List.length_nil] at hlen
    omega

end LineBuffer

end PowerScreen.Library
