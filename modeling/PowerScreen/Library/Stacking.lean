import Mathlib.Data.List.Nodup

/-! # A stack of entries and the things it lists

Things lie on top of each other and a stack lists them in the order they were put
there, the newest first. A thing that is put on top again gets a second entry, and
one that is taken away may leave an entry behind, so what lies there follows the
first entries of the stack with some of them left out.
-/
namespace PowerScreen.Library.Stacking

variable {α : Type*} [DecidableEq α]

/-- The first occurrence of every entry. -/
def firsts : List α → List α
  | [] => []
  | a :: as => a :: (firsts as).filter (· ≠ a)

/-- A new entry, unless the newest one is the same. -/
def push (a : α) (as : List α) : List α := if as.head? = some a then as else a :: as

def toFront (a : α) (as : List α) : List α := a :: as.filter (· ≠ a)

def toBack (a : α) (as : List α) : List α := as.filter (· ≠ a) ++ [a]

/-- The things `xs` lie in the order in which the entries `as` were made. -/
def Follows (xs as : List α) : Prop := ∃ p : α → Bool, xs = (firsts as).filter p

theorem nodup_firsts (as : List α) : (firsts as).Nodup := by
  induction as with
  | nil => exact List.nodup_nil
  | cons a as ih =>
    rw [firsts, List.nodup_cons]
    exact ⟨by simp, ih.filter _⟩

theorem firsts_push (a : α) (as : List α) :
    firsts (push a as) = a :: (firsts as).filter (· ≠ a) := by
  unfold push
  split_ifs with h
  · obtain ⟨bs, rfl⟩ : ∃ bs, as = a :: bs := by
      cases as with
      | nil => cases h
      | cons b bs => exact ⟨bs, by rw [Option.some.inj h]⟩
    simp [firsts, List.filter_filter]
  · rfl

theorem head?_push (a : α) (as : List α) : (push a as).head? = some a := by
  unfold push
  split_ifs with h
  · exact h
  · rfl

theorem Follows.nil (as : List α) : Follows [] as := ⟨fun _ => false, by simp⟩

theorem Follows.nodup {xs as : List α} (h : Follows xs as) : xs.Nodup := by
  obtain ⟨p, rfl⟩ := h
  exact (nodup_firsts as).filter p

/-- Something is put on top while `q` tells what stays of the rest. -/
theorem Follows.put {xs as : List α} (h : Follows xs as) (a : α) {q : α → Bool}
    (hq : q a = false) : Follows (a :: xs.filter q) (push a as) := by
  obtain ⟨p, rfl⟩ := h
  refine ⟨fun x => x = a ∨ (p x ∧ q x), ?_⟩
  rw [firsts_push, List.filter_cons_of_pos (by simp), List.filter_filter, List.filter_filter]
  congr 1
  refine List.filter_congr fun x _ => ?_
  by_cases hx : x = a
  · simp [hx, hq]
  · simp [hx, and_comm]

/-- The thing on top is taken away with its entry. -/
theorem Follows.take {a : α} {xs as : List α} (h : Follows (a :: xs) (a :: as)) :
    Follows xs as := by
  obtain ⟨p, hp⟩ := h
  rw [firsts] at hp
  by_cases ha : p a
  · rw [List.filter_cons_of_pos ha, List.cons.injEq, List.filter_filter] at hp
    exact ⟨fun x => p x && decide (x ≠ a), hp.2⟩
  · rw [List.filter_cons_of_neg ha] at hp
    have hmem : a ∈ ((firsts as).filter (· ≠ a)).filter p := hp ▸ List.mem_cons_self
    simp at hmem

/-- Under the top the newest entry and the uppermost thing are the same exactly when
the thing of that entry still lies there. -/
theorem Follows.head?_eq_iff {a : α} {xs as : List α} (h : Follows (a :: xs) (a :: as)) :
    xs.head? = as.head? ↔ ∀ b, as.head? = some b → b ∈ xs := by
  constructor
  · intro heq b hb
    exact List.mem_of_mem_head? (heq.trans hb)
  · intro hmem
    obtain ⟨p, hp⟩ := h.take
    cases as with
    | nil => simpa [firsts] using hp
    | cons b bs =>
      have hb : b ∈ (firsts (b :: bs)).filter p := hp ▸ hmem b rfl
      rw [hp, firsts, List.filter_cons_of_pos (List.mem_filter.mp hb).2]
      rfl

end PowerScreen.Library.Stacking
