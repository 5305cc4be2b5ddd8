import Mathlib.Order.Defs.LinearOrder
import Mathlib.Tactic

/-! # Orders by several keys

Entries are compared by one key and, when that compares equal, by the next. Each key
gives a total preorder, and so does the comparison by all of them; a sort that falls
back on the whole entries orders them totally, whatever the first comparison is.
-/
namespace PowerScreen.Library

variable {α : Type*}

/-- A total preorder. -/
structure TotalPreorder (le : α → α → Prop) : Prop where
  total : ∀ a b, le a b ∨ le b a
  trans : ∀ a b c, le a b → le b c → le a c

theorem TotalPreorder.ofKey {β : Type*} [LinearOrder β] (f : α → β) :
    TotalPreorder fun a b => f a ≤ f b where
  total a b := le_total (f a) (f b)
  trans _ _ _ := le_trans

/-- The order read from the end. -/
theorem TotalPreorder.flip {le : α → α → Prop} (h : TotalPreorder le) :
    TotalPreorder fun a b => le b a where
  total a b := h.total b a
  trans a b c hab hbc := h.trans c b a hbc hab

/-- By `le`, and by `le'` where that does not decide. -/
def ThenBy (le le' : α → α → Prop) (a b : α) : Prop := le a b ∧ (le b a → le' a b)

theorem TotalPreorder.thenBy {le le' : α → α → Prop} (h : TotalPreorder le)
    (h' : TotalPreorder le') : TotalPreorder (ThenBy le le') where
  total a b := by
    by_cases hab : le a b
    · by_cases hba : le b a
      · exact (h'.total a b).imp (fun hle => ⟨hab, fun _ => hle⟩) fun hle => ⟨hba, fun _ => hle⟩
      · exact Or.inl ⟨hab, fun hba' => absurd hba' hba⟩
    · exact Or.inr ⟨(h.total a b).resolve_left hab, fun hab' => absurd hab' hab⟩
  trans a b c hab hbc := by
    refine ⟨h.trans a b c hab.1 hbc.1, fun hca => ?_⟩
    have hba : le b a := h.trans b c a hbc.1 hca
    have hcb : le c b := h.trans c a b hca hab.1
    exact h'.trans a b c (hab.2 hba) (hbc.2 hcb)

variable [LinearOrder α] {le : α → α → Prop}

/-- `a` comes before `b` or is `b`. -/
def BreakTies (le : α → α → Prop) (a b : α) : Prop := le a b ∧ (le b a → a ≤ b)

theorem BreakTies.antisymm {a b : α} (h : BreakTies le a b) (h' : BreakTies le b a) : a = b :=
  le_antisymm (h.2 h'.1) (h'.2 h.1)

theorem TotalPreorder.breakTies (h : TotalPreorder le) : TotalPreorder (BreakTies le) :=
  h.thenBy (.ofKey id)

theorem not_breakTies_iff (h : TotalPreorder le) {a b : α} (hne : a ≠ b) :
    ¬ BreakTies le a b ↔ BreakTies le b a :=
  ⟨(h.breakTies.total a b).resolve_left, fun hba hab => hne (hab.antisymm hba)⟩

end PowerScreen.Library
