import Mathlib.Data.Prod.Lex
import Mathlib.Data.List.FinRange
import Mathlib.Data.List.Sort
import PowerScreen.Library.TieBreak

/-! # Sorts by comparisons that can fail

A sort sees its elements through the comparison only. One that sorts by every order has to compare
each element of a longer list at least once: an element that it left out could as well be the
least or the greatest. So a comparison that fails on an element makes the sort fail.
-/
namespace PowerScreen.Library.ComparisonSort

/-- What a sort of `n` elements does: it asks for comparisons of two places, and the answers lead
to an order of the places. -/
inductive Program (n : ℕ) where
  | done (out : List (Fin n))
  | compare (a b : Fin n) (next : Bool → Program n)

/-- A comparison that fails ends the run. -/
def Program.run {n : ℕ} (lt : Fin n → Fin n → Option Bool) : Program n → Option (List (Fin n))
  | .done out => some out
  | .compare a b next => (lt a b).bind fun r => (next r).run lt

/-- A sort for every length. It sorts by every comparison that is a strict weak order, and there is
nothing to compare in a list of at most one element. -/
structure StdSort where
  program (n : ℕ) : Program n
  sorts (n : ℕ) (lt : Fin n → Fin n → Bool) (h : TotalPreorder fun a b => lt b a = false) :
    ∃ out, (program n).run (fun a b => some (lt a b)) = some out ∧
      out.Perm (List.finRange n) ∧ out.Pairwise fun a b => lt b a = false
  short (n : ℕ) (h : n ≤ 1) : ∃ out, program n = .done out

variable {n : ℕ}

/-- A run without failure goes the same way under every comparison with the same answers. -/
theorem run_of_agree {lt : Fin n → Fin n → Option Bool} {lt' : Fin n → Fin n → Bool}
    (hagree : ∀ a b r, lt a b = some r → lt' a b = r) {p : Program n} {out : List (Fin n)}
    (h : p.run lt = some out) : p.run (fun a b => some (lt' a b)) = some out := by
  induction p with
  | done out' => exact h
  | compare a b next ih =>
    rw [Program.run] at h ⊢
    obtain ⟨r, hr, hnext⟩ := Option.bind_eq_some_iff.mp h
    rw [Option.bind_some, hagree a b r hr]
    exact ih r hnext

/-- Elements are compared by a key that some of them lack. -/
def byKey {α κ : Type*} [LinearOrder κ] (key : α → Option κ) (a b : α) : Option Bool :=
  (key a).bind fun x => (key b).map fun y => decide (x < y)

/-- A rank and then the key; what has no key comes before the others of its rank. -/
def rankedKey {α κ : Type*} (rank : α → ℕ) (key : α → Option κ) (a : α) : ℕ ×ₗ WithBot κ :=
  toLex (rank a, (key a).elim ⊥ WithBot.some)

def ranked {α κ : Type*} [LinearOrder κ] (rank : α → ℕ) (key : α → Option κ) (a b : α) : Bool :=
  rankedKey rank key a < rankedKey rank key b

variable {α κ : Type*} [LinearOrder κ]

theorem totalPreorder_ranked (rank : α → ℕ) (key : α → Option κ) :
    TotalPreorder fun a b => ranked rank key b a = false := by
  have h := TotalPreorder.ofKey (rankedKey rank key)
  refine ⟨fun a b => ?_, fun a b c hab hbc => ?_⟩
  · simp only [ranked, decide_eq_false_iff_not, not_lt]
    exact h.total a b
  · simp only [ranked, decide_eq_false_iff_not, not_lt] at hab hbc ⊢
    exact h.trans a b c hab hbc

/-- Ranks that are the same for all elements that have a key do not matter to them. -/
theorem ranked_of_byKey {rank : α → ℕ} {key : α → Option κ} {r₀ : ℕ}
    (hrank : ∀ a, (key a).isSome → rank a = r₀) (a b : α) (r : Bool) (h : byKey key a b = some r) :
    ranked rank key a b = r := by
  obtain ⟨x, hx, hr⟩ := Option.bind_eq_some_iff.mp h
  obtain ⟨y, hy, rfl⟩ := Option.map_eq_some_iff.mp hr
  have ha : rankedKey rank key a = toLex (r₀, (x : WithBot κ)) := by
    rw [rankedKey, hrank a (by rw [hx]; rfl), hx]
    rfl
  have hb : rankedKey rank key b = toLex (r₀, (y : WithBot κ)) := by
    rw [rankedKey, hrank b (by rw [hy]; rfl), hy]
    rfl
  rw [ranked, ha, hb]
  refine decide_eq_decide.mpr ?_
  rw [Prod.Lex.toLex_lt_toLex]
  simp only [lt_self_iff_false, false_or, true_and]
  exact WithBot.coe_lt_coe

theorem ranked_of_rank_lt {rank : α → ℕ} (key : α → Option κ) {a b : α} (h : rank a < rank b) :
    ranked rank key a b = true :=
  decide_eq_true (Prod.Lex.toLex_lt_toLex.mpr (.inl h))

/-- A run that an element without a key does not end sorts it wherever it is ranked. -/
theorem sorted_of_run (S : StdSort) {key : Fin n → Option κ} {i : Fin n} (hi : key i = none)
    {out : List (Fin n)} (hout : (S.program n).run (byKey key) = some out) (r : ℕ) :
    out.Perm (List.finRange n) ∧
      out.Pairwise fun a b => ranked (fun a => if a = i then r else 1) key b a = false := by
  have hrank (a : Fin n) (ha : (key a).isSome) : (if a = i then r else 1) = 1 := by
    refine if_neg ?_
    rintro rfl
    rw [hi] at ha
    cases ha
  obtain ⟨out', hout', hperm, hsorted⟩ := S.sorts n _
    (totalPreorder_ranked (fun a => if a = i then r else 1) key)
  rw [run_of_agree (ranked_of_byKey hrank) hout, Option.some_inj] at hout'
  exact hout' ▸ ⟨hperm, hsorted⟩

/-- No element of a longer list is left out. -/
theorem run_eq_none (S : StdSort) (hn : 2 ≤ n) {key : Fin n → Option κ} {i : Fin n}
    (hi : key i = none) : (S.program n).run (byKey key) = none := by
  by_contra hsome
  obtain ⟨out, hout⟩ := Option.ne_none_iff_exists'.mp hsome
  -- ranked first and ranked last, one of the two orders is wrong for another place
  obtain ⟨hperm, hfirst⟩ := sorted_of_run S hi hout 0
  obtain ⟨-, hlast⟩ := sorted_of_run S hi hout 2
  obtain ⟨l, m, rfl⟩ := List.append_of_mem (hperm.mem_iff.mpr (List.mem_finRange i))
  have hother : ∃ j, j ≠ i := by
    have : Nontrivial (Fin n) := Fin.nontrivial_iff_two_le.mpr hn
    exact exists_ne i
  obtain ⟨j, hj⟩ := hother
  have hin := hperm.mem_iff.mpr (List.mem_finRange j)
  rw [List.mem_append, List.mem_cons, or_iff_right hj] at hin
  rw [List.pairwise_append, List.pairwise_cons] at hfirst hlast
  rcases hin with hbefore | hafter
  · have hfalse := hfirst.2.2 j hbefore i List.mem_cons_self
    rw [ranked_of_rank_lt key (by rw [if_pos rfl, if_neg hj]; exact Nat.zero_lt_one)] at hfalse
    cases hfalse
  · have hfalse := hlast.2.1.1 j hafter
    rw [ranked_of_rank_lt key (by rw [if_pos rfl, if_neg hj]; exact Nat.one_lt_two)] at hfalse
    cases hfalse

/-- The list in the order that the sort leads to. -/
def StdSort.sort {α : Type*} (S : StdSort) (lt : α → α → Option Bool) (xs : List α) :
    Option (List α) :=
  ((S.program xs.length).run fun a b => lt (xs.get a) (xs.get b)).map fun out => out.map xs.get

theorem map_get_perm {xs : List α} {out : List (Fin xs.length)}
    (h : out.Perm (List.finRange xs.length)) : (out.map xs.get).Perm xs := by
  have hmap := h.map xs.get
  rwa [List.map_get_finRange] at hmap

/-- A list of keyed elements is sorted by the key. -/
theorem sort_of_forall (S : StdSort) {key : α → Option κ} {xs : List α}
    (h : ∀ x ∈ xs, (key x).isSome) : ∃ ys, S.sort (byKey key) xs = some ys ∧ ys.Perm xs ∧
      ys.Pairwise fun a b => ∀ x y, key a = some x → key b = some y → x ≤ y := by
  have hsome (a : Fin xs.length) : ∃ x, key (xs.get a) = some x :=
    Option.isSome_iff_exists.mp (h _ (List.get_mem xs a))
  choose k hk using hsome
  have hlt : (fun a b => byKey key (xs.get a) (xs.get b)) = fun a b => some (decide (k a < k b)) := by
    funext a b
    rw [byKey, hk a, hk b]
    rfl
  have horder : TotalPreorder fun a b => decide (k b < k a) = false := by
    simp only [decide_eq_false_iff_not, not_lt]
    exact TotalPreorder.ofKey k
  obtain ⟨out, hout, hperm, hsorted⟩ := S.sorts xs.length _ horder
  refine ⟨out.map xs.get, ?_, map_get_perm hperm, ?_⟩
  · rw [StdSort.sort, hlt, hout]
    rfl
  · rw [List.pairwise_map]
    refine hsorted.imp fun {a b} hab x y hx hy => ?_
    rw [hk a, Option.some_inj] at hx
    rw [hk b, Option.some_inj] at hy
    rw [← hx, ← hy]
    exact not_lt.mp (of_decide_eq_false hab)

theorem sort_of_length_le_one (S : StdSort) (lt : α → α → Option Bool) {xs : List α}
    (h : xs.length ≤ 1) : S.sort lt xs = some xs := by
  obtain ⟨out, hout⟩ := S.short xs.length h
  obtain ⟨out', hout', hperm, -⟩ := S.sorts xs.length (fun _ _ => false)
    ⟨fun _ _ => .inl rfl, fun _ _ _ _ _ => rfl⟩
  rw [hout, Program.run, Option.some_inj] at hout'
  rw [StdSort.sort, hout, Program.run, Option.map_some, Option.some_inj, hout']
  have hperm' := map_get_perm hperm
  rcases Nat.le_one_iff_eq_zero_or_eq_one.mp h with hzero | hone
  · rw [List.length_eq_zero_iff] at hzero
    subst hzero
    exact hperm'.eq_nil
  · obtain ⟨x, rfl⟩ := List.length_eq_one_iff.mp hone
    exact List.perm_singleton.mp hperm'

/-- The sort fails on two or more elements of which one has no key. -/
theorem sort_isSome_iff (S : StdSort) {key : α → Option κ} {xs : List α} :
    (S.sort (byKey key) xs).isSome ↔ xs.length ≤ 1 ∨ ∀ x ∈ xs, (key x).isSome := by
  constructor
  · intro hsome
    by_contra hnot
    push Not at hnot
    obtain ⟨hlong, x, hx, hnone⟩ := hnot
    obtain ⟨i, hi⟩ := List.get_of_mem hx
    have hrun : (S.program xs.length).run (byKey fun a => key (xs.get a)) = none :=
      run_eq_none S hlong (i := i) (hi ▸ Option.not_isSome_iff_eq_none.mp hnone)
    have hsort : S.sort (byKey key) xs = none := congrArg _ hrun
    rw [hsort] at hsome
    cases hsome
  · rintro (hshort | hall)
    · rw [sort_of_length_le_one S _ hshort]
      rfl
    · obtain ⟨ys, hys, -⟩ := sort_of_forall S hall
      rw [hys]
      rfl

/-- A list of at most one element is ordered in every way. -/
theorem pairwise_of_length_le_one {R : α → α → Prop} {xs : List α}
    (h : xs.length ≤ 1) : xs.Pairwise R := by
  rcases Nat.le_one_iff_eq_zero_or_eq_one.mp h with hzero | hone
  · rw [List.length_eq_zero_iff.mp hzero]
    exact List.Pairwise.nil
  · obtain ⟨x, rfl⟩ := List.length_eq_one_iff.mp hone
    exact List.pairwise_singleton _ _

/-- What the sort leads to, if it does not fail. -/
theorem sort_spec (S : StdSort) {key : α → Option κ} {xs ys : List α}
    (h : S.sort (byKey key) xs = some ys) : ys.Perm xs ∧
      ys.Pairwise fun a b => ∀ x y, key a = some x → key b = some y → x ≤ y := by
  rcases (sort_isSome_iff S).mp (Option.isSome_of_eq_some h) with hshort | hall
  · rw [sort_of_length_le_one S _ hshort, Option.some_inj] at h
    subst h
    exact ⟨List.Perm.refl _, pairwise_of_length_le_one hshort⟩
  · obtain ⟨zs, hzs, hperm, hsorted⟩ := sort_of_forall S hall
    rw [h, Option.some_inj] at hzs
    exact hzs ▸ ⟨hperm, hsorted⟩

/-- Puts a place into an order and goes on with the result. -/
def insertThen (a : Fin n) : List (Fin n) → (List (Fin n) → Program n) → Program n
  | [], next => next [a]
  | b :: bs, next =>
    .compare b a fun r =>
      if r then insertThen a bs fun out => next (b :: out) else next (a :: b :: bs)

def insertAllThen : List (Fin n) → (List (Fin n) → Program n) → Program n
  | [], next => next []
  | a :: as, next => insertAllThen as fun out => insertThen a out next

theorem run_insertThen (lt : Fin n → Fin n → Bool) (a : Fin n) (l : List (Fin n))
    (next : List (Fin n) → Program n) :
    (insertThen a l next).run (fun a b => some (lt a b)) =
      (next (l.orderedInsert (fun a b => lt b a = false) a)).run fun a b => some (lt a b) := by
  induction l generalizing next with
  | nil => rfl
  | cons b bs ih =>
    rw [insertThen, Program.run, Option.bind_some, List.orderedInsert_cons]
    cases lt b a with
    | true => exact ih fun out => next (b :: out)
    | false => rfl

theorem run_insertAllThen (lt : Fin n → Fin n → Bool) (l : List (Fin n))
    (next : List (Fin n) → Program n) :
    (insertAllThen l next).run (fun a b => some (lt a b)) =
      (next (l.insertionSort fun a b => lt b a = false)).run fun a b => some (lt a b) := by
  induction l generalizing next with
  | nil => rfl
  | cons a as ih =>
    rw [insertAllThen, ih, run_insertThen]
    rfl

/-- One way to do it. -/
def insertionSort : StdSort where
  program n := insertAllThen (List.finRange n) .done
  sorts n lt h := by
    have : Std.Total fun a b => lt b a = false := ⟨h.total⟩
    have : IsTrans (Fin n) fun a b => lt b a = false := ⟨h.trans⟩
    exact ⟨_, run_insertAllThen lt _ _, List.perm_insertionSort _ _,
      List.pairwise_insertionSort _ _⟩
  short n h := by
    rcases Nat.le_one_iff_eq_zero_or_eq_one.mp h with rfl | rfl
    · exact ⟨[], rfl⟩
    · exact ⟨[0], rfl⟩

end PowerScreen.Library.ComparisonSort
