import Mathlib.Computability.Language
import PowerScreen.Library.Scan

/-! # Leftmost longest matches

A matcher that finds the longest word of a language at the head of a text finds the leftmost one
of these in a search. The languages here are groups of letters of one kind with a separator
between any two of them.
-/
namespace PowerScreen.Library

variable {α β : Type*}

/-- A word of the language at the first place that has one, and no longer one there. -/
def LeftmostLongest (L : Language α) (t r : List α) : Prop :=
  ∃ u, u <:+ t ∧ r <+: u ∧ r ∈ L ∧ (∀ w, w <+: u → w ∈ L → w <+: r) ∧
    ∀ v, v <:+ t → u.length < v.length → ∀ w, w <+: v → w ∉ L

namespace Matcher

/-- What the matcher finds is the longest word of the language, if there is one. -/
structure Longest (m : Matcher α (List α)) (L : Language α) : Prop where
  none_iff : ∀ u, m u = none ↔ ∀ w, w <+: u → w ∉ L
  longest : ∀ u r n, m u = some (r, n) → r <+: u ∧ r ∈ L ∧ ∀ w, w <+: u → w ∈ L → w <+: r

variable {m : Matcher α β}

theorem search_eq_none {t : List α} : m.search t = none ↔ ∀ u, u <:+ t → m u = none := by
  induction t with
  | nil => simp [search]
  | cons c t ih =>
    rw [search, Option.or_eq_none_iff, ih]
    constructor
    · rintro ⟨hc, ht⟩ u hu
      rcases List.suffix_cons_iff.mp hu with rfl | hu
      · exact hc
      · exact ht u hu
    · exact fun h => ⟨h _ List.suffix_rfl, fun u hu => h u (hu.trans (List.suffix_cons c t))⟩

/-- Places without a match may be skipped. -/
theorem search_of_skip {t u : List α} (hu : u <:+ t) (h : m.FirstAt t u) :
    m.search t = m.search u := by
  obtain ⟨s, rfl⟩ := hu
  induction s with
  | nil => rfl
  | cons c s ih =>
    have hlt : u.length < (c :: s ++ u).length := by
      simp only [List.cons_append, List.length_cons, List.length_append]
      omega
    have hnone : m (c :: (s ++ u)) = none := h _ List.suffix_rfl hlt
    rw [List.cons_append, search, hnone, Option.none_or]
    exact ih fun v hv hlen => h v (hv.trans (List.suffix_cons c _)) hlen

theorem Longest.search_eq_some {m : Matcher α (List α)} {L : Language α} (hm : m.Longest L)
    {t r : List α} {n : ℕ} (h : m.search t = some (r, n)) : LeftmostLongest L t r := by
  obtain ⟨u, hu, hfirst, hr⟩ := Matcher.search_eq_some.mp h
  obtain ⟨hpre, hmem, hlongest⟩ := hm.longest u r n hr
  exact ⟨u, hu, hpre, hmem, hlongest, fun v hv hlt => (hm.none_iff v).mp (hfirst v hv hlt)⟩

theorem Longest.search_eq_none {m : Matcher α (List α)} {L : Language α} (hm : m.Longest L)
    {t : List α} : m.search t = none ↔ ∀ w, w <:+: t → w ∉ L := by
  rw [Matcher.search_eq_none]
  constructor
  · intro h w hw
    obtain ⟨u, hwu, hut⟩ := List.infix_iff_prefix_suffix.mp hw
    exact (hm.none_iff u).mp (h u hut) w hwu
  · intro h u hu
    exact (hm.none_iff u).mpr fun w hw => h w (hw.isInfix.trans hu.isInfix)

end Matcher

namespace Groups

variable (p : α → Bool) (sep : α)

/-- One letter or more of a kind. -/
def group : Language α := {w | w ≠ [] ∧ ∀ c ∈ w, p c}

/-- A group and more of them, each behind a separator. -/
def groups (n : ℕ) : Language α := group p * ({[sep]} * group p) ^ n

variable {p sep}

theorem mem_group {w : List α} : w ∈ group p ↔ w ≠ [] ∧ ∀ c ∈ w, p c := Iff.rfl

theorem mem_groups_zero {w : List α} : w ∈ groups p sep 0 ↔ w ≠ [] ∧ ∀ c ∈ w, p c := by
  rw [groups, pow_zero, mul_one, mem_group]

theorem mem_groups_succ {n : ℕ} {w : List α} : w ∈ groups p sep (n + 1) ↔
    ∃ a b, (a ≠ [] ∧ ∀ c ∈ a, p c) ∧ b ∈ groups p sep n ∧ w = a ++ sep :: b := by
  have hsucc : groups p sep (n + 1) = group p * ({[sep]} * groups p sep n) := by
    rw [groups, groups, pow_succ', mul_assoc {[sep]}]
  rw [hsucc, Language.mem_mul]
  constructor
  · rintro ⟨a, ha, c, hc, rfl⟩
    obtain ⟨s, hs, b, hb, rfl⟩ := Language.mem_mul.mp hc
    rw [Set.mem_singleton_iff.mp hs]
    exact ⟨a, b, ha, hb, rfl⟩
  · rintro ⟨a, b, ha, hb, rfl⟩
    exact ⟨a, ha, sep :: b, Language.mem_mul.mpr ⟨[sep], Set.mem_singleton _, b, hb, rfl⟩, rfl⟩

/-- A word begins with a letter. -/
theorem head_of_mem {n : ℕ} {w : List α} (h : w ∈ groups p sep n) : ∃ c u, w = c :: u ∧ p c := by
  have hhead {a : List α} (b : List α) (ha : a ≠ [] ∧ ∀ c ∈ a, p c) :
      ∃ c u, a ++ b = c :: u ∧ p c := by
    obtain ⟨c, u, rfl⟩ := List.exists_cons_of_ne_nil ha.1
    exact ⟨c, u ++ b, rfl, ha.2 c List.mem_cons_self⟩
  cases n with
  | zero =>
    have hw := hhead [] (mem_groups_zero.mp h)
    rwa [List.append_nil] at hw
  | succ n =>
    obtain ⟨a, b, ha, -, rfl⟩ := mem_groups_succ.mp h
    exact hhead _ ha

section Prefixes

variable {g rest : List α} (hg : ∀ c ∈ g, p c) (hrest : ∀ c u, rest = c :: u → p c = false)
include hg hrest

/-- The letters at the head of a text go as far as they can. -/
theorem prefix_of_forall {a u : List α} (ha : ∀ c ∈ a, p c) (h : a ++ u = g ++ rest) : a <+: g := by
  have htake : (g ++ rest).takeWhile p = g := by
    rw [List.takeWhile_append_of_pos hg]
    cases rest with
    | nil => exact List.append_nil g
    | cons c rest' => rw [List.takeWhile_cons_of_neg (by simp [hrest c rest' rfl]), List.append_nil]
  rw [← htake, ← h, List.takeWhile_append_of_pos ha]
  exact List.prefix_append _ _

theorem prefix_of_mem_zero {w : List α} (hw : w <+: g ++ rest) (hmem : w ∈ groups p sep 0) :
    w <+: g := by
  obtain ⟨u, hu⟩ := hw
  exact prefix_of_forall hg hrest (mem_groups_zero.mp hmem).2 hu

/-- Behind the first group comes the separator, and more groups behind that. -/
theorem split_of_mem_succ (hsep : p sep = false) {n : ℕ} {w : List α} (hw : w <+: g ++ rest)
    (hmem : w ∈ groups p sep (n + 1)) : ∃ rest' b, rest = sep :: rest' ∧ b <+: rest' ∧
      b ∈ groups p sep n ∧ w = g ++ sep :: b := by
  obtain ⟨a, b, ⟨-, ha⟩, hb, rfl⟩ := mem_groups_succ.mp hmem
  obtain ⟨u, hu⟩ := hw
  rw [List.append_assoc, List.cons_append] at hu
  obtain ⟨g', rfl⟩ := prefix_of_forall hg hrest ha hu
  rw [List.append_assoc, List.append_cancel_left_eq] at hu
  cases g' with
  | nil => exact ⟨b ++ u, b, hu.symm, List.prefix_append b u, hb, by rw [List.append_nil]⟩
  | cons c g' =>
    obtain ⟨rfl, -⟩ := List.cons.inj hu
    have hletter := hg sep (List.mem_append_right a List.mem_cons_self)
    rw [hsep] at hletter
    cases hletter

end Prefixes

end Groups

end PowerScreen.Library
