import Mathlib.Data.List.TakeWhile

/-! # Scanning a text for a pattern

What the search for a regular expression finds is its match at the first place that has one;
an iterator over the matches goes on behind the end of the last one.
-/
namespace PowerScreen.Library

variable {α β : Type*}

/-- What a pattern captures at the head of a text, and how long its match is there. -/
abbrev Matcher (α β : Type*) := List α → Option (β × ℕ)

namespace Matcher

variable (m : Matcher α β)

/-- The match at the first place that has one. -/
def search : List α → Option (β × ℕ)
  | [] => m []
  | c :: t => (m (c :: t)).or (search t)

/-- All matches, from the first place behind the number of characters that are skipped. -/
def scan : ℕ → List α → List β
  | _, [] => []
  | skip + 1, _ :: t => scan skip t
  | 0, c :: t => match m (c :: t) with
    | some (b, n) => b :: scan (n - 1) t
    | none => scan 0 t

/-- No match begins further left. -/
def FirstAt (t u : List α) : Prop := ∀ v, v <:+ t → u.length < v.length → m v = none

variable {m}

theorem search_eq_some {t : List α} {r : β × ℕ} :
    m.search t = some r ↔ ∃ u, u <:+ t ∧ m.FirstAt t u ∧ m u = some r := by
  induction t with
  | nil =>
    rw [search]
    constructor
    · intro h
      refine ⟨[], List.suffix_rfl, fun v hv hlt => ?_, h⟩
      exact absurd hv.length_le (Nat.not_le_of_lt hlt)
    · rintro ⟨u, hu, -, h⟩
      rwa [List.suffix_nil.mp hu] at h
  | cons c t ih =>
    rw [search]
    cases hc : m (c :: t) with
    | some r' =>
      rw [Option.some_or]
      constructor
      · intro h
        refine ⟨c :: t, List.suffix_rfl, fun v hv hlt => absurd hv.length_le (by omega), ?_⟩
        rw [hc, h]
      · rintro ⟨u, hu, hfirst, h⟩
        rcases List.suffix_cons_iff.mp hu with rfl | hu
        · rw [← hc, h]
        · have hnone := hfirst (c :: t) List.suffix_rfl (Nat.lt_succ_of_le hu.length_le)
          rw [hnone] at hc
          cases hc
    | none =>
      rw [Option.none_or, ih]
      constructor
      · rintro ⟨u, hu, hfirst, h⟩
        refine ⟨u, hu.trans (List.suffix_cons c t), fun v hv hlt => ?_, h⟩
        rcases List.suffix_cons_iff.mp hv with rfl | hv
        · exact hc
        · exact hfirst v hv hlt
      · rintro ⟨u, hu, hfirst, h⟩
        rcases List.suffix_cons_iff.mp hu with rfl | hu
        · rw [hc] at h
          cases h
        · exact ⟨u, hu, fun v hv => hfirst v (hv.trans (List.suffix_cons c t)), h⟩

theorem scan_skip (k : ℕ) (t : List α) : m.scan k t = m.scan 0 (t.drop k) := by
  induction t generalizing k with
  | nil => simp [scan]
  | cons c t ih =>
    cases k with
    | zero => rfl
    | succ k => rw [scan, ih, List.drop_succ_cons]

/-- A pattern whose matches end where the line ends. -/
structure Linewise (m : Matcher α β) (isEnd : α → Bool) : Prop where
  nil : m [] = none
  append : ∀ {l}, (∀ c ∈ l, isEnd c = false) → ∀ {e}, isEnd e → ∀ t, m (l ++ e :: t) = m l
  length : ∀ {l}, (∀ c ∈ l, isEnd c = false) → ∀ {b n}, m l = some (b, n) → n = l.length

variable {isEnd : α → Bool}

/-- At most one match is found on a line. -/
theorem Linewise.scan_append (hm : m.Linewise isEnd) {l t : List α}
    (hl : ∀ c ∈ l, isEnd c = false) (ht : ∀ e ∈ t.head?, isEnd e) :
    m.scan 0 (l ++ t) = ((m.search l).map Prod.fst).toList ++ m.scan 0 t := by
  induction l with
  | nil => rw [search, hm.nil, List.nil_append, Option.map_none, Option.toList_none,
      List.nil_append]
  | cons c l ih =>
    have hwhole : m (c :: (l ++ t)) = m (c :: l) := by
      cases t with
      | nil => rw [List.append_nil]
      | cons e t => exact hm.append hl (ht e rfl) t
    rw [List.cons_append, scan, hwhole, search]
    cases hc : m (c :: l) with
    | none => exact ih fun d hd => hl d (List.mem_cons_of_mem c hd)
    | some r =>
      obtain ⟨b, n⟩ := r
      have hn : n - 1 = l.length := by rw [hm.length hl hc, List.length_cons, Nat.add_sub_cancel]
      rw [Option.some_or]
      dsimp only
      rw [scan_skip, hn, List.drop_left]
      rfl

theorem Linewise.scan_eq (hm : m.Linewise isEnd) (t : List α) :
    m.scan 0 t = (t.splitOnP isEnd).filterMap fun l => (m.search l).map Prod.fst := by
  induction h : t.length using Nat.strongRecOn generalizing t with
  | ind n ih =>
    have hl : ∀ c ∈ t.takeWhile fun c => !isEnd c, isEnd c = false := fun c hc => by
      simpa using List.mem_takeWhile_imp hc
    have hsplit := List.takeWhile_append_dropWhile (p := fun c => !isEnd c) (l := t)
    generalize t.takeWhile (fun c => !isEnd c) = l at hl hsplit
    cases hd : t.dropWhile fun c => !isEnd c with
    | nil =>
      rw [hd, List.append_nil] at hsplit
      subst hsplit
      have hscan := hm.scan_append hl (t := []) (by simp)
      rw [List.append_nil, scan, List.append_nil] at hscan
      rw [hscan, List.splitOnP_eq_singleton hl, List.filterMap_cons, List.filterMap_nil]
      cases (m.search l).map Prod.fst <;> rfl
    | cons e r =>
      have he : isEnd e := by
        have hne : t.dropWhile (fun c => !isEnd c) ≠ [] := hd ▸ List.cons_ne_nil e r
        have hhead := List.head_dropWhile_not (fun c => !isEnd c) hne
        simpa [hd] using hhead
      rw [hd] at hsplit
      subst hsplit
      have hr : m.scan 0 (e :: r) = m.scan 0 r := by
        rw [scan, ← List.nil_append (e :: r), hm.append (by simp) he r, hm.nil]
      rw [hm.scan_append hl (by simpa using he), hr, ih r.length (by simp at h; omega) r rfl,
        List.splitOnP_append_cons_of_forall_mem hl e he, List.filterMap_cons]
      cases (m.search l).map Prod.fst <;> rfl

end Matcher
end PowerScreen.Library
