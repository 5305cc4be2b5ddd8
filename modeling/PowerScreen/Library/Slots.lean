import Mathlib.Data.Fintype.Card
import Mathlib.Data.List.FinRange
import PowerScreen.Library.Assoc

/-! # Slots given to keys in two passes

Some keys have a slot of their own. The first pass gives these away, the second lets every
other key take the first slot that is still free.
-/
namespace PowerScreen.Library.Slots

variable {κ : Type*} [LinearOrder κ] {n : ℕ}

structure Assignment (κ : Type*) (n : ℕ) where
  slotOf : List (κ × Fin n)
  used : Fin n → Bool

namespace Assignment

def empty : Assignment κ n := ⟨[], fun _ => false⟩

def take (a : Assignment κ n) (k : κ) (s : Fin n) : Assignment κ n :=
  ⟨Assoc.insert k s a.slotOf, Function.update a.used s true⟩

def reserve (fixed : κ → Option (Fin n)) (a : Assignment κ n) (k : κ) : Assignment κ n :=
  match fixed k with
  | some s => a.take k s
  | none => a

def firstFree (a : Assignment κ n) : Option (Fin n) := (List.finRange n).find? fun s => !a.used s

def place (a : Assignment κ n) (k : κ) : Assignment κ n :=
  if (a.slotOf.lookup k).isSome then a
  else match a.firstFree with
    | some s => a.take k s
    | none => a

/-- The slots that are used are those of the keys, and no two keys share one. -/
structure Valid (a : Assignment κ n) : Prop where
  used : ∀ s, a.used s ↔ ∃ k, a.slotOf.lookup k = some s
  injective : ∀ k l s, a.slotOf.lookup k = some s → a.slotOf.lookup l = some s → k = l

theorem lookup_take (a : Assignment κ n) (k l : κ) (s : Fin n) :
    (a.take k s).slotOf.lookup l = if l = k then some s else a.slotOf.lookup l :=
  Assoc.lookup_insert l k s a.slotOf

theorem used_take (a : Assignment κ n) (k : κ) (s t : Fin n) :
    (a.take k s).used t ↔ t = s ∨ a.used t := by
  have hupdate : (a.take k s).used t = if t = s then true else a.used t :=
    Function.update_apply a.used s true t
  rw [hupdate]
  split_ifs with h <;> simp [h]

theorem valid_empty : (empty : Assignment κ n).Valid := by
  constructor
  · simp [empty]
  · simp [empty]

/-- A key without a slot may take a free one. -/
theorem Valid.take {a : Assignment κ n} (h : a.Valid) {k : κ} {s : Fin n}
    (hk : a.slotOf.lookup k = none) (hs : a.used s = false) : (a.take k s).Valid := by
  have hfree : ∀ l, a.slotOf.lookup l ≠ some s := fun l hl => by
    have hused : a.used s := (h.used s).mpr ⟨l, hl⟩
    exact Bool.noConfusion (hs.symm.trans hused)
  constructor
  · intro t
    rw [used_take, h.used]
    constructor
    · rintro (rfl | ⟨l, hl⟩)
      · exact ⟨k, by rw [lookup_take, if_pos rfl]⟩
      · refine ⟨l, ?_⟩
        have hne : l ≠ k := fun he => by rw [he, hk] at hl; cases hl
        rw [lookup_take, if_neg hne, hl]
    · rintro ⟨l, hl⟩
      rw [lookup_take] at hl
      split_ifs at hl with hlk
      · exact Or.inl (Option.some.inj hl).symm
      · exact Or.inr ⟨l, hl⟩
  · intro l m t hl hm
    rw [lookup_take] at hl hm
    split_ifs at hl with hlk <;> split_ifs at hm with hmk
    · exact hlk.trans hmk.symm
    · exact absurd (hm.trans hl.symm) (hfree m)
    · exact absurd (hl.trans hm.symm) (hfree l)
    · exact h.injective l m t hl hm

omit [LinearOrder κ] in
theorem firstFree_eq_none_iff {a : Assignment κ n} : a.firstFree = none ↔ ∀ s, a.used s := by
  simp [firstFree]

omit [LinearOrder κ] in
theorem used_of_firstFree {a : Assignment κ n} {s : Fin n} (h : a.firstFree = some s) :
    a.used s = false := by
  simpa using List.find?_some h

/-- What the second pass does for one key. -/
theorem place_cases (a : Assignment κ n) (k : κ) :
    (a.place k = a ∧ ((a.slotOf.lookup k).isSome ∨ ∀ s, a.used s)) ∨
      ∃ s, a.slotOf.lookup k = none ∧ a.used s = false ∧ a.place k = a.take k s := by
  unfold place
  by_cases hk : (a.slotOf.lookup k).isSome
  · exact Or.inl ⟨if_pos hk, Or.inl hk⟩
  · rw [if_neg hk]
    cases hfree : a.firstFree with
    | none => exact Or.inl ⟨rfl, Or.inr (firstFree_eq_none_iff.mp hfree)⟩
    | some s =>
      have hnone : a.slotOf.lookup k = none := Option.not_isSome_iff_eq_none.mp hk
      exact Or.inr ⟨s, hnone, used_of_firstFree hfree, rfl⟩

theorem Valid.place {a : Assignment κ n} (h : a.Valid) (k : κ) : (a.place k).Valid := by
  rcases place_cases a k with ⟨heq, -⟩ | ⟨s, hk, hs, heq⟩
  · rwa [heq]
  · rw [heq]
    exact h.take hk hs

theorem lookup_place_of_ne (a : Assignment κ n) {k l : κ} (h : l ≠ k) :
    (a.place k).slotOf.lookup l = a.slotOf.lookup l := by
  rcases place_cases a k with ⟨heq, -⟩ | ⟨s, -, -, heq⟩
  · rw [heq]
  · rw [heq, lookup_take, if_neg h]

theorem lookup_place_of_some (a : Assignment κ n) {k l : κ} {s : Fin n}
    (h : a.slotOf.lookup l = some s) : (a.place k).slotOf.lookup l = some s := by
  rcases place_cases a k with ⟨heq, -⟩ | ⟨t, hk, -, heq⟩
  · rw [heq, h]
  · have hne : l ≠ k := fun he => by rw [he, hk] at h; cases h
    rw [heq, lookup_take, if_neg hne, h]

/-- A key goes without a slot only when all are used. -/
theorem lookup_place_isSome_iff (a : Assignment κ n) {k : κ} (h : a.slotOf.lookup k = none) :
    ((a.place k).slotOf.lookup k).isSome ↔ ∃ s, a.used s = false := by
  rcases place_cases a k with ⟨heq, hk | hall⟩ | ⟨s, -, hs, heq⟩
  · rw [h] at hk
    cases hk
  · rw [heq, h]
    simp [hall]
  · rw [heq, lookup_take, if_pos rfl]
    exact ⟨fun _ => ⟨s, hs⟩, fun _ => rfl⟩

theorem lookup_reserve (fixed : κ → Option (Fin n)) (a : Assignment κ n) (k l : κ) :
    (a.reserve fixed k).slotOf.lookup l =
      if l = k then (fixed k).or (a.slotOf.lookup l) else a.slotOf.lookup l := by
  unfold reserve
  cases hk : fixed k with
  | none => simp
  | some s => rw [lookup_take]; rfl

end Assignment

open Assignment

def assign (fixed : κ → Option (Fin n)) (keys : List κ) : Assignment κ n :=
  keys.foldl place (keys.foldl (reserve fixed) empty)

/-- The slot of a key in the end. -/
def slot (fixed : κ → Option (Fin n)) (keys : List κ) (k : κ) : Option (Fin n) :=
  (assign fixed keys).slotOf.lookup k

variable {fixed : κ → Option (Fin n)} {keys : List κ}

theorem lookup_foldl_reserve (ks : List κ) (a : Assignment κ n) (k : κ) :
    (ks.foldl (reserve fixed) a).slotOf.lookup k =
      if k ∈ ks then (fixed k).or (a.slotOf.lookup k) else a.slotOf.lookup k := by
  induction ks generalizing a with
  | nil => simp
  | cons l ks ih =>
    rw [List.foldl_cons, ih, lookup_reserve]
    by_cases hkl : k = l
    · subst hkl
      cases fixed k <;> simp
    · simp [hkl]

/-- The first pass gives nothing away twice when no two keys are to have the same slot. -/
theorem valid_foldl_reserve {ks : List κ} (hnodup : ks.Nodup)
    (hfixed : ∀ k ∈ ks, ∀ l ∈ ks, ∀ s, fixed k = some s → fixed l = some s → k = l)
    {a : Assignment κ n} (ha : a.Valid)
    (hnew : ∀ k ∈ ks, a.slotOf.lookup k = none ∧ ∀ s, fixed k = some s → a.used s = false) :
    (ks.foldl (reserve fixed) a).Valid := by
  induction ks generalizing a with
  | nil => exact ha
  | cons l ks ih =>
    obtain ⟨hl, hks⟩ := List.nodup_cons.mp hnodup
    have hfixed' : ∀ k ∈ ks, ∀ l ∈ ks, ∀ s, fixed k = some s → fixed l = some s → k = l :=
      fun k hk l hl => hfixed k (List.mem_cons_of_mem _ hk) l (List.mem_cons_of_mem _ hl)
    rw [List.foldl_cons]
    cases hs : fixed l with
    | none =>
      have heq : a.reserve fixed l = a := by simp [reserve, hs]
      rw [heq]
      exact ih hks hfixed' ha fun k hk => hnew k (List.mem_cons_of_mem _ hk)
    | some s =>
      have heq : a.reserve fixed l = a.take l s := by simp [reserve, hs]
      obtain ⟨hnone, hfree⟩ := hnew l List.mem_cons_self
      rw [heq]
      refine ih hks hfixed' (ha.take hnone (hfree s hs)) fun k hk => ?_
      have hkl : k ≠ l := fun he => hl (he ▸ hk)
      obtain ⟨hknone, hkfree⟩ := hnew k (List.mem_cons_of_mem _ hk)
      refine ⟨by rw [lookup_take, if_neg hkl, hknone], fun t ht => ?_⟩
      have hts : t ≠ s := fun he =>
        hkl (hfixed k (List.mem_cons_of_mem _ hk) l List.mem_cons_self t ht (he ▸ hs))
      exact (Function.update_of_ne hts true a.used).trans (hkfree t ht)

theorem lookup_foldl_place_of_not_mem {ks : List κ} {k : κ} (h : k ∉ ks) (a : Assignment κ n) :
    (ks.foldl place a).slotOf.lookup k = a.slotOf.lookup k := by
  induction ks generalizing a with
  | nil => rfl
  | cons l ks ih =>
    rw [List.mem_cons, not_or] at h
    rw [List.foldl_cons, ih h.2, lookup_place_of_ne a h.1]

theorem lookup_foldl_place_of_some {k : κ} {s : Fin n} (ks : List κ) {a : Assignment κ n}
    (h : a.slotOf.lookup k = some s) : (ks.foldl place a).slotOf.lookup k = some s := by
  induction ks generalizing a with
  | nil => exact h
  | cons l ks ih => exact ih (lookup_place_of_some a h)

theorem valid_foldl_place (ks : List κ) {a : Assignment κ n} (h : a.Valid) :
    (ks.foldl place a).Valid := by
  induction ks generalizing a with
  | nil => exact h
  | cons l ks ih => exact ih (h.place l)

section Distinct

variable (hnodup : keys.Nodup)
  (hfixed : ∀ k ∈ keys, ∀ l ∈ keys, ∀ s, fixed k = some s → fixed l = some s → k = l)
include hnodup hfixed

theorem valid_reserved : (keys.foldl (reserve fixed) empty).Valid :=
  valid_foldl_reserve hnodup hfixed valid_empty fun _ _ => ⟨rfl, fun _ _ => rfl⟩

theorem valid_assign : (assign fixed keys).Valid :=
  valid_foldl_place keys (valid_reserved hnodup hfixed)

theorem slot_injective {k l : κ} {s : Fin n} (hk : slot fixed keys k = some s)
    (hl : slot fixed keys l = some s) : k = l :=
  (valid_assign hnodup hfixed).injective k l s hk hl

omit hnodup hfixed in
theorem slot_of_fixed {k : κ} {s : Fin n} (hk : k ∈ keys) (hs : fixed k = some s) :
    slot fixed keys k = some s := by
  refine lookup_foldl_place_of_some keys ?_
  rw [lookup_foldl_reserve, if_pos hk, hs]
  rfl

/-- A key that is not served with its own slot finds all of them used. -/
theorem slot_isSome_iff {k : κ} {pre post : List κ} (hkeys : keys = pre ++ k :: post)
    (hk : fixed k = none) :
    (slot fixed keys k).isSome ↔ ∃ s, ∀ l ∈ keys, (fixed l).isSome ∨ l ∈ pre →
      slot fixed keys l ≠ some s := by
  set a := pre.foldl place (keys.foldl (reserve fixed) empty) with ha
  have hvalid : a.Valid := valid_foldl_place pre (valid_reserved hnodup hfixed)
  have hassign : assign fixed keys = post.foldl place (a.place k) := by
    rw [assign, ha, hkeys, List.foldl_append, List.foldl_cons]
  have hnd : (pre ++ k :: post).Nodup := hkeys ▸ hnodup
  obtain ⟨-, hkpost, hdisj⟩ := List.nodup_append.mp hnd
  have hknotpre : k ∉ pre := fun hmem => hdisj k hmem k List.mem_cons_self rfl
  have hknotpost : k ∉ post := (List.nodup_cons.mp hkpost).1
  have hlookup : ∀ l, a.slotOf.lookup l = none → l ∉ k :: post → slot fixed keys l = none :=
    fun l hl hnot => by
      rw [List.mem_cons, not_or] at hnot
      rw [slot, hassign, lookup_foldl_place_of_not_mem hnot.2, lookup_place_of_ne a hnot.1, hl]
  have hsome : ∀ l s, a.slotOf.lookup l = some s → slot fixed keys l = some s := fun l s hl => by
    rw [slot, hassign]
    exact lookup_foldl_place_of_some post (lookup_place_of_some a hl)
  have hreserved : ∀ l, (keys.foldl (reserve fixed) empty).slotOf.lookup l =
      if l ∈ keys then fixed l else none := fun l => by
    rw [lookup_foldl_reserve]
    simp [empty]
  have hknone : a.slotOf.lookup k = none := by
    rw [ha, lookup_foldl_place_of_not_mem hknotpre, hreserved, hk, ite_self]
  have hslot : slot fixed keys k = (a.place k).slotOf.lookup k := by
    rw [slot, hassign, lookup_foldl_place_of_not_mem hknotpost]
  rw [hslot, lookup_place_isSome_iff a hknone]
  refine exists_congr fun s => ?_
  have hused : a.used s = false ↔ ∀ l, a.slotOf.lookup l ≠ some s := by
    rw [← not_exists, ← hvalid.used, Bool.not_eq_true]
  rw [hused]
  constructor
  · intro h l hl hlpre heq
    refine h l ?_
    cases hal : a.slotOf.lookup l with
    | some t => rw [← hsome l t hal, heq]
    | none =>
      rcases hlpre with hlfixed | hlpre
      · obtain ⟨t, ht⟩ := Option.isSome_iff_exists.mp hlfixed
        have hres : (keys.foldl (reserve fixed) empty).slotOf.lookup l = some t := by
          rw [hreserved, if_pos hl, ht]
        rw [ha, lookup_foldl_place_of_some pre hres] at hal
        cases hal
      · have hnot : l ∉ k :: post := fun hmem => hdisj l hlpre l hmem rfl
        rw [hlookup l hal hnot] at heq
        cases heq
  · intro h l hl
    have hmem : l ∈ keys ∧ ((fixed l).isSome ∨ l ∈ pre) := by
      by_cases hpre : l ∈ pre
      · exact ⟨hkeys ▸ List.mem_append_left _ hpre, Or.inr hpre⟩
      · rw [ha, lookup_foldl_place_of_not_mem hpre, hreserved] at hl
        split_ifs at hl with hmem
        exact ⟨hmem, Or.inl (hl ▸ rfl)⟩
    exact h l hmem.1 hmem.2 (hsome l s hl)

theorem slot_of_unserved {k : κ} (hk : k ∈ keys) (hnone : slot fixed keys k = none) (s : Fin n) :
    ∃ l ∈ keys, slot fixed keys l = some s := by
  obtain ⟨pre, post, hkeys⟩ := List.append_of_mem hk
  have hfix : fixed k = none := by
    by_contra hne
    obtain ⟨t, ht⟩ := Option.ne_none_iff_exists'.mp hne
    rw [slot_of_fixed hk ht] at hnone
    cases hnone
  have hno : ¬ (slot fixed keys k).isSome := by rw [hnone]; exact Bool.false_ne_true
  rw [slot_isSome_iff hnodup hfixed hkeys hfix] at hno
  push Not at hno
  obtain ⟨l, hl, -, hs⟩ := hno s
  exact ⟨l, hl, hs⟩

/-- As many keys get a slot as there are, or all of them. -/
theorem length_filter_slot :
    (keys.filter fun k => (slot fixed keys k).isSome).length = min n keys.length := by
  set served := keys.filter fun k => (slot fixed keys k).isSome with hserved
  have hslots : (served.filterMap (slot fixed keys)).length = served.length := by
    rw [List.length_filterMap_eq_countP, List.countP_eq_length]
    intro k hk
    exact (List.mem_filter.mp hk).2
  have hinj : (served.filterMap (slot fixed keys)).Nodup :=
    (hnodup.filter _).filterMap fun k l s hk hl => slot_injective hnodup hfixed hk hl
  have hle : served.length ≤ n := by
    have hcard := hinj.length_le_card
    rwa [hslots, Fintype.card_fin] at hcard
  refine le_antisymm (le_min hle (List.length_filter_le _ _)) ?_
  by_cases hall : ∀ k ∈ keys, (slot fixed keys k).isSome
  · have heq : served = keys := List.filter_eq_self.mpr hall
    rw [heq]
    exact min_le_right _ _
  · push Not at hall
    obtain ⟨k, hk, hnone⟩ := hall
    have hnone : slot fixed keys k = none := Option.not_isSome_iff_eq_none.mp hnone
    have hsub : Finset.univ ⊆ (served.filterMap (slot fixed keys)).toFinset := fun s _ => by
      obtain ⟨l, hl, hs⟩ := slot_of_unserved hnodup hfixed hk hnone s
      refine List.mem_toFinset.mpr (List.mem_filterMap.mpr ⟨l, ?_, hs⟩)
      exact List.mem_filter.mpr ⟨hl, by rw [hs]; rfl⟩
    have hcard := (Finset.card_le_card hsub).trans (List.toFinset_card_le _)
    rw [Finset.card_fin, hslots] at hcard
    exact (min_le_left _ _).trans hcard

end Distinct

end PowerScreen.Library.Slots
