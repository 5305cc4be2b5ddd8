import Mathlib.Tactic
import Mathlib.Data.List.Sort

/-! # Association lists sorted by key

An ordered map is the list of its entries in strictly increasing key order.
Lookup is the list lookup of the core library; insertion and erasure keep the
order, and a sorted list is determined by its lookups.
-/
namespace PowerScreen.Library.Assoc

variable {κ α : Type*} [LinearOrder κ]

abbrev Sorted (ms : List (κ × α)) : Prop := ms.Pairwise (fun a b => a.1 < b.1)

theorem sorted_of_keys {ms : List (κ × α)} (h : (ms.map Prod.fst).Pairwise (· < ·)) : Sorted ms :=
  List.pairwise_map.mp h

def insert (k : κ) (v : α) : List (κ × α) → List (κ × α)
  | [] => [(k, v)]
  | (l, w) :: ms =>
    if k < l then (k, v) :: (l, w) :: ms
    else if k = l then (k, v) :: ms
    else (l, w) :: insert k v ms

def erase (k : κ) (ms : List (κ × α)) : List (κ × α) := ms.filter (fun m => m.1 ≠ k)

theorem lookup_cons (k l : κ) (v : α) (ms : List (κ × α)) :
    ((l, v) :: ms).lookup k = if k = l then some v else ms.lookup k := by
  rw [List.lookup_cons]
  by_cases h : k = l
  · rw [if_pos h, h, beq_self_eq_true]
  · rw [if_neg h, beq_false_of_ne h]

@[simp] theorem lookup_insert_self (k : κ) (v : α) (ms : List (κ × α)) :
    (insert k v ms).lookup k = some v := by
  induction ms with
  | nil => simp [insert]
  | cons m ms ih =>
    obtain ⟨l, w⟩ := m
    rw [insert]
    split_ifs with hlt heq
    · simp
    · simp
    · rw [lookup_cons, if_neg heq, ih]

theorem lookup_insert_of_ne {j k : κ} (h : j ≠ k) (v : α) (ms : List (κ × α)) :
    (insert k v ms).lookup j = ms.lookup j := by
  induction ms with
  | nil => simp [insert, lookup_cons, h]
  | cons m ms ih =>
    obtain ⟨l, w⟩ := m
    rw [insert]
    split_ifs with hlt heq
    · rw [lookup_cons, if_neg h]
    · subst heq
      rw [lookup_cons, lookup_cons, if_neg h, if_neg h]
    · rw [lookup_cons, lookup_cons, ih]

theorem lookup_insert (j k : κ) (v : α) (ms : List (κ × α)) :
    (insert k v ms).lookup j = if j = k then some v else ms.lookup j := by
  split_ifs with h
  · rw [h, lookup_insert_self]
  · exact lookup_insert_of_ne h v ms

theorem lookup_erase (j k : κ) (ms : List (κ × α)) :
    (erase k ms).lookup j = if j = k then none else ms.lookup j := by
  induction ms with
  | nil => simp [erase]
  | cons m ms ih =>
    obtain ⟨l, w⟩ := m
    have hcons : erase k ((l, w) :: ms) = if l = k then erase k ms else (l, w) :: erase k ms := by
      by_cases hl : l = k <;> simp [erase, hl]
    rw [hcons]
    by_cases hl : l = k
    · rw [if_pos hl, ih, lookup_cons, hl]
      split_ifs <;> rfl
    · rw [if_neg hl, lookup_cons, lookup_cons, ih]
      split_ifs with hjl hjk <;> simp_all

theorem mem_of_lookup {k : κ} {v : α} {ms : List (κ × α)} (h : ms.lookup k = some v) :
    (k, v) ∈ ms := by
  induction ms with
  | nil => simp at h
  | cons m ms ih =>
    obtain ⟨l, w⟩ := m
    rw [lookup_cons] at h
    split_ifs at h with hk
    · cases h
      simp [hk]
    · exact List.mem_cons_of_mem _ (ih h)

theorem isSome_lookup_iff {k : κ} {ms : List (κ × α)} :
    (ms.lookup k).isSome ↔ k ∈ ms.map Prod.fst := by
  induction ms with
  | nil => simp
  | cons m ms ih =>
    obtain ⟨l, w⟩ := m
    rw [lookup_cons, List.map_cons, List.mem_cons, ← ih]
    split_ifs with h <;> simp [h]

theorem lookup_eq_none_iff {k : κ} {ms : List (κ × α)} :
    ms.lookup k = none ↔ k ∉ ms.map Prod.fst := by
  rw [← isSome_lookup_iff, Bool.not_eq_true, Option.isSome_eq_false_iff, Option.isNone_iff_eq_none]

theorem lookup_of_nodup {k : κ} {v : α} {ms : List (κ × α)} (hms : (ms.map Prod.fst).Nodup)
    (h : (k, v) ∈ ms) : ms.lookup k = some v := by
  induction ms with
  | nil => cases h
  | cons m ms ih =>
    obtain ⟨l, w⟩ := m
    rw [List.map_cons, List.nodup_cons] at hms
    rw [lookup_cons]
    rcases List.mem_cons.mp h with heq | hmem
    · cases heq
      rw [if_pos rfl]
    · rw [if_neg, ih hms.2 hmem]
      rintro rfl
      exact hms.1 (List.mem_map.mpr ⟨_, hmem, rfl⟩)

theorem Sorted.nodup {ms : List (κ × α)} (hs : Sorted ms) : (ms.map Prod.fst).Nodup :=
  List.pairwise_map.mpr (hs.imp fun h => ne_of_lt h)

theorem lookup_of_mem {k : κ} {v : α} {ms : List (κ × α)} (hs : Sorted ms) (h : (k, v) ∈ ms) :
    ms.lookup k = some v := lookup_of_nodup hs.nodup h

theorem mem_insert {k : κ} {v : α} {ms : List (κ × α)} {m : κ × α} (h : m ∈ insert k v ms) :
    m = (k, v) ∨ m ∈ ms := by
  induction ms with
  | nil => exact Or.inl (List.mem_singleton.mp h)
  | cons n ms ih =>
    obtain ⟨l, w⟩ := n
    rw [insert] at h
    split_ifs at h with hlt heq
    · exact List.mem_cons.mp h
    · rcases List.mem_cons.mp h with h | h
      · exact Or.inl h
      · exact Or.inr (List.mem_cons_of_mem _ h)
    · rcases List.mem_cons.mp h with h | h
      · exact Or.inr (h ▸ List.mem_cons_self)
      · exact (ih h).imp_right (List.mem_cons_of_mem _)

theorem Sorted.insert {ms : List (κ × α)} (hs : Sorted ms) (k : κ) (v : α) :
    Sorted (insert k v ms) := by
  induction ms with
  | nil => exact List.pairwise_singleton _ _
  | cons m ms ih =>
    obtain ⟨l, w⟩ := m
    have hl := (List.pairwise_cons.mp hs).1
    have hms : Sorted ms := (List.pairwise_cons.mp hs).2
    rw [Assoc.insert]
    split_ifs with hlt heq
    · refine List.pairwise_cons.mpr ⟨fun m hm => ?_, hs⟩
      rcases List.mem_cons.mp hm with rfl | hm
      · exact hlt
      · exact hlt.trans (hl m hm)
    · exact List.pairwise_cons.mpr ⟨fun m hm => heq ▸ hl m hm, hms⟩
    · refine List.pairwise_cons.mpr ⟨fun m hm => ?_, ih hms⟩
      rcases mem_insert hm with rfl | hm
      · exact lt_of_le_of_ne (not_lt.mp hlt) (Ne.symm heq)
      · exact hl m hm

theorem Sorted.erase {ms : List (κ × α)} (hs : Sorted ms) (k : κ) : Sorted (erase k ms) :=
  hs.filter _

/-- Two sorted lists with the same lookups are the same list. -/
theorem ext_lookup {ms ns : List (κ × α)} (hm : Sorted ms) (hn : Sorted ns)
    (h : ∀ k, ms.lookup k = ns.lookup k) : ms = ns := by
  have hnodup {l : List (κ × α)} (hl : Sorted l) : l.Nodup :=
    List.Pairwise.imp (fun {a b} hlt heq => by subst heq; exact lt_irrefl _ hlt) hl
  have hperm : ms.Perm ns := by
    refine (List.perm_ext_iff_of_nodup (hnodup hm) (hnodup hn)).mpr ?_
    rintro ⟨k, v⟩
    exact ⟨fun hk => mem_of_lookup (h k ▸ lookup_of_mem hm hk),
      fun hk => mem_of_lookup ((h k).symm ▸ lookup_of_mem hn hk)⟩
  exact hperm.eq_of_pairwise (fun a b _ _ hab hba => absurd (hab.trans hba) (lt_irrefl _)) hm hn

theorem insert_of_lookup {k : κ} {v : α} {ms : List (κ × α)} (hs : Sorted ms)
    (h : ms.lookup k = some v) : insert k v ms = ms := by
  refine ext_lookup (hs.insert k v) hs fun j => ?_
  rw [lookup_insert]
  split_ifs with hj
  · rw [hj, h]
  · rfl

/-- The entries one after the other, so that the last one under a key stays. -/
theorem insert_eq_self_iff {k : κ} {v : α} {ms : List (κ × α)} (hs : Sorted ms) :
    insert k v ms = ms ↔ ms.lookup k = some v :=
  ⟨fun h => h ▸ lookup_insert_self k v ms, insert_of_lookup hs⟩

theorem insert_insert (k : κ) (v w : α) (ms : List (κ × α)) :
    insert k v (insert k w ms) = insert k v ms := by
  induction ms with
  | nil => simp [insert]
  | cons m ms ih =>
    obtain ⟨l, u⟩ := m
    rw [Assoc.insert]
    split_ifs with hlt heq
    · simp [insert, hlt]
    · simp [insert, heq]
    · simp [insert, hlt, heq, ih]

theorem insert_comm {j k : κ} (h : j ≠ k) (v w : α) {ms : List (κ × α)} (hs : Sorted ms) :
    insert j v (insert k w ms) = insert k w (insert j v ms) := by
  refine ext_lookup ((hs.insert k w).insert j v) ((hs.insert j v).insert k w) fun l => ?_
  rw [lookup_insert, lookup_insert, lookup_insert, lookup_insert]
  split_ifs with hj hk
  · exact absurd (hj.symm.trans hk) h
  all_goals rfl

def insertAll (es ms : List (κ × α)) : List (κ × α) := es.foldl (fun m e => insert e.1 e.2 m) ms

theorem Sorted.insertAll {ms : List (κ × α)} (hs : Sorted ms) (es : List (κ × α)) :
    Sorted (insertAll es ms) := by
  induction es generalizing ms with
  | nil => exact hs
  | cons e es ih => exact ih (hs.insert e.1 e.2)

/-- An entry that is already there stays. -/
def insertNew (k : κ) (v : α) (ms : List (κ × α)) : List (κ × α) :=
  if (ms.lookup k).isSome then ms else insert k v ms

theorem Sorted.insertNew {ms : List (κ × α)} (hs : Sorted ms) (k : κ) (v : α) :
    Sorted (insertNew k v ms) := by
  unfold Assoc.insertNew
  split_ifs
  · exact hs
  · exact hs.insert k v

theorem mem_insertNew {k : κ} {v : α} {ms : List (κ × α)} {m : κ × α} (h : m ∈ insertNew k v ms) :
    m = (k, v) ∨ m ∈ ms := by
  rw [insertNew] at h
  split_ifs at h
  · exact .inr h
  · exact mem_insert h

theorem lookup_insertNew (j k : κ) (v : α) (ms : List (κ × α)) :
    (insertNew k v ms).lookup j = (ms.lookup j).or (if j = k then some v else none) := by
  rw [insertNew]
  split_ifs with hk hj hj
  · obtain ⟨w, hw⟩ := Option.isSome_iff_exists.mp hk
    rw [hj, hw, Option.some_or]
  · rw [Option.or_none]
  · rw [Option.not_isSome_iff_eq_none] at hk
    rw [hj, lookup_insert_self, hk, Option.none_or]
  · rw [lookup_insert_of_ne hj, Option.or_none]

/-- Of several entries under one key the first is kept. -/
theorem lookup_foldl_insertNew (es ms : List (κ × α)) (k : κ) :
    (es.foldl (fun m e => insertNew e.1 e.2 m) ms).lookup k = (ms.lookup k).or (es.lookup k) := by
  induction es generalizing ms with
  | nil => rw [List.foldl_nil, List.lookup_nil, Option.or_none]
  | cons e es ih =>
    rw [List.foldl_cons, ih, lookup_insertNew, Option.or_assoc, lookup_cons]
    split_ifs <;> rfl

/-- The first element that yields an entry under the key decides. -/
theorem lookup_filterMap_eq_some {β : Type*} {f : β → Option (κ × α)} {l : List β} {k : κ}
    {v : α} : (l.filterMap f).lookup k = some v ↔ ∃ l₁ b l₂, l = l₁ ++ b :: l₂ ∧
      f b = some (k, v) ∧ ∀ c ∈ l₁, ∀ w, f c ≠ some (k, w) := by
  induction l with
  | nil => simp
  | cons b l ih =>
    have hskip (hb : ∀ w, f b ≠ some (k, w)) : (∃ l₁ c l₂, l = l₁ ++ c :: l₂ ∧
        f c = some (k, v) ∧ ∀ c ∈ l₁, ∀ w, f c ≠ some (k, w)) ↔ ∃ l₁ c l₂, b :: l = l₁ ++ c :: l₂ ∧
          f c = some (k, v) ∧ ∀ c ∈ l₁, ∀ w, f c ≠ some (k, w) := by
      constructor
      · rintro ⟨l₁, c, l₂, rfl, hc, h⟩
        refine ⟨b :: l₁, c, l₂, rfl, hc, fun d hd => ?_⟩
        rcases List.mem_cons.mp hd with rfl | hd
        · exact hb
        · exact h d hd
      · rintro ⟨l₁, c, l₂, heq, hc, h⟩
        cases l₁ with
        | nil =>
          obtain ⟨rfl, -⟩ := List.cons.inj heq
          exact absurd hc (hb v)
        | cons d l₁ =>
          obtain ⟨rfl, rfl⟩ := List.cons.inj heq
          exact ⟨l₁, c, l₂, rfl, hc, fun e he => h e (List.mem_cons_of_mem _ he)⟩
    cases hb : f b with
    | none =>
      rw [List.filterMap_cons_none hb, ih]
      exact hskip fun w hw => by
        rw [hb] at hw
        cases hw
    | some e =>
      obtain ⟨j, w⟩ := e
      rw [List.filterMap_cons_some hb, lookup_cons]
      split_ifs with hj
      · subst hj
        constructor
        · intro h
          cases h
          exact ⟨[], b, l, rfl, hb, by simp⟩
        · rintro ⟨l₁, c, l₂, heq, hc, h⟩
          cases l₁ with
          | nil =>
            obtain ⟨rfl, -⟩ := List.cons.inj heq
            rw [hb] at hc
            cases hc
            rfl
          | cons d l₁ =>
            obtain ⟨rfl, -⟩ := List.cons.inj heq
            exact absurd hb (h b List.mem_cons_self w)
      · rw [ih]
        exact hskip fun w' hw => by
          rw [hb] at hw
          cases hw
          exact hj rfl

theorem lookup_append (k : κ) (ms ns : List (κ × α)) :
    (ms ++ ns).lookup k = (ms.lookup k).or (ns.lookup k) := by
  induction ms with
  | nil => rfl
  | cons m ms ih =>
    obtain ⟨l, w⟩ := m
    rw [List.cons_append, lookup_cons, lookup_cons, ih]
    split_ifs <;> rfl

theorem lookup_insertAll (es ms : List (κ × α)) (k : κ) :
    (insertAll es ms).lookup k = (es.reverse.lookup k).or (ms.lookup k) := by
  induction es generalizing ms with
  | nil => rfl
  | cons e es ih =>
    have hcons : insertAll (e :: es) ms = insertAll es (insert e.1 e.2 ms) := rfl
    rw [hcons, ih, lookup_insert, List.reverse_cons, lookup_append, Option.or_assoc, lookup_cons]
    split_ifs <;> rfl

end PowerScreen.Library.Assoc
