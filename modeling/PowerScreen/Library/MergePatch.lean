import PowerScreen.Library.Json

/-! # JSON merge patch

The merge of RFC 7396: an object is merged entry by entry, a null entry removes
its key, and any other patch replaces the target. A value that is meant to
replace the target is stored faithfully exactly when it mentions every key the
target holds, at every level, and contains no null entry.
-/
namespace PowerScreen.Library.Json

mutual
def mergePatch (t : Json) : Json → Json
  | .obj ps => .obj (mergeMembers t.members ps)
  | p => p
def mergeMembers (ts : List (String × Json)) : List (String × Json) → List (String × Json)
  | [] => ts
  | (k, v) :: ps =>
    if v = .null then mergeMembers (Assoc.erase k ts) ps
    else mergeMembers (Assoc.insert k (mergePatch ((ts.lookup k).getD .null) v) ts) ps
end

mutual
/-- The patch mentions every key of the target, at every level, and erases none. -/
def covers (t : Json) : Json → Bool
  | .obj ps => t.members.all (fun m => (ps.lookup m.1).isSome) && coversMembers t ps
  | _ => true
def coversMembers (t : Json) : List (String × Json) → Bool
  | [] => true
  | (k, v) :: ps => v ≠ .null && covers (t.get k) v && coversMembers t ps
end

theorem mergePatch_of_not_object (t : Json) {p : Json} (h : p.isObject = false) :
    mergePatch t p = p := by
  cases p with
  | obj ps => simp [isObject] at h
  | _ => simp [mergePatch]

/-- Entry by entry: what the patch does not mention stays, null removes, the rest is merged. -/
theorem lookup_mergeMembers {ps : List (String × Json)} (hp : Assoc.Sorted ps)
    (ts : List (String × Json)) (j : String) :
    (mergeMembers ts ps).lookup j = match ps.lookup j with
      | none => ts.lookup j
      | some v => if v = .null then none else some (mergePatch ((ts.lookup j).getD .null) v) := by
  induction ps generalizing ts with
  | nil => simp [mergeMembers]
  | cons m ps ih =>
    obtain ⟨k, v⟩ := m
    have hps := (List.pairwise_cons.mp hp).2
    have hk : ps.lookup k = none := by
      refine Assoc.lookup_eq_none_iff.mpr fun hmem => ?_
      obtain ⟨m, hm, hmk⟩ := List.mem_map.mp hmem
      exact absurd hmk ((List.pairwise_cons.mp hp).1 m hm).ne'
    rw [mergeMembers, Assoc.lookup_cons]
    by_cases hj : j = k
    · subst hj
      rw [if_pos rfl]
      split_ifs with hv
      · rw [ih hps, hk, Assoc.lookup_erase, if_pos rfl]
        simp [hv]
      · rw [ih hps, hk, Assoc.lookup_insert_self]
        simp [hv]
    · rw [if_neg hj]
      split_ifs with hv
      · rw [ih hps, Assoc.lookup_erase, if_neg hj]
      · rw [ih hps, Assoc.lookup_insert_of_ne hj]

theorem get?_mergePatch {ps : List (String × Json)} (hp : Assoc.Sorted ps) (t : Json)
    (k : String) : (mergePatch t (.obj ps)).get? k = match ps.lookup k with
      | none => t.get? k
      | some v => if v = .null then none else some (mergePatch (t.get k) v) := by
  rw [mergePatch, get?, members, lookup_mergeMembers hp]
  rfl

mutual
theorem sorted_mergePatch : ∀ {t p : Json}, t.Sorted → p.Sorted → (mergePatch t p).Sorted
  | t, .obj ps, ht, hp => by
    rw [mergePatch]
    refine sorted_mergeMembers ?_ (sorted_obj_iff.mp hp).2
    exact sorted_obj_iff.mpr ⟨ht.members, fun m hm => ht.of_mem hm⟩
  | _, .null, _, h | _, .bool _, _, h | _, .num _, _, h | _, .str _, _, h | _, .arr _, _, h => by
    simpa [mergePatch] using h
theorem sorted_mergeMembers : ∀ {ts ps : List (String × Json)}, (Json.obj ts).Sorted →
    (∀ m ∈ ps, m.2.Sorted) → (Json.obj (mergeMembers ts ps)).Sorted
  | ts, [], ht, _ => by simpa [mergeMembers] using ht
  | ts, (k, v) :: ps, ht, hp => by
    rw [mergeMembers]
    have hv : v.Sorted := hp _ List.mem_cons_self
    have hps : ∀ m ∈ ps, m.2.Sorted := fun m hm => hp m (List.mem_cons_of_mem _ hm)
    split_ifs with hnull
    · exact sorted_mergeMembers (sorted_erase ht k) hps
    · refine sorted_mergeMembers (sorted_insert ht k ?_) hps
      exact sorted_mergePatch (ht.get k) hv
end

theorem coversMembers_iff {t : Json} {ps : List (String × Json)} :
    coversMembers t ps ↔ ∀ m ∈ ps, m.2 ≠ .null ∧ covers (t.get m.1) m.2 := by
  induction ps with
  | nil => simp [coversMembers]
  | cons m ps ih =>
    obtain ⟨k, v⟩ := m
    simp [coversMembers, ih, and_assoc]

theorem covers_obj_iff {t : Json} {ps : List (String × Json)} :
    covers t (.obj ps) ↔ (∀ m ∈ t.members, (ps.lookup m.1).isSome) ∧
      ∀ m ∈ ps, m.2 ≠ .null ∧ covers (t.get m.1) m.2 := by
  rw [covers, Bool.and_eq_true, coversMembers_iff, List.all_eq_true]

/-- One level of the characterization, given it for the entries. -/
theorem mergePatch_obj_eq_self_iff {t : Json} {ps : List (String × Json)} (ht : t.Sorted)
    (hp : (Json.obj ps).Sorted)
    (ih : ∀ m ∈ ps, mergePatch (t.get m.1) m.2 = m.2 ↔ covers (t.get m.1) m.2) :
    mergePatch t (.obj ps) = .obj ps ↔ covers t (.obj ps) := by
  have hps := (sorted_obj_iff.mp hp).1
  rw [covers_obj_iff]
  constructor
  · intro h
    have hget (k : String) : (mergePatch t (.obj ps)).get? k = ps.lookup k := by rw [h]; rfl
    refine ⟨fun m hm => ?_, fun m hm => ?_⟩
    · by_contra hnone
      rw [Bool.not_eq_true, Option.isSome_eq_false_iff, Option.isNone_iff_eq_none] at hnone
      have hk := hget m.1
      rw [get?_mergePatch hps, hnone] at hk
      have hmem : t.get? m.1 = some m.2 := Assoc.lookup_of_mem ht.members hm
      simp [hmem] at hk
    · have hlook : ps.lookup m.1 = some m.2 := Assoc.lookup_of_mem hps hm
      have hk := hget m.1
      rw [get?_mergePatch hps, hlook] at hk
      by_cases hv : m.2 = .null
      · simp [hv] at hk
      · simp only [hv, if_false, Option.some.injEq] at hk
        exact ⟨hv, (ih m hm).mp hk⟩
  · rintro ⟨hkeys, hmem⟩
    have hsort : (mergePatch t (.obj ps)).Sorted := sorted_mergePatch ht hp
    rw [mergePatch] at hsort ⊢
    refine congrArg Json.obj (Assoc.ext_lookup (sorted_obj_iff.mp hsort).1 hps fun k => ?_)
    rw [lookup_mergeMembers hps]
    cases hlook : ps.lookup k with
    | none =>
      refine Assoc.lookup_eq_none_iff.mpr fun hk => ?_
      obtain ⟨m, hm, rfl⟩ := List.mem_map.mp hk
      simpa [hlook] using hkeys m hm
    | some v =>
      obtain ⟨hv, hc⟩ := hmem _ (Assoc.mem_of_lookup hlook)
      have hmerge := (ih _ (Assoc.mem_of_lookup hlook)).mpr hc
      simp only [hv, if_false]
      exact congrArg some hmerge

mutual
/-- A patch replaces its target exactly when it covers it. -/
theorem mergePatch_eq_self_iff : ∀ {t p : Json}, t.Sorted → p.Sorted →
    (mergePatch t p = p ↔ covers t p)
  | t, .obj ps, ht, hp =>
    mergePatch_obj_eq_self_iff ht hp (mergePatch_entry_iff ht (sorted_obj_iff.mp hp).2)
  | _, .null, _, _ | _, .bool _, _, _ | _, .num _, _, _ | _, .str _, _, _ | _, .arr _, _, _ => by
    simp [mergePatch, covers]
theorem mergePatch_entry_iff : ∀ {t : Json} {ps : List (String × Json)}, t.Sorted →
    (∀ m ∈ ps, m.2.Sorted) →
    ∀ m ∈ ps, (mergePatch (t.get m.1) m.2 = m.2 ↔ covers (t.get m.1) m.2)
  | _, [], _, _, _, hm => absurd hm List.not_mem_nil
  | t, (k, v) :: ps, ht, hp, m, hm => by
    rcases List.mem_cons.mp hm with rfl | hm
    · exact mergePatch_eq_self_iff (ht.get k) (hp _ List.mem_cons_self)
    · exact mergePatch_entry_iff ht (fun m hm => hp m (List.mem_cons_of_mem _ hm)) m hm
end

end PowerScreen.Library.Json
