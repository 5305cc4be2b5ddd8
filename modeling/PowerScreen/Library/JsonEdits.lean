import PowerScreen.Library.JsonPointer

/-! # Several edits in one place of a document

Edits of different keys of one object, each through a pointer from the root. Together they
leave a document as it is only if each of them does: what one of them adds or changes no
other takes back.
-/
namespace PowerScreen.Library.Json

/-- An access that looks, then what is done to the value; what replaces a null is stored
through an access of its own, which differs where a pointer appends to an array. -/
def storeAt (f : Json → Json) (ts : List String) (j : Json) : Option Json :=
  if getAt ts j = some .null then (modifyAt id ts j).bind (modifyAt f ts) else modifyAt f ts j

section Elements

theorem length_setElem (xs : List Json) (i : ℕ) (v : Json) :
    (setElem xs i v).length = max xs.length (i + 1) := by
  rw [setElem, List.length_set, List.length_append, List.length_replicate]
  omega

theorem setElem_setElem (xs : List Json) (i : ℕ) (v w : Json) :
    setElem (setElem xs i w) i v = setElem xs i v := by
  have hlen := length_setElem xs i w
  have hzero : i + 1 - (setElem xs i w).length = 0 := by omega
  rw [setElem, hzero, List.replicate_zero, List.append_nil, setElem, List.set_set, setElem]

theorem setElem_eq_self_iff {xs : List Json} {i : ℕ} {v : Json} :
    setElem xs i v = xs ↔ xs[i]? = some v := by
  constructor
  · intro h
    have hlen := length_setElem xs i v
    rw [h] at hlen
    have hi : i < xs.length := by omega
    have hget := getD_setElem xs i v
    rw [h, List.getD_eq_getElem?_getD, List.getElem?_eq_getElem hi, Option.getD_some] at hget
    rw [List.getElem?_eq_getElem hi, hget]
  · intro h
    obtain ⟨hi, rfl⟩ := List.getElem?_eq_some_iff.mp h
    have hzero : i + 1 - xs.length = 0 := by omega
    rw [setElem, hzero, List.replicate_zero, List.append_nil, List.set_getElem_self]

end Elements

section Store

variable {f : Json → Json} {t : String} {ts : List String} {j v : Json}

theorem modifyAt_cons_arr (f : Json → Json) (t : String) (ts : List String) (xs : List Json) :
    modifyAt f (t :: ts) (.arr xs) = (arrayIndex xs.length t).bind fun i =>
      (modifyAt f ts (xs.getD i .null)).map fun v => .arr (setElem xs i v) := rfl

theorem getAt_cons_arr (t : String) (ts : List String) (xs : List Json) :
    getAt (t :: ts) (.arr xs) =
      (arrayIndex xs.length t).bind fun i => getAt ts (xs.getD i .null) := rfl

theorem getAt_null (h : getAt ts .null = some v) : v = .null := by
  induction ts with
  | nil =>
    cases h
    rfl
  | cons t ts ih =>
    rw [getAt, asContainer] at h
    split_ifs at h
    · obtain ⟨i, -, hi⟩ := Option.bind_eq_some_iff.mp h
      exact ih hi
    · exact ih h

theorem asContainer_of_ne_null (hj : j ≠ .null) (t : String) : asContainer t j = j := by
  cases j with
  | null => exact absurd rfl hj
  | _ => rfl

theorem storeAt_nil (f : Json → Json) (j : Json) : storeAt f [] j = some (f j) := by
  rw [storeAt]
  split_ifs <;> rfl

/-- A null on the way is as good as the container it turns into. -/
theorem storeAt_asContainer (f : Json → Json) (t : String) (ts : List String) (j : Json) :
    storeAt f (t :: ts) j = storeAt f (t :: ts) (asContainer t j) := by
  have hidem : asContainer t (asContainer t j) = asContainer t j := by
    cases j with
    | null =>
      rw [asContainer]
      split_ifs <;> rfl
    | _ => rfl
  rw [storeAt, storeAt, getAt, getAt, modifyAt, modifyAt, modifyAt, modifyAt, hidem]

theorem storeAt_cons_obj (f : Json → Json) (t : String) (ts : List String)
    (ms : List (String × Json)) : storeAt f (t :: ts) (.obj ms) =
      (storeAt f ts ((ms.lookup t).getD .null)).map fun v => .obj (Assoc.insert t v ms) := by
  rw [storeAt, storeAt, getAt_cons_obj, modifyAt_cons_obj, modifyAt_cons_obj]
  split_ifs with hnull
  · cases modifyAt id ts ((ms.lookup t).getD .null) with
    | none => rfl
    | some w =>
      rw [Option.map_some, Option.bind_some, Option.bind_some, modifyAt_cons_obj,
        Assoc.lookup_insert_self, Option.getD_some]
      simp only [Assoc.insert_insert]
  · rfl

theorem storeAt_cons_arr (ht : t ≠ "-") (f : Json → Json) (ts : List String) (xs : List Json) :
    storeAt f (t :: ts) (.arr xs) = (arrayIndex xs.length t).bind fun i =>
      (storeAt f ts (xs.getD i .null)).map fun v => .arr (setElem xs i v) := by
  rw [storeAt, getAt_cons_arr, modifyAt_cons_arr, modifyAt_cons_arr]
  cases hi : arrayIndex xs.length t with
  | none => rfl
  | some i =>
    rw [Option.bind_some, Option.bind_some, Option.bind_some, Option.bind_some, storeAt]
    split_ifs with hnull
    · cases modifyAt id ts (xs.getD i .null) with
      | none => rfl
      | some w =>
        rw [Option.map_some, Option.bind_some, Option.bind_some, modifyAt_cons_arr,
          arrayIndex_of_ne ht _ xs.length, hi, Option.bind_some, getD_setElem]
        simp only [setElem_setElem]
    · rfl

theorem arrayIndex_of_isKey (ht : IsKey t) (n : ℕ) : arrayIndex n t = none := by
  rw [arrayIndex, if_neg ht.2, if_pos (by simp [ht.1])]

theorem storeAt_arr_isKey (ht : IsKey t) (f : Json → Json) (ts : List String) (xs : List Json) :
    storeAt f (t :: ts) (.arr xs) = none := by
  rw [storeAt_cons_arr ht.2, arrayIndex_of_isKey ht, Option.bind_none]

/-- Appending makes an array longer. -/
theorem length_of_modifyAt {xs : List Json} (h : modifyAt f ("-" :: ts) (.arr xs) = some j) :
    ∃ ys, j = .arr ys ∧ xs.length < ys.length := by
  rw [modifyAt_cons_arr] at h
  obtain ⟨i, hi, h⟩ := Option.bind_eq_some_iff.mp h
  obtain ⟨v, -, rfl⟩ := Option.map_eq_some_iff.mp h
  have hlen : xs.length = i := Option.some.inj hi
  refine ⟨_, rfl, ?_⟩
  rw [length_setElem]
  omega

theorem length_of_storeAt {xs : List Json} (h : storeAt f ("-" :: ts) (.arr xs) = some j) :
    ∃ ys, j = .arr ys ∧ xs.length < ys.length := by
  rw [storeAt] at h
  split_ifs at h with hnull
  · obtain ⟨w, hw, h⟩ := Option.bind_eq_some_iff.mp h
    obtain ⟨ys, rfl, hys⟩ := length_of_modifyAt hw
    obtain ⟨zs, hzs, hlt⟩ := length_of_modifyAt h
    exact ⟨zs, hzs, hys.trans hlt⟩
  · exact length_of_modifyAt h

theorem storeAt_cons_ne_null (h : storeAt f (t :: ts) j = some v) : v ≠ .null := by
  rw [storeAt] at h
  split_ifs at h with hnull
  · obtain ⟨w, -, h⟩ := Option.bind_eq_some_iff.mp h
    exact modifyAt_cons_ne_null h
  · exact modifyAt_cons_ne_null h

theorem Sorted.storeAt (hf : ∀ v, v.Sorted → (f v).Sorted) (hj : j.Sorted)
    (h : storeAt f ts j = some v) : v.Sorted := by
  rw [Json.storeAt] at h
  split_ifs at h with hnull
  · obtain ⟨w, hw, h⟩ := Option.bind_eq_some_iff.mp h
    exact (hj.modifyAt (f := id) (fun _ hv => hv) hw).modifyAt hf h
  · exact hj.modifyAt hf h

/-- An edit that fills leaves a document as it is where it finds a value that it keeps. -/
theorem storeAt_eq_self_iff (hf : f .null ≠ .null) (hj : j.Sorted) :
    storeAt f ts j = some j ↔ ∃ v, getAt ts j = some v ∧ v ≠ .null ∧ f v = v := by
  induction ts generalizing j with
  | nil =>
    rw [storeAt_nil]
    constructor
    · intro h
      have hfj : f j = j := Option.some.inj h
      exact ⟨j, rfl, fun hnull => hf (by rw [hnull] at hfj; exact hfj), hfj⟩
    · rintro ⟨v, hv, -, hfv⟩
      cases hv
      exact congrArg some hfv
  | cons t ts ih =>
    cases j with
    | null =>
      refine iff_of_false (fun h => storeAt_cons_ne_null h rfl) ?_
      rintro ⟨v, hv, hne, -⟩
      exact hne (getAt_null hv)
    | obj ms =>
      rw [storeAt_cons_obj, getAt_cons_obj]
      cases hlook : ms.lookup t with
      | none =>
        refine iff_of_false (fun h => ?_) ?_
        · obtain ⟨v, -, hobj⟩ := Option.map_eq_some_iff.mp h
          have hsome := (Assoc.insert_eq_self_iff hj.members).mp (Json.obj.inj hobj)
          rw [Json.members, hlook] at hsome
          cases hsome
        · rintro ⟨v, hv, hne, -⟩
          exact hne (getAt_null hv)
      | some w =>
        rw [Option.getD_some, ← ih (hj.of_mem (Assoc.mem_of_lookup hlook))]
        constructor
        · intro h
          obtain ⟨v, hv, hobj⟩ := Option.map_eq_some_iff.mp h
          have hsome := (Assoc.insert_eq_self_iff hj.members).mp (Json.obj.inj hobj)
          rw [Json.members, hlook, Option.some_inj] at hsome
          rw [hv, hsome]
        · intro h
          have hms : Assoc.insert t w ms = ms := Assoc.insert_of_lookup hj.members hlook
          rw [h, Option.map_some]
          exact congrArg (some ∘ Json.obj) hms
    | arr xs =>
      by_cases ht : t = "-"
      · subst ht
        refine iff_of_false (fun h => ?_) ?_
        · obtain ⟨ys, hys, hlt⟩ := length_of_storeAt h
          rw [Json.arr.inj hys] at hlt
          exact lt_irrefl _ hlt
        · rintro ⟨v, hv, hne, -⟩
          rw [getAt_cons_arr] at hv
          obtain ⟨i, hi, hv⟩ := Option.bind_eq_some_iff.mp hv
          have hlen : xs.length = i := Option.some.inj hi
          rw [List.getD_eq_getElem?_getD, List.getElem?_eq_none hlen.le] at hv
          exact hne (getAt_null hv)
      · rw [storeAt_cons_arr ht, getAt_cons_arr]
        cases hi : arrayIndex xs.length t with
        | none =>
          refine iff_of_false (fun h => by cases h) ?_
          rintro ⟨v, hv, -⟩
          cases hv
        | some i =>
          rw [Option.bind_some, Option.bind_some, ← ih (hj.elem i)]
          constructor
          · intro h
            obtain ⟨v, hv, harr⟩ := Option.map_eq_some_iff.mp h
            have hlook := setElem_eq_self_iff.mp (Json.arr.inj harr)
            rw [hv, List.getD_eq_getElem?_getD, hlook, Option.getD_some]
          · intro h
            have hlook : xs[i]? = some (xs.getD i .null) := by
              cases hx : xs[i]? with
              | some x => rw [List.getD_eq_getElem?_getD, hx, Option.getD_some]
              | none =>
                rw [List.getD_eq_getElem?_getD, hx, Option.getD_none] at h
                cases ts with
                | nil =>
                  rw [storeAt_nil] at h
                  exact absurd (Option.some.inj h) hf
                | cons t ts => exact absurd rfl (storeAt_cons_ne_null h)
            rw [h, Option.map_some, setElem_eq_self_iff.mpr hlook]
    | _ =>
      refine iff_of_false (fun h => by cases h) ?_
      rintro ⟨v, hv, -⟩
      cases hv

/-- Edits behind a token leave the other entries alone, and an object stays one. -/
theorem modifyAt_cons_frame (h : modifyAt f (t :: ts) j = some v) :
    (∀ k ≠ t, v.get? k = j.get? k) ∧ v.isObject = (asContainer t j).isObject := by
  have hmembers : (asContainer t j).isObject → (asContainer t j).members = j.members := by
    intro hobj
    cases j with
    | null =>
      rw [asContainer] at hobj ⊢
      split_ifs at hobj ⊢
      · cases hobj
      · rfl
    | _ => rfl
  rw [modifyAt] at h
  split at h
  · rename_i ms heq
    obtain ⟨w, -, rfl⟩ := Option.map_eq_some_iff.mp h
    rw [heq] at hmembers ⊢
    refine ⟨fun k hk => ?_, rfl⟩
    rw [Json.get?, Json.get?, ← hmembers rfl]
    exact Assoc.lookup_insert_of_ne hk w ms
  · rename_i xs heq
    obtain ⟨i, -, hi⟩ := Option.bind_eq_some_iff.mp h
    obtain ⟨w, -, rfl⟩ := Option.map_eq_some_iff.mp hi
    rw [heq]
    refine ⟨fun k _ => ?_, rfl⟩
    cases j with
    | obj ms => cases heq
    | _ => rfl
  · cases h

theorem storeAt_cons_frame (h : storeAt f (t :: ts) j = some v) :
    (∀ k ≠ t, v.get? k = j.get? k) ∧ v.isObject = (asContainer t j).isObject := by
  rw [storeAt] at h
  split_ifs at h with hnull
  · obtain ⟨w, hw, h⟩ := Option.bind_eq_some_iff.mp h
    obtain ⟨hget, hobj⟩ := modifyAt_cons_frame hw
    obtain ⟨hget', hobj'⟩ := modifyAt_cons_frame h
    rw [asContainer_of_ne_null (modifyAt_cons_ne_null hw)] at hobj'
    exact ⟨fun k hk => (hget' k hk).trans (hget k hk), hobj'.trans hobj⟩
  · exact modifyAt_cons_frame h

end Store

/-- A key of an object with what is done to its value. -/
abbrev KeyEdit := String × (Json → Json)

def updateAll (es : List KeyEdit) (ms : List (String × Json)) : List (String × Json) :=
  es.foldl (fun ms e => Assoc.insert e.1 (e.2 ((Json.obj ms).get e.1)) ms) ms

/-- The edits one after the other at the place that the tokens lead to. -/
def editAt (us : List String) (es : List KeyEdit) (j : Json) : Option Json :=
  es.foldlM (fun j e => storeAt e.2 (us ++ [e.1]) j) j

theorem editAt_cons (us : List String) (e : KeyEdit) (es : List KeyEdit) (j : Json) :
    editAt us (e :: es) j = (storeAt e.2 (us ++ [e.1]) j).bind (editAt us es) := rfl

section Update

variable {es : List KeyEdit} {ms : List (String × Json)}

theorem updateAll_cons (e : KeyEdit) (es : List KeyEdit) (ms : List (String × Json)) :
    updateAll (e :: es) ms =
      updateAll es (Assoc.insert e.1 (e.2 ((Json.obj ms).get e.1)) ms) := rfl

theorem lookup_updateAll (hnodup : (es.map Prod.fst).Nodup) (k : String) :
    (updateAll es ms).lookup k =
      ((es.lookup k).map fun f => f ((Json.obj ms).get k)).or (ms.lookup k) := by
  induction es generalizing ms with
  | nil => rfl
  | cons e es ih =>
    obtain ⟨l, f⟩ := e
    rw [List.map_cons, List.nodup_cons] at hnodup
    rw [updateAll_cons, ih hnodup.2, Assoc.lookup_cons, Assoc.lookup_insert]
    split_ifs with hk
    · subst hk
      rw [Assoc.lookup_eq_none_iff.mpr hnodup.1]
      rfl
    · rw [Json.get, Json.get?, Json.members, Assoc.lookup_insert_of_ne hk]
      rfl

theorem sorted_updateAll (hms : Assoc.Sorted ms) : Assoc.Sorted (updateAll es ms) := by
  induction es generalizing ms with
  | nil => exact hms
  | cons e es ih => exact ih (hms.insert _ _)

theorem updateAll_idem (hnodup : (es.map Prod.fst).Nodup) (hes : ∀ e ∈ es, ∀ v, e.2 (e.2 v) = e.2 v)
    (hms : Assoc.Sorted ms) : updateAll es (updateAll es ms) = updateAll es ms := by
  refine Assoc.ext_lookup (sorted_updateAll (sorted_updateAll hms)) (sorted_updateAll hms)
    fun k => ?_
  rw [lookup_updateAll hnodup, Json.get, Json.get?, Json.members, lookup_updateAll hnodup]
  cases hk : es.lookup k with
  | none => rfl
  | some f =>
    rw [Option.map_some, Option.some_or]
    exact congrArg some (hes _ (Assoc.mem_of_lookup hk) _)

/-- Also when a key that is not edited is erased each time. -/
theorem erase_updateAll_idem (hnodup : (es.map Prod.fst).Nodup)
    (hes : ∀ e ∈ es, ∀ v, e.2 (e.2 v) = e.2 v) {k : String} (hk : k ∉ es.map Prod.fst)
    (hms : Assoc.Sorted ms) :
    Assoc.erase k (updateAll es (Assoc.erase k (updateAll es ms))) =
      Assoc.erase k (updateAll es ms) := by
  have hcomm (ns : List (String × Json)) (hns : Assoc.Sorted ns) :
      updateAll es (Assoc.erase k ns) = Assoc.erase k (updateAll es ns) := by
    refine Assoc.ext_lookup (sorted_updateAll (hns.erase k)) ((sorted_updateAll hns).erase k)
      fun j => ?_
    rw [lookup_updateAll hnodup, Assoc.lookup_erase, Assoc.lookup_erase, lookup_updateAll hnodup,
      Json.get, Json.get?, Json.members, Assoc.lookup_erase]
    split_ifs with hj
    · rw [hj, Assoc.lookup_eq_none_iff.mpr hk]
      rfl
    · rfl
  have herase (ns : List (String × Json)) : Assoc.erase k (Assoc.erase k ns) = Assoc.erase k ns := by
    rw [Assoc.erase, Assoc.erase, List.filter_filter]
    simp only [Bool.and_self]
  rw [hcomm _ (sorted_updateAll hms), updateAll_idem hnodup hes hms, herase]

theorem editAt_obj (es : List KeyEdit) (ms : List (String × Json)) :
    editAt [] es (.obj ms) = some (.obj (updateAll es ms)) := by
  induction es generalizing ms with
  | nil => rfl
  | cons e es ih =>
    rw [editAt_cons, List.nil_append, storeAt_cons_obj, storeAt_nil, Option.map_some,
      Option.bind_some, ih]
    rfl

end Update

/-- Through an object the edits go to one of its values. -/
theorem editAt_cons_obj (t : String) (us : List String) (e : KeyEdit) (es : List KeyEdit)
    (ms : List (String × Json)) : editAt (t :: us) (e :: es) (.obj ms) =
      (editAt us (e :: es) ((ms.lookup t).getD .null)).map fun v =>
        .obj (Assoc.insert t v ms) := by
  induction es generalizing e ms with
  | nil =>
    rw [editAt_cons, editAt_cons, List.cons_append, storeAt_cons_obj]
    cases storeAt e.2 (us ++ [e.1]) ((ms.lookup t).getD .null) <;> rfl
  | cons e' es ih =>
    rw [editAt_cons, editAt_cons, List.cons_append, storeAt_cons_obj]
    cases storeAt e.2 (us ++ [e.1]) ((ms.lookup t).getD .null) with
    | none => rfl
    | some v =>
      rw [Option.map_some, Option.bind_some, Option.bind_some, ih, Assoc.lookup_insert_self,
        Option.getD_some]
      simp only [Assoc.insert_insert]

/-- Through an array the edits go to one of its elements, unless each appends one. -/
theorem editAt_cons_arr {t : String} (ht : t ≠ "-") (us : List String) (e : KeyEdit)
    (es : List KeyEdit) (xs : List Json) : editAt (t :: us) (e :: es) (.arr xs) =
      (arrayIndex xs.length t).bind fun i =>
        (editAt us (e :: es) (xs.getD i .null)).map fun v => .arr (setElem xs i v) := by
  cases hi : arrayIndex xs.length t with
  | none =>
    rw [editAt_cons, List.cons_append, storeAt_cons_arr ht, hi]
    rfl
  | some i =>
    rw [Option.bind_some]
    induction es generalizing e xs with
    | nil =>
      rw [editAt_cons, editAt_cons, List.cons_append, storeAt_cons_arr ht, hi, Option.bind_some]
      cases storeAt e.2 (us ++ [e.1]) (xs.getD i .null) <;> rfl
    | cons e' es ih =>
      rw [editAt_cons, editAt_cons, List.cons_append, storeAt_cons_arr ht, hi, Option.bind_some]
      cases storeAt e.2 (us ++ [e.1]) (xs.getD i .null) with
      | none => rfl
      | some v =>
        rw [Option.map_some, Option.bind_some, Option.bind_some,
          ih e' (setElem xs i v) (by rw [arrayIndex_of_ne ht _ xs.length, hi]), getD_setElem]
        simp only [setElem_setElem]

theorem length_of_editAt {us : List String} {e : KeyEdit} {es : List KeyEdit} {xs : List Json}
    {j : Json} (h : editAt ("-" :: us) (e :: es) (.arr xs) = some j) :
    ∃ ys, j = .arr ys ∧ xs.length < ys.length := by
  induction es generalizing e xs with
  | nil =>
    obtain ⟨w, hw, h⟩ := Option.bind_eq_some_iff.mp (editAt_cons _ _ _ _ ▸ h)
    cases h
    exact length_of_storeAt hw
  | cons e' es ih =>
    obtain ⟨w, hw, h⟩ := Option.bind_eq_some_iff.mp (editAt_cons _ _ _ _ ▸ h)
    obtain ⟨ys, rfl, hys⟩ := length_of_storeAt hw
    obtain ⟨zs, hzs, hlt⟩ := ih h
    exact ⟨zs, hzs, hys.trans hlt⟩

theorem editAt_ne_null {us : List String} {e : KeyEdit} {es : List KeyEdit} {j v : Json}
    (h : editAt us (e :: es) j = some v) : v ≠ .null := by
  induction es generalizing e j with
  | nil =>
    rw [editAt_cons] at h
    obtain ⟨w, hw, h⟩ := Option.bind_eq_some_iff.mp h
    cases h
    cases us with
    | nil => exact storeAt_cons_ne_null hw
    | cons t us => exact storeAt_cons_ne_null hw
  | cons e' es ih =>
    rw [editAt_cons] at h
    obtain ⟨w, -, h⟩ := Option.bind_eq_some_iff.mp h
    exact ih h

/-- Together edits of different keys leave a document as it is only if each of them does. -/
theorem editAt_eq_self_iff {us : List String} {es : List KeyEdit}
    (hnodup : (es.map Prod.fst).Nodup) (hkeys : ∀ e ∈ es, IsKey e.1) {j : Json} (hj : j.Sorted) :
    editAt us es j = some j ↔ ∀ e ∈ es, storeAt e.2 (us ++ [e.1]) j = some j := by
  constructor
  · intro h
    cases es with
    | nil => simp
    | cons e es =>
      induction us generalizing j with
      | nil =>
        cases j with
        | null => exact absurd rfl (editAt_ne_null h)
        | obj ms =>
          rw [editAt_obj, Option.some_inj, Json.obj.injEq] at h
          intro e' he'
          have hlook : (updateAll (e :: es) ms).lookup e'.1 = _ := lookup_updateAll hnodup e'.1
          rw [h, Assoc.lookup_of_nodup hnodup he', Option.map_some, Option.some_or] at hlook
          have hsame : e'.2 ((ms.lookup e'.1).getD .null) = e'.2 ((Json.obj ms).get e'.1) := rfl
          have hms : Assoc.insert e'.1 (e'.2 ((Json.obj ms).get e'.1)) ms = ms :=
            Assoc.insert_of_lookup hj.members hlook
          rw [List.nil_append, storeAt_cons_obj, storeAt_nil, Option.map_some, hsame, hms]
        | arr xs =>
          rw [editAt_cons, List.nil_append,
            storeAt_arr_isKey (hkeys e List.mem_cons_self)] at h
          cases h
        | _ => cases h
      | cons t us ih =>
        cases j with
        | null => exact absurd rfl (editAt_ne_null h)
        | obj ms =>
          rw [editAt_cons_obj] at h
          obtain ⟨v, hv, hobj⟩ := Option.map_eq_some_iff.mp h
          have hlook := (Assoc.insert_eq_self_iff hj.members).mp (Json.obj.inj hobj)
          have hlook' : ms.lookup t = some v := hlook
          rw [hlook', Option.getD_some] at hv
          intro e' he'
          have hsame := ih (hj.of_mem (Assoc.mem_of_lookup hlook')) hv e' he'
          rw [List.cons_append, storeAt_cons_obj, hlook', Option.getD_some, hsame,
            Option.map_some, hobj]
        | arr xs =>
          by_cases ht : t = "-"
          · subst ht
            obtain ⟨ys, hys, hlt⟩ := length_of_editAt h
            rw [Json.arr.inj hys] at hlt
            exact absurd hlt (lt_irrefl _)
          · rw [editAt_cons_arr ht] at h
            obtain ⟨i, hi, h⟩ := Option.bind_eq_some_iff.mp h
            obtain ⟨v, hv, harr⟩ := Option.map_eq_some_iff.mp h
            have hlook := setElem_eq_self_iff.mp (Json.arr.inj harr)
            have hget : xs.getD i .null = v := by
              rw [List.getD_eq_getElem?_getD, hlook, Option.getD_some]
            rw [hget] at hv
            intro e' he'
            have hsame := ih (hget ▸ hj.elem i) hv e' he'
            rw [List.cons_append, storeAt_cons_arr ht, hi, Option.bind_some, hget, hsame,
              Option.map_some, harr]
        | _ => cases h
  · intro h
    induction es with
    | nil => rfl
    | cons e es ih =>
      rw [editAt_cons, h e List.mem_cons_self, Option.bind_some]
      rw [List.map_cons, List.nodup_cons] at hnodup
      exact ih hnodup.2 (fun e he => hkeys e (List.mem_cons_of_mem _ he))
        fun e he => h e (List.mem_cons_of_mem _ he)

/-- Edits make an object of a null that they meet first. -/
theorem editAt_null {t : String} (ht : IsKey t) (us : List String) (e : KeyEdit)
    (es : List KeyEdit) :
    editAt (t :: us) (e :: es) .null = editAt (t :: us) (e :: es) (.obj []) := by
  have hobj : asContainer t .null = .obj [] :=
    (show Json.null.IsRecord from Or.inl rfl).asContainer ht
  rw [editAt_cons, editAt_cons, List.cons_append, storeAt_asContainer, hobj]

theorem editAt_record {j : Json} (hj : j.IsRecord) {e : KeyEdit} (he : IsKey e.1)
    (es : List KeyEdit) : editAt [] (e :: es) j = some (.obj (updateAll (e :: es) j.members)) := by
  rw [editAt_cons, List.nil_append, storeAt_asContainer, hj.asContainer he,
    ← List.nil_append [e.1], ← editAt_cons, editAt_obj]

theorem Sorted.editAt {us : List String} {es : List KeyEdit} {j v : Json}
    (hes : ∀ e ∈ es, ∀ v, v.Sorted → (e.2 v).Sorted) (hj : j.Sorted)
    (h : editAt us es j = some v) : v.Sorted := by
  induction es generalizing j with
  | nil =>
    cases h
    exact hj
  | cons e es ih =>
    rw [editAt_cons] at h
    obtain ⟨w, hw, h⟩ := Option.bind_eq_some_iff.mp h
    exact ih (fun e he => hes e (List.mem_cons_of_mem _ he))
      (hj.storeAt (hes e List.mem_cons_self) hw) h

theorem editAt_cons_frame {t : String} {us : List String} {e : KeyEdit} {es : List KeyEdit}
    {j v : Json} (h : editAt (t :: us) (e :: es) j = some v) :
    (∀ k ≠ t, v.get? k = j.get? k) ∧ v.isObject = (asContainer t j).isObject := by
  induction es generalizing e j with
  | nil =>
    obtain ⟨w, hw, h⟩ := Option.bind_eq_some_iff.mp (editAt_cons _ _ _ _ ▸ h)
    cases h
    exact storeAt_cons_frame hw
  | cons e' es ih =>
    obtain ⟨w, hw, h⟩ := Option.bind_eq_some_iff.mp (editAt_cons _ _ _ _ ▸ h)
    obtain ⟨hget, hobj⟩ := storeAt_cons_frame hw
    obtain ⟨hget', hobj'⟩ := ih h
    rw [asContainer_of_ne_null (storeAt_cons_ne_null hw)] at hobj'
    exact ⟨fun k hk => (hget' k hk).trans (hget k hk), hobj'.trans hobj⟩

/-- What is kept of a document: a value that is neither null nor exempt stays under its path,
though an object may gain entries. -/
def Keeps (exempt : List String → Json → Prop) (c d : Json) : Prop :=
  ∀ path v, entryAt path c = some v → v ≠ .null → ¬ exempt path v →
    ∃ w, entryAt path d = some w ∧ (w = v ∨ v.isObject ∧ w.isObject)

theorem keeps_refl (exempt : List String → Json → Prop) (c : Json) : Keeps exempt c c :=
  fun _ v hv _ _ => ⟨v, hv, Or.inl rfl⟩

/-- An object is kept where each of its values is. -/
theorem keeps_obj {exempt : List String → Json → Prop} {ms ns : List (String × Json)}
    (h : ∀ k x, ms.lookup k = some x → x ≠ .null →
      (∀ path v, entryAt path x = some v → exempt (k :: path) v) ∨
        ∃ y, ns.lookup k = some y ∧ Keeps (fun path => exempt (k :: path)) x y) :
    Keeps exempt (.obj ms) (.obj ns) := by
  intro path v hv hne hexempt
  cases path with
  | nil =>
    cases hv
    exact ⟨.obj ns, rfl, Or.inr ⟨rfl, rfl⟩⟩
  | cons k path =>
    obtain ⟨x, hx, hv⟩ := Option.bind_eq_some_iff.mp hv
    have hxne : x ≠ .null := by
      rintro rfl
      cases path with
      | nil =>
        cases hv
        exact hne rfl
      | cons t path => cases hv
    rcases h k x hx hxne with hall | ⟨y, hy, hkeeps⟩
    · exact absurd (hall path v hv) hexempt
    · obtain ⟨w, hw, hwv⟩ := hkeeps path v hv hne hexempt
      have hget : (Json.obj ns).get? k = some y := hy
      exact ⟨w, by rw [entryAt, hget, Option.bind_some, hw], hwv⟩

theorem keeps_updateAll {exempt : List String → Json → Prop} {es : List KeyEdit}
    {ms : List (String × Json)} (hnodup : (es.map Prod.fst).Nodup)
    (h : ∀ k f x, (k, f) ∈ es → ms.lookup k = some x → x ≠ .null →
      (∀ path v, entryAt path x = some v → exempt (k :: path) v) ∨
        Keeps (fun path => exempt (k :: path)) x (f x)) :
    Keeps exempt (.obj ms) (.obj (updateAll es ms)) := by
  refine keeps_obj fun k x hx hne => ?_
  rw [lookup_updateAll hnodup, Json.get, Json.get?, Json.members, hx]
  cases hk : es.lookup k with
  | none => exact Or.inr ⟨x, rfl, keeps_refl _ x⟩
  | some f =>
    exact (h k f x (Assoc.mem_of_lookup hk) hx hne).imp_right fun hkeeps => ⟨f x, rfl, hkeeps⟩

end PowerScreen.Library.Json
