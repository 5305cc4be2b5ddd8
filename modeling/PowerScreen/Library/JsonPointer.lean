import PowerScreen.Library.MergePatch

/-! # JSON pointers on mutable values

The unchecked pointer access of the C++ library: a missing entry on the way is
created as null, a null becomes the container the next token asks for, and a
token that fits neither an object nor an array is an exception (`none`).
-/
namespace PowerScreen.Library.Json

def isDigits (t : String) : Bool := t.toList.all Char.isDigit

/-- A null met on the way turns into an array for a numeric token, else into an object. -/
def asContainer (t : String) : Json → Json
  | .null => if isDigits t || t = "-" then .arr [] else .obj []
  | j => j

/-- Array position of a token: "-" is the position after the last element. -/
def arrayIndex (len : ℕ) (t : String) : Option ℕ :=
  if t = "-" then some len
  else if t.toList = [] || !isDigits t then none
  else if t.toList.head? = some '0' && 1 < t.toList.length then none
  else some (t.toList.foldl (fun n c => 10 * n + (c.toNat - 48)) 0)

def setElem (xs : List Json) (i : ℕ) (v : Json) : List Json :=
  (xs ++ List.replicate (i + 1 - xs.length) Json.null).set i v

/-- The value a pointer access refers to, null where nothing was stored. -/
def getAt : List String → Json → Option Json
  | [], j => some j
  | t :: ts, j => match asContainer t j with
    | .obj ms => getAt ts ((ms.lookup t).getD .null)
    | .arr xs => (arrayIndex xs.length t).bind fun i => getAt ts (xs.getD i .null)
    | _ => none

/-- Apply `f` to the value a pointer refers to, creating what is missing on the way. -/
def modifyAt (f : Json → Json) : List String → Json → Option Json
  | [], j => some (f j)
  | t :: ts, j => match asContainer t j with
    | .obj ms => (modifyAt f ts ((ms.lookup t).getD .null)).map fun v =>
        .obj (Assoc.insert t v ms)
    | .arr xs => (arrayIndex xs.length t).bind fun i =>
        (modifyAt f ts (xs.getD i .null)).map fun v => .arr (setElem xs i v)
    | _ => none

def setAt (ts : List String) (v : Json) : Json → Option Json := modifyAt (fun _ => v) ts

/-- Fill the place a pointer refers to when it holds null. -/
def ensureAt (ts : List String) (v : Json) : Json → Option Json :=
  modifyAt (fun old => if old = .null then v else old) ts

/-- Split at every separator; the pieces between separators may be empty. -/
def splitOn (sep : Char) : List Char → List (List Char)
  | [] => [[]]
  | c :: cs =>
    if c = sep then [] :: splitOn sep cs
    else match splitOn sep cs with
      | [] => [[c]]
      | p :: ps => (c :: p) :: ps

theorem getAt_cons (t : String) (ts : List String) (j : Json) : getAt (t :: ts) j =
    match asContainer t j with
    | .obj ms => getAt ts ((ms.lookup t).getD .null)
    | .arr xs => (arrayIndex xs.length t).bind fun i => getAt ts (xs.getD i .null)
    | _ => none := rfl

theorem modifyAt_cons (f : Json → Json) (t : String) (ts : List String) (j : Json) :
    modifyAt f (t :: ts) j = match asContainer t j with
    | .obj ms => (modifyAt f ts ((ms.lookup t).getD .null)).map fun v =>
        .obj (Assoc.insert t v ms)
    | .arr xs => (arrayIndex xs.length t).bind fun i =>
        (modifyAt f ts (xs.getD i .null)).map fun v => .arr (setElem xs i v)
    | _ => none := rfl

theorem splitOn_cons (sep c : Char) (cs : List Char) : splitOn sep (c :: cs) =
    if c = sep then [] :: splitOn sep cs
    else match splitOn sep cs with
      | [] => [[c]]
      | p :: ps => (c :: p) :: ps := rfl

/-- Undo the escapes `~0` and `~1`; any other use of `~` is a parse error. -/
def unescape : List Char → Option (List Char)
  | [] => some []
  | '~' :: '0' :: cs => (unescape cs).map ('~' :: ·)
  | '~' :: '1' :: cs => (unescape cs).map ('/' :: ·)
  | '~' :: _ => none
  | c :: cs => (unescape cs).map (c :: ·)

/-- The reference tokens of a pointer's text. -/
def parsePointer (p : String) : Option (List String) :=
  match p.toList with
  | [] => some []
  | '/' :: cs => (splitOn '/' cs).mapM fun t => (unescape t).map String.ofList
  | _ => none

theorem Sorted.asContainer {j : Json} (h : j.Sorted) (t : String) :
    (asContainer t j).Sorted := by
  cases j with
  | null =>
    rw [Json.asContainer]
    split_ifs <;> simp [Sorted, SortedElems, SortedMembers]
  | _ => exact h

theorem sortedElems_iff {xs : List Json} : SortedElems xs ↔ ∀ x ∈ xs, x.Sorted := by
  induction xs with
  | nil => simp [SortedElems]
  | cons x xs ih => simp [SortedElems, ih]

theorem Sorted.elem {xs : List Json} (h : (Json.arr xs).Sorted) (i : ℕ) :
    (xs.getD i .null).Sorted := by
  rw [Sorted, sortedElems_iff] at h
  rw [List.getD_eq_getElem?_getD]
  cases hx : xs[i]? with
  | none => exact sorted_null
  | some x => exact h x (List.mem_of_getElem? hx)

/-- What a pointer refers to inside a document is again a document. -/
theorem Sorted.getAt {ts : List String} {j v : Json} (h : j.Sorted) (hv : getAt ts j = some v) :
    v.Sorted := by
  induction ts generalizing j with
  | nil =>
    cases hv
    exact h
  | cons t ts ih =>
    have hc := h.asContainer t
    rw [getAt_cons] at hv
    split at hv
    · rename_i ms heq
      rw [heq] at hc
      exact ih (hc.get t) hv
    · rename_i xs heq
      rw [heq] at hc
      obtain ⟨i, -, hi⟩ := Option.bind_eq_some_iff.mp hv
      exact ih (hc.elem i) hi
    · cases hv

theorem getAt_append (ts us : List String) (j : Json) :
    getAt (ts ++ us) j = (getAt ts j).bind (getAt us) := by
  induction ts generalizing j with
  | nil => rfl
  | cons t ts ih =>
    rw [List.cons_append, getAt_cons, getAt_cons]
    cases asContainer t j with
    | obj ms => exact ih _
    | arr xs =>
      dsimp only
      rw [Option.bind_assoc]
      exact congrArg _ (funext fun i => ih _)
    | _ => rfl

theorem getAt_cons_obj (t : String) (ts : List String) (ms : List (String × Json)) :
    getAt (t :: ts) (.obj ms) = getAt ts ((ms.lookup t).getD .null) := rfl

theorem modifyAt_cons_obj (f : Json → Json) (t : String) (ts : List String)
    (ms : List (String × Json)) : modifyAt f (t :: ts) (.obj ms) =
      (modifyAt f ts ((ms.lookup t).getD .null)).map fun v => .obj (Assoc.insert t v ms) := rfl

theorem splitOn_append {sep : Char} {a b : List Char} (ha : sep ∉ a) :
    splitOn sep (a ++ sep :: b) = a :: splitOn sep b := by
  induction a with
  | nil => rw [List.nil_append, splitOn_cons, if_pos rfl]
  | cons c a ih =>
    rw [List.mem_cons, not_or] at ha
    rw [List.cons_append, splitOn_cons, if_neg (Ne.symm ha.1), ih ha.2]

theorem splitOn_of_not_mem {sep : Char} {a : List Char} (ha : sep ∉ a) :
    splitOn sep a = [a] := by
  induction a with
  | nil => rfl
  | cons c a ih =>
    rw [List.mem_cons, not_or] at ha
    rw [splitOn_cons, if_neg (Ne.symm ha.1), ih ha.2]

theorem splitOn_ne_nil (sep : Char) (a : List Char) : splitOn sep a ≠ [] := by
  cases a with
  | nil => exact List.cons_ne_nil _ _
  | cons c a =>
    rw [splitOn_cons]
    split_ifs
    · exact List.cons_ne_nil _ _
    · split <;> exact List.cons_ne_nil _ _

/-- A separator splits a text into what is before it and what is behind it. -/
theorem splitOn_append_cons (sep : Char) (a b : List Char) :
    splitOn sep (a ++ sep :: b) = splitOn sep a ++ splitOn sep b := by
  induction a with
  | nil =>
    rw [List.nil_append, splitOn_cons, if_pos rfl]
    rfl
  | cons c a ih =>
    rw [List.cons_append, splitOn_cons, splitOn_cons, ih]
    split_ifs
    · rfl
    · cases ha : splitOn sep a with
      | nil => exact absurd ha (splitOn_ne_nil sep a)
      | cons p ps => rfl

theorem unescape_of_not_mem {a : List Char} (ha : '~' ∉ a) : unescape a = some a := by
  induction a with
  | nil => rfl
  | cons c a ih =>
    rw [List.mem_cons, not_or] at ha
    rw [unescape, ih ha.2]
    · rfl
    all_goals intros; simp_all

theorem splitOn_head (sep : Char) (a b : List Char) :
    ∃ p ps, splitOn sep (a ++ sep :: b) = p :: ps ∧ p.length ≤ a.length := by
  induction a with
  | nil => exact ⟨[], splitOn sep b, splitOn_append List.not_mem_nil, le_rfl⟩
  | cons c a ih =>
    obtain ⟨p, ps, h, hlen⟩ := ih
    by_cases hc : c = sep
    · exact ⟨[], _, by rw [List.cons_append, splitOn_cons, if_pos hc], Nat.zero_le _⟩
    · exact ⟨c :: p, ps, by rw [List.cons_append, splitOn_cons, if_neg hc, h], Nat.succ_le_succ hlen⟩

theorem length_of_unescape {a b : List Char} (h : unescape a = some b) :
    b.length ≤ a.length := by
  induction a using unescape.induct generalizing b with
  | case1 =>
    cases h
    exact le_rfl
  | case2 cs ih =>
    obtain ⟨b', hb, rfl⟩ := Option.map_eq_some_iff.mp h
    exact Nat.le_succ_of_le (Nat.succ_le_succ (ih hb))
  | case3 cs ih =>
    obtain ⟨b', hb, rfl⟩ := Option.map_eq_some_iff.mp h
    exact Nat.le_succ_of_le (Nat.succ_le_succ (ih hb))
  | case4 cs h0 h1 =>
    rw [unescape] at h
    · cases h
    · exact h0
    · exact h1
  | case5 c cs h0 h1 hc ih =>
    rw [unescape] at h
    · obtain ⟨b', hb, rfl⟩ := Option.map_eq_some_iff.mp h
      exact Nat.succ_le_succ (ih hb)
    all_goals assumption

/-- Every escape makes the token shorter. -/
theorem eq_of_unescape {a b : List Char} (h : unescape a = some b) (hlen : a.length ≤ b.length) :
    a = b ∧ '~' ∉ a := by
  induction a using unescape.induct generalizing b with
  | case1 =>
    cases h
    exact ⟨rfl, List.not_mem_nil⟩
  | case2 cs ih | case3 cs ih =>
    obtain ⟨b', hb, rfl⟩ := Option.map_eq_some_iff.mp h
    have hshort := length_of_unescape hb
    simp only [List.length_cons] at hlen
    omega
  | case4 cs h0 h1 =>
    rw [unescape] at h
    · cases h
    · exact h0
    · exact h1
  | case5 c cs h0 h1 hc ih =>
    rw [unescape] at h
    · obtain ⟨b', hb, rfl⟩ := Option.map_eq_some_iff.mp h
      obtain ⟨heq, hmem⟩ := ih hb (Nat.le_of_succ_le_succ hlen)
      have hne : '~' ≠ c := fun heq => hc heq.symm
      exact ⟨by rw [heq], List.not_mem_cons_of_ne_of_not_mem hne hmem⟩
    all_goals assumption

/-- No piece of a split holds the separator. -/
theorem not_mem_of_mem_splitOn {sep : Char} {cs p : List Char} (h : p ∈ splitOn sep cs) :
    sep ∉ p := by
  induction cs generalizing p with
  | nil => simp [List.mem_singleton.mp h]
  | cons c cs ih =>
    rw [splitOn_cons] at h
    split_ifs at h with hc
    · rcases List.mem_cons.mp h with rfl | h
      · exact List.not_mem_nil
      · exact ih h
    · split at h
      · rw [List.mem_singleton.mp h]
        simpa using Ne.symm hc
      · rename_i q qs heq
        rcases List.mem_cons.mp h with rfl | h
        · simpa [Ne.symm hc] using ih (heq ▸ List.mem_cons_self)
        · exact ih (heq ▸ List.mem_cons_of_mem _ h)

/-- A piece that reads as the text before a separator is that text. -/
theorem eq_of_head_splitOn {sep : Char} {a b p : List Char} {ps : List (List Char)}
    (hsplit : splitOn sep (a ++ sep :: b) = p :: ps) (hread : unescape p = some a) :
    sep ∉ a ∧ '~' ∉ a := by
  obtain ⟨q, qs, hq, hlen⟩ := splitOn_head sep a b
  rw [hsplit, List.cons.injEq] at hq
  obtain ⟨heq, hmem⟩ := eq_of_unescape hread (hq.1 ▸ hlen)
  subst heq
  exact ⟨not_mem_of_mem_splitOn (hsplit ▸ List.mem_cons_self), hmem⟩

theorem mem_of_mem_splitOn {sep c : Char} {cs p : List Char} (h : p ∈ splitOn sep cs)
    (hc : c ∈ p) : c ∈ cs := by
  induction cs generalizing p with
  | nil => simp [List.mem_singleton.mp h] at hc
  | cons d cs ih =>
    rw [splitOn_cons] at h
    split_ifs at h with hd
    · rcases List.mem_cons.mp h with rfl | h
      · cases hc
      · exact List.mem_cons_of_mem _ (ih h hc)
    · split at h
      · rw [List.mem_singleton.mp h, List.mem_singleton] at hc
        exact hc ▸ List.mem_cons_self
      · rename_i q qs heq
        rcases List.mem_cons.mp h with rfl | h
        · rcases List.mem_cons.mp hc with rfl | hc
          · exact List.mem_cons_self
          · exact List.mem_cons_of_mem _ (ih (heq ▸ List.mem_cons_self) hc)
        · exact List.mem_cons_of_mem _ (ih (heq ▸ List.mem_cons_of_mem _ h) hc)

/-- A modification fails where the access does. -/
theorem isSome_modifyAt (f : Json → Json) (ts : List String) (j : Json) :
    (modifyAt f ts j).isSome = (getAt ts j).isSome := by
  induction ts generalizing j with
  | nil => rfl
  | cons t ts ih =>
    rw [modifyAt_cons, getAt_cons]
    cases asContainer t j with
    | obj ms => rw [Option.isSome_map, ih]
    | arr xs =>
      cases hi : arrayIndex xs.length t with
      | none => simp only [hi, Option.bind_none]
      | some i => simp only [hi, Option.bind_some, Option.isSome_map, ih]
    | _ => rfl

theorem Sorted.modifyAt {f : Json → Json} (hf : ∀ v, v.Sorted → (f v).Sorted) {ts : List String}
    {j v : Json} (h : j.Sorted) (hv : modifyAt f ts j = some v) : v.Sorted := by
  induction ts generalizing j v with
  | nil =>
    cases hv
    exact hf j h
  | cons t ts ih =>
    have hc := h.asContainer t
    rw [modifyAt_cons] at hv
    split at hv
    · rename_i ms heq
      rw [heq] at hc
      obtain ⟨w, hw, rfl⟩ := Option.map_eq_some_iff.mp hv
      exact sorted_insert hc t (ih (hc.get t) hw)
    · rename_i xs heq
      rw [heq] at hc
      obtain ⟨i, -, hi⟩ := Option.bind_eq_some_iff.mp hv
      obtain ⟨w, hw, rfl⟩ := Option.map_eq_some_iff.mp hi
      have hx := hc.elem i
      rw [Sorted, sortedElems_iff] at hc ⊢
      intro x hmem
      rcases List.mem_or_eq_of_mem_set hmem with hmem | rfl
      · rcases List.mem_append.mp hmem with hmem | hmem
        · exact hc x hmem
        · exact List.eq_of_mem_replicate hmem ▸ sorted_null
      · exact ih hx hw
    · cases hv

theorem getD_setElem (xs : List Json) (i : ℕ) (v : Json) : (setElem xs i v).getD i .null = v := by
  have hlen : i < (xs ++ List.replicate (i + 1 - xs.length) Json.null).length := by
    rw [List.length_append, List.length_replicate]
    omega
  rw [setElem, List.getD_eq_getElem?_getD, List.getElem?_set_self hlen]
  rfl

/-- The position of a token does not depend on the length, except for the one past the end. -/
theorem arrayIndex_of_ne {t : String} (ht : t ≠ "-") (m n : ℕ) :
    arrayIndex m t = arrayIndex n t := by
  rw [arrayIndex, arrayIndex, if_neg ht, if_neg ht]

/-- What an access creates it finds again. -/
theorem getAt_modifyAt_id {ts : List String} {j v : Json} (hv : modifyAt id ts j = some v) :
    getAt ts v = getAt ts j := by
  induction ts generalizing j v with
  | nil =>
    cases hv
    rfl
  | cons t ts ih =>
    rw [modifyAt_cons] at hv
    split at hv
    · rename_i ms heq
      obtain ⟨w, hw, rfl⟩ := Option.map_eq_some_iff.mp hv
      rw [getAt_cons_obj, Assoc.lookup_insert_self, Option.getD_some, ih hw, getAt_cons,
        heq]
    · rename_i xs heq
      obtain ⟨i, hi, hv⟩ := Option.bind_eq_some_iff.mp hv
      obtain ⟨w, hw, rfl⟩ := Option.map_eq_some_iff.mp hv
      rw [getAt_cons, getAt_cons, heq]
      change (arrayIndex (setElem xs i w).length t).bind _ = (arrayIndex xs.length t).bind _
      rw [hi, Option.bind_some]
      by_cases ht : t = "-"
      · have hlen : i = xs.length := by
          rw [arrayIndex, if_pos ht] at hi
          exact (Option.some.inj hi).symm
        have hnull : xs.getD i .null = .null := by
          rw [List.getD_eq_getElem?_getD, List.getElem?_eq_none hlen.ge]
          rfl
        rw [arrayIndex, if_pos ht, Option.bind_some, List.getD_eq_getElem?_getD,
          List.getElem?_eq_none le_rfl, hnull]
        rfl
      · rw [arrayIndex_of_ne ht _ xs.length, hi, Option.bind_some, getD_setElem, ih hw]
    · cases hv

/-- What an access leaves is a container. -/
theorem modifyAt_cons_ne_null {f : Json → Json} {t : String} {ts : List String} {j v : Json}
    (hv : modifyAt f (t :: ts) j = some v) : v ≠ .null := by
  rw [modifyAt_cons] at hv
  split at hv
  · obtain ⟨w, -, rfl⟩ := Option.map_eq_some_iff.mp hv
    exact Json.noConfusion
  · obtain ⟨i, -, hi⟩ := Option.bind_eq_some_iff.mp hv
    obtain ⟨w, -, rfl⟩ := Option.map_eq_some_iff.mp hi
    exact Json.noConfusion
  · cases hv

/-- The entry under a path of keys, where there is one. -/
def entryAt : List String → Json → Option Json
  | [], j => some j
  | t :: ts, j => (j.get? t).bind (entryAt ts)

/-- An access to an entry that is there reads it and creates nothing. -/
theorem access_of_entryAt {ts : List String} {j v : Json} (hj : j.Sorted)
    (h : entryAt ts j = some v) : getAt ts j = some v ∧ modifyAt id ts j = some j := by
  induction ts generalizing j with
  | nil =>
    cases h
    exact ⟨rfl, rfl⟩
  | cons t ts ih =>
    obtain ⟨w, hw, hv⟩ := Option.bind_eq_some_iff.mp h
    cases j with
    | obj ms =>
      have hlook : ms.lookup t = some w := hw
      obtain ⟨hget, hmod⟩ := ih (hj.of_mem (Assoc.mem_of_lookup hlook)) hv
      have hsame : Assoc.insert t w ms = ms := Assoc.insert_of_lookup hj.members hlook
      rw [getAt_cons_obj, modifyAt_cons_obj, hlook, Option.getD_some, hmod, Option.map_some, hsame]
      exact ⟨hget, rfl⟩
    | _ => cases hw

/-- A token that is a key of an object wherever there is no array. -/
def IsKey (t : String) : Prop := isDigits t = false ∧ t ≠ "-"

instance : DecidablePred IsKey := fun _ => inferInstanceAs (Decidable (_ ∧ _))

/-- An object, or null, which becomes one. -/
def IsRecord (j : Json) : Prop := j = .null ∨ j.isObject

theorem IsRecord.asContainer {j : Json} (h : j.IsRecord) {t : String} (ht : IsKey t) :
    asContainer t j = .obj j.members := by
  cases j with
  | null => simp [Json.asContainer, ht.1, ht.2, Json.members]
  | obj ms => rfl
  | _ => rcases h with h | h <;> cases h

theorem IsRecord.getAt {j : Json} (h : j.IsRecord) {t : String} (ht : IsKey t)
    (ts : List String) : getAt (t :: ts) j = getAt ts (j.get t) := by
  rw [getAt_cons, h.asContainer ht]
  rfl

theorem IsRecord.modifyAt {j : Json} (h : j.IsRecord) {t : String} (ht : IsKey t)
    (f : Json → Json) (ts : List String) : modifyAt f (t :: ts) j =
      (modifyAt f ts (j.get t)).map fun v => .obj (Assoc.insert t v j.members) := by
  rw [modifyAt_cons, h.asContainer ht]
  rfl

theorem isRecord_obj (ms : List (String × Json)) : (Json.obj ms).IsRecord := Or.inr rfl

theorem get_insert (k t : String) (v : Json) (j : Json) :
    (Json.obj (Assoc.insert t v j.members)).get k = if k = t then v else j.get k := by
  rw [Json.get, Json.get?, Json.members, Assoc.lookup_insert]
  split_ifs <;> rfl

end PowerScreen.Library.Json
