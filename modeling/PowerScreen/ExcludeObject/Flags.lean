import PowerScreen.ExcludeObject.Panel

/-! # The excluded flags as functions of the name

Both halves of a merge write the flags of a list from a predicate on names: the
`objects` field from the flags of the old list, the `excluded_objects` field from
the names it lists.
-/
namespace PowerScreen.ExcludeObject
open Library

def flagged (f : String → Bool) (objects : List Object) : List Object :=
  objects.map fun ob => { ob with excluded := f ob.name }

@[simp] theorem flagged_flagged (f g : String → Bool) (objects : List Object) :
    flagged f (flagged g objects) = flagged f objects := by
  simp [flagged, Function.comp_def]

theorem flagged_eq_iff {f g : String → Bool} {objects : List Object} :
    flagged f objects = flagged g objects ↔ ∀ ob ∈ objects, f ob.name = g ob.name := by
  simp [flagged]

def listed (objects : List Object) (name : String) : Bool :=
  objects.any fun ob => ob.name = name

theorem listed_iff {objects : List Object} {name : String} :
    listed objects name ↔ ∃ ob ∈ objects, ob.name = name := by
  simp [listed]

theorem listed_name {objects : List Object} {ob : Object} (h : ob ∈ objects) :
    listed objects ob.name :=
  listed_iff.mpr ⟨ob, h, rfl⟩

def excludedNames (names : List Json) (name : String) : Bool :=
  (names.filterMap Json.str?).contains name

theorem foldl_flagged (ns : List String) (f : String → Bool) (objects : List Object) :
    ns.foldl (fun obs n => obs.map fun ob =>
        if ob.name = n then { ob with excluded := true } else ob) (flagged f objects) =
      flagged (fun name => f name || ns.contains name) objects := by
  induction ns generalizing f with
  | nil => simp [flagged]
  | cons n ns ih =>
    have hhead : (flagged f objects).map (fun ob =>
        if ob.name = n then { ob with excluded := true } else ob) =
          flagged (fun name => f name || name == n) objects := by
      simp only [flagged, List.map_map, Function.comp_def]
      refine List.map_congr_left fun ob _ => ?_
      split_ifs with hn <;> simp [hn]
    rw [List.foldl_cons, hhead, ih]
    refine flagged_eq_iff.mpr fun ob _ => ?_
    rw [List.contains_cons, Bool.or_assoc]

theorem mergeExcluded_eq (objects : List Object) (names : List Json) :
    mergeExcluded objects names = flagged (excludedNames names) objects := by
  refine (foldl_flagged _ (fun _ => false) objects).trans ?_
  exact flagged_eq_iff.mpr fun ob _ => by rw [Bool.false_or, excludedNames]

/-- Reading a list fails or gives the same names and boxes, whatever the old list was. -/
theorem mergeObjects_eq (old : List Object) (os : List Json) :
    mergeObjects old os = (os.mapM readObject).map (flagged (keptFlag old)) := by
  induction os with
  | nil => rfl
  | cons o os ih =>
    rw [mergeObjects] at ih ⊢
    rw [List.mapM_cons, List.mapM_cons, ih]
    cases readObject o with
    | none => rfl
    | some ob =>
      cases os.mapM readObject <;> rfl

theorem foldl_keptFlag (f : String → Bool) (objects : List Object) (name : String) (e : Bool) :
    (flagged f objects).foldl (fun e o => if o.name = name then o.excluded else e) e =
      if listed objects name then f name else e := by
  induction objects generalizing e with
  | nil => rfl
  | cons ob objects ih =>
    rw [flagged, List.map_cons, ← flagged, List.foldl_cons, ih]
    by_cases hn : ob.name = name <;> simp [listed, hn]

theorem keptFlag_flagged (f : String → Bool) (objects : List Object) (name : String) :
    keptFlag (flagged f objects) name = (listed objects name && f name) := by
  rw [keptFlag, foldl_keptFlag]
  cases listed objects name <;> rfl

/-- Reading the same list once more changes nothing. -/
theorem flagged_keptFlag_self (f : String → Bool) (base : List Object) :
    flagged (keptFlag (flagged f base)) base = flagged f base :=
  flagged_eq_iff.mpr fun ob hob => by rw [keptFlag_flagged, listed_name hob, Bool.true_and]

end PowerScreen.ExcludeObject
