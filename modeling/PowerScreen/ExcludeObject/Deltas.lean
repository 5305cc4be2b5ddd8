import PowerScreen.State.LastReport
import PowerScreen.ExcludeObject.Flags

/-! # Partial statuses against the accumulated one

One status of the `exclude_object` module is delivered by deltas, each with the
complete value of some of its three fields. The panel ends where one merge of the
accumulated status would take it unless the exclusions were all delivered before
the objects they belong to.
-/
namespace PowerScreen.ExcludeObject
open Library Library.Run

structure ObjectStatus where
  objects : List Json
  excluded : List Json
  current : Option String
  objectsSorted : (Json.arr objects).Sorted
  excludedSorted : (Json.arr excluded).Sorted

/-- Which of the three fields a delta carries. -/
structure Delta where
  objects : Bool
  excluded : Bool
  current : Bool
  eventtime : ℚ := 0

namespace Panel

/-- The notification as the panel reads it. -/
def receive (p : Panel) (j : Doc) : Option Panel :=
  (Json.getAt ["params", "0", "exclude_object"] j.json).bind p.consume

/-- What a status decides: the objects with their flags, and the current object. -/
def content (p : Panel) : List Object × String := (p.objects, p.currentObject)

theorem content_refresh (p : Panel) : p.refresh.content = p.content := by simp [content]

/-- A merge reads the three fields only, whatever the shape of the status. -/
theorem content_merge (p : Panel) (j : Json) :
    (p.merge j).map content = (mergeObjectsField p.objects (j.get? "objects")).map fun obs =>
      (mergeExcludedField obs (j.get? "excluded_objects"),
        mergeCurrentField p.currentObject (j.get? "current_object")) := by
  unfold merge
  split_ifs with hobj
  · rw [Option.map_map]
    rfl
  · cases j with
    | obj ms => simp [Json.isObject] at hobj
    | _ => rfl

theorem content_consume (p : Panel) {j : Json} (h : j ≠ .null) :
    (p.consume j).map content = (p.merge j).map content := by
  rw [consume, if_neg h, Option.map_map]
  exact congrArg (Option.map · (p.merge j)) (funext content_refresh)

/-- The periodic reading merges the full status. -/
theorem content_syncFromState (p : Panel) (j : Json) :
    (p.syncFromState j).map content = (p.merge j).map content := by
  unfold syncFromState merge
  split_ifs
  · rw [Option.map_map]
    exact congrArg (Option.map · _) (funext content_refresh)
  · exact congrArg some (content_refresh p)

end Panel

namespace Delta

variable (st : ObjectStatus)

def fields (d : Delta) : List (String × Json) :=
  (if d.current then [("current_object", st.current.elim .null .str)] else []) ++
  (if d.excluded then [("excluded_objects", .arr st.excluded)] else []) ++
  (if d.objects then [("objects", .arr st.objects)] else [])

theorem lookup_fields (d : Delta) :
    (d.fields st).lookup "objects" = (if d.objects then some (.arr st.objects) else none) ∧
    (d.fields st).lookup "excluded_objects" =
      (if d.excluded then some (.arr st.excluded) else none) ∧
    (d.fields st).lookup "current_object" =
      if d.current then some (st.current.elim .null .str) else none := by
  obtain ⟨_ | _, _ | _, _ | _, -⟩ := d <;> exact ⟨rfl, rfl, rfl⟩

theorem sorted_fields (d : Delta) : (Json.obj (d.fields st)).Sorted := by
  refine Json.sorted_obj_iff.mpr ⟨Assoc.sorted_of_keys ?_, fun m hm => ?_⟩
  · have hkeys : ((d.fields st).map Prod.fst).Sublist
        ["current_object", "excluded_objects", "objects"] := by
      obtain ⟨_ | _, _ | _, _ | _, -⟩ := d <;> simp [fields]
    exact List.Pairwise.sublist hkeys (by decide)
  · have hcurrent : (st.current.elim .null .str : Json).Sorted := by
      cases st.current with
      | none => exact Json.sorted_null
      | some n => exact Json.sorted_str n
    simp only [fields, List.mem_append] at hm
    rcases hm with (hm | hm) | hm <;> split_ifs at hm <;>
      simp only [List.mem_singleton, List.not_mem_nil] at hm <;> subst hm
    · exact hcurrent
    · exact st.excludedSorted
    · exact st.objectsSorted

/-- The status a delta reports, as the printer sends it. -/
def status (d : Delta) : Status where
  objects := [("exclude_object", d.fields st)]
  keys := List.pairwise_singleton _ _
  fields o ho := by
    rw [List.mem_singleton.mp ho]
    exact d.sorted_fields st

def notification (d : Delta) : Doc := (d.status st).notification d.eventtime

/-- All that the deltas carry, in one. -/
def accumulated (ds : List Delta) : Delta where
  objects := ds.any objects
  excluded := ds.any excluded
  current := ds.any current

/-- Some exclusions come with the objects or after them. -/
def late : List Delta → Bool
  | [] => false
  | d :: ds => (d.objects && (d :: ds).any excluded) || late ds

theorem any_excluded_of_late {ds : List Delta} (h : late ds) : ds.any excluded := by
  induction ds with
  | nil => cases h
  | cons d ds ih =>
    rw [late, Bool.or_eq_true, Bool.and_eq_true] at h
    rcases h with ⟨-, h⟩ | h
    · exact h
    · rw [List.any_cons, ih h, Bool.or_true]

/-- One delta on the objects and the current object. -/
def apply (d : Delta) (c : List Object × String) : Option (List Object × String) :=
  (if d.objects then mergeObjects c.1 st.objects else some c.1).map fun obs =>
    (if d.excluded then mergeExcluded obs st.excluded else obs,
      if d.current then st.current.getD "" else c.2)

theorem receive_notification (d : Delta) (p : Panel) :
    p.receive (d.notification st) = p.consume (.obj (d.fields st)) := rfl

theorem str?_current : (st.current.elim .null .str : Json).str? = st.current := by
  cases st.current <;> rfl

theorem content_merge_fields (d : Delta) (p : Panel) :
    (p.merge (.obj (d.fields st))).map Panel.content = d.apply st p.content := by
  obtain ⟨hobjects, hexcluded, hcurrent⟩ := d.lookup_fields st
  rw [Panel.content_merge, Json.get?, Json.get?, Json.get?, Json.members, hobjects, hexcluded,
    hcurrent]
  have hobs : Panel.mergeObjectsField p.objects
      (if d.objects then some (.arr st.objects) else none) =
        if d.objects then mergeObjects p.objects st.objects else some p.objects := by
    split_ifs <;> rfl
  have hexc (obs : List Object) : Panel.mergeExcludedField obs
      (if d.excluded then some (.arr st.excluded) else none) =
        if d.excluded then mergeExcluded obs st.excluded else obs := by
    split_ifs <;> rfl
  have hcur : Panel.mergeCurrentField p.currentObject
      (if d.current then some (st.current.elim .null .str) else none) =
        if d.current then st.current.getD "" else p.currentObject := by
    split_ifs
    · exact congrArg (Option.getD · "") (str?_current st)
    · rfl
  simp only [hobs, hexc, hcur]
  rfl

/-- The panel after all deltas, in the order of their arrival. -/
def deliver (p : Panel) (ds : List Delta) : Option Panel :=
  ds.foldlM (fun p d => p.receive (d.notification st)) p

theorem content_deliver (p : Panel) (ds : List Delta) :
    (deliver st p ds).map Panel.content = ds.foldlM (fun c d => d.apply st c) p.content := by
  induction ds generalizing p with
  | nil => rfl
  | cons d ds ih =>
    have hhead : (p.receive (d.notification st)).map Panel.content = d.apply st p.content := by
      rw [receive_notification, Panel.content_consume p (by simp), content_merge_fields]
    rw [deliver, List.foldlM_cons, List.foldlM_cons, ← hhead]
    cases p.receive (d.notification st) with
    | none => rfl
    | some q => exact ih q

/-- A list that cannot be read stops the delivery, whenever it comes. -/
theorem deliver_unreadable (hread : st.objects.mapM readObject = none) {ds : List Delta}
    (h : ds.any objects) (c : List Object × String) :
    ds.foldlM (fun c d => d.apply st c) c = none := by
  induction ds generalizing c with
  | nil => simp at h
  | cons d ds ih =>
    rw [List.foldlM_cons]
    by_cases hd : d.objects
    · simp [apply, hd, mergeObjects_eq, hread]
    · have hds : ds.any objects := by simpa [hd] using h
      simp only [apply, hd, Bool.false_eq_true, if_false, Option.map_some, Option.bind_eq_bind,
        Option.bind_some]
      exact ih hds _

variable (base : List Object)

def writeObjects (d : Delta) (obs : List Object) : List Object :=
  let obs := if d.objects then flagged (keptFlag obs) base else obs
  if d.excluded then flagged (excludedNames st.excluded) obs else obs

def writeCurrent (d : Delta) (current : String) : String :=
  if d.current then st.current.getD "" else current

theorem apply_eq {d : Delta} (hread : d.objects → st.objects.mapM readObject = some base)
    (c : List Object × String) :
    d.apply st c = some (d.writeObjects st base c.1, d.writeCurrent st c.2) := by
  rw [apply, writeObjects, writeCurrent]
  by_cases hd : d.objects <;> simp [hd, mergeObjects_eq, mergeExcluded_eq, hread]

theorem foldlM_apply {ds : List Delta}
    (hread : ds.any objects → st.objects.mapM readObject = some base)
    (c : List Object × String) :
    ds.foldlM (fun c d => d.apply st c) c =
      some (ds.foldl (fun obs d => d.writeObjects st base obs) c.1,
        ds.foldl (fun current d => d.writeCurrent st current) c.2) := by
  induction ds generalizing c with
  | nil => rfl
  | cons d ds ih =>
    rw [List.foldlM_cons, apply_eq st base (fun hd => hread (by simp [hd]))]
    exact ih (fun hds => hread (by simp [List.any_cons, hds])) _

/-- The current object is that of the status as soon as one delta has brought it. -/
theorem foldl_writeCurrent (ds : List Delta) (current : String) :
    ds.foldl (fun current d => d.writeCurrent st current) current =
      (accumulated ds).writeCurrent st current := by
  induction ds generalizing current with
  | nil => rfl
  | cons d ds ih =>
    rw [List.foldl_cons, ih]
    cases hd : d.current <;> simp [writeCurrent, accumulated, hd]

/-- The objects after all deltas: read from the list when it has come, with the flags
of the exclusions unless these were all delivered to the old list. -/
def outcome (ds : List Delta) (obs : List Object) : List Object :=
  let x := excludedNames st.excluded
  if ds.any objects then
    if ds.any excluded then
      if late ds then flagged x base else flagged (keptFlag (flagged x obs)) base
    else flagged (keptFlag obs) base
  else if ds.any excluded then flagged x obs else obs

theorem foldl_writeObjects (ds : List Delta) (obs : List Object) :
    ds.foldl (fun obs d => d.writeObjects st base obs) obs = outcome st base ds obs := by
  induction ds generalizing obs with
  | nil => rfl
  | cons d ds ih =>
    have hlate : ds.any excluded = false → late ds = false := fun h =>
      Bool.eq_false_iff.mpr fun hl => by simp [any_excluded_of_late hl] at h
    rw [List.foldl_cons, ih]
    cases hO : d.objects <;> cases hX : d.excluded <;>
      simp only [outcome, writeObjects, late, List.any_cons, hO, hX, Bool.true_or, Bool.false_or,
        Bool.true_and, Bool.false_and, if_true, if_false, Bool.false_eq_true, flagged_flagged,
        flagged_keptFlag_self, ite_self] <;>
      cases hany : ds.any excluded <;> simp [hlate, hany]

/-- The list can be read, should it be delivered at all. -/
def Readable (ds : List Delta) : Prop := ds.any objects → (st.objects.mapM readObject).isSome

/-- Exclusions that all come before the list concern objects already known. -/
def Recovers (p : Panel) (ds : List Delta) : Prop :=
  ds.any objects → ds.any excluded → late ds ∨ ∀ base, st.objects.mapM readObject = some base →
    ∀ ob ∈ base, excludedNames st.excluded ob.name → listed p.objects ob.name

theorem outcome_eq_iff (ds : List Delta) (obs : List Object) :
    outcome st base ds obs = (accumulated ds).writeObjects st base obs ↔
      (ds.any objects → ds.any excluded → late ds ∨
        ∀ ob ∈ base, excludedNames st.excluded ob.name → listed obs ob.name) := by
  have hflags : flagged (keptFlag (flagged (excludedNames st.excluded) obs)) base =
      flagged (excludedNames st.excluded) base ↔
        ∀ ob ∈ base, excludedNames st.excluded ob.name → listed obs ob.name := by
    rw [flagged_eq_iff]
    refine forall₂_congr fun ob _ => ?_
    rw [keptFlag_flagged, Bool.and_eq_right_iff_imp]
  simp only [outcome, writeObjects, accumulated]
  by_cases hO : ds.any objects
  · by_cases hX : ds.any excluded
    · by_cases hl : late ds
      · simp [hO, hX, hl]
      · simpa [hO, hX, hl] using hflags
    · simp [hO, hX]
  · simp [hO]

/-- Delivered in parts or in one delta `a` with the same lists, the same content. -/
theorem deliver_eq_apply_iff (p : Panel) (ds : List Delta) (a : Delta)
    (hobjects : a.objects = ds.any objects) (hexcluded : a.excluded = ds.any excluded) :
    (deliver st p ds).map Panel.content = a.apply st p.content ↔
      Recovers st p ds ∧ (Readable st ds →
        (accumulated ds).writeCurrent st p.currentObject = a.writeCurrent st p.currentObject) := by
  rw [content_deliver]
  by_cases hread : Readable st ds
  · have hbase : ∃ base, ds.any objects → st.objects.mapM readObject = some base := by
      by_cases hO : ds.any objects
      · obtain ⟨base, hb⟩ := Option.isSome_iff_exists.mp (hread hO)
        exact ⟨base, fun _ => hb⟩
      · exact ⟨[], fun h => absurd h hO⟩
    obtain ⟨base, hb⟩ := hbase
    have hwrite : a.writeObjects st base = (accumulated ds).writeObjects st base := by
      funext obs
      simp only [writeObjects, hobjects, hexcluded]
      rfl
    rw [foldlM_apply st base hb, apply_eq st base (hobjects ▸ hb), foldl_writeObjects,
      foldl_writeCurrent, Option.some.injEq, Prod.mk.injEq, hwrite, outcome_eq_iff]
    refine and_congr (forall₂_congr fun hO _ => or_congr_right ?_) ⟨fun h _ => h, fun h => h hread⟩
    rw [hb hO]
    simp [Panel.content]
  · refine iff_of_true ?_ ⟨?_, fun h => absurd h hread⟩
    all_goals
      simp only [Readable, Classical.not_imp, Option.not_isSome_iff_eq_none] at hread
      obtain ⟨hO, hnone⟩ := hread
    · rw [deliver_unreadable st hnone hO]
      simp [apply, hobjects, hO, mergeObjects_eq, hnone]
    · exact fun _ _ => Or.inr fun base hb => by simp [hnone] at hb

end Delta
end PowerScreen.ExcludeObject
