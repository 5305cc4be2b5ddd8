import PowerScreen.Config.Entries

/-! # What the start fills in

The edits of the start, each for itself: a default where there is null, and the migration of the
default printer's macros. A second edit of the same kind finds nothing to do.
-/
namespace PowerScreen.Config
open Library Library.Json

section Macros

/-- The name of today for the name of a macro. -/
def renamed (v : Json) : Json :=
  renamedMacros.foldl (fun v r => if v = .str r.1 then .str r.2 else v) v

/-- With a cooldown, and without names of older versions. -/
def UpToDate (macros : Json) : Prop :=
  macros.contains "cooldown" ∧ ∀ key ∈ ["load_filament", "unload_filament"], ∀ r ∈ renamedMacros,
    macros.get? key ≠ some (.str r.1)

instance : DecidablePred UpToDate := fun _ => instDecidableAnd

theorem get?_renameMacro (m : Json) (key k : String) :
    (renameMacro m key).get? k = if k = key then (m.get? k).map renamed else m.get? k := by
  have hstep (m : Json) (r : String × String) :
      (if m.get? key = some (.str r.1) then
        Json.obj (Assoc.insert key (.str r.2) m.members) else m).get? k =
      if k = key then (m.get? k).map fun v => if v = .str r.1 then .str r.2 else v
      else m.get? k := by
    by_cases hk : k = key
    · subst hk
      rw [if_pos rfl]
      split_ifs with hm
      · rw [hm, Json.get?, Json.members, Assoc.lookup_insert_self, Option.map_some, if_pos rfl]
      · cases hv : m.get? k with
        | none => rfl
        | some v =>
          have hne : v ≠ .str r.1 := fun heq => hm (heq ▸ hv)
          rw [Option.map_some, if_neg hne]
    · rw [if_neg hk]
      split_ifs
      · exact Assoc.lookup_insert_of_ne hk _ _
      · rfl
  rw [renameMacro, renamedMacros, List.foldl_cons, List.foldl_cons, List.foldl_nil, hstep, hstep]
  split_ifs with hk
  · rw [Option.map_map]
    rfl
  · rfl

theorem mergePatch_cooldown (macros : Json) :
    mergePatch macros cooldownConf = .obj (Assoc.insert "cooldown" cooldown macros.members) := by
  have hstr : mergePatch ((macros.members.lookup "cooldown").getD .null) cooldown = cooldown := by
    rw [mergePatch_of_not_object]
    rfl
  rw [cooldownConf, mergePatch, mergeMembers, mergeMembers, if_neg Json.noConfusion, hstr,
    mergeMembers]

/-- Macros after the start, entry by entry. -/
theorem get?_migrateMacros {macros : Json} (hmacros : macros ≠ .null) (k : String) :
    (migrateMacros macros).get? k =
      if k = "cooldown" then some ((macros.get? k).getD cooldown)
      else if k ∈ ["load_filament", "unload_filament"] then (macros.get? k).map renamed
      else macros.get? k := by
  have hcool : (if macros.contains "cooldown" then macros else
      mergePatch macros cooldownConf).get? k =
      if k = "cooldown" then some ((macros.get? k).getD cooldown) else macros.get? k := by
    rw [mergePatch_cooldown]
    by_cases hk : k = "cooldown"
    · subst hk
      rw [if_pos rfl]
      split_ifs with hin
      · obtain ⟨v, hv⟩ := Option.isSome_iff_exists.mp hin
        rw [hv, Option.getD_some]
      · rw [Json.contains, Bool.not_eq_true, Option.isSome_eq_false_iff,
          Option.isNone_iff_eq_none] at hin
        rw [hin, Json.get?, Json.members, Assoc.lookup_insert_self, Option.getD_none]
    · rw [if_neg hk]
      split_ifs
      · rfl
      · exact Assoc.lookup_insert_of_ne hk _ _
  rw [migrateMacros, if_neg hmacros]
  simp only [List.foldl_cons, List.foldl_nil]
  rw [get?_renameMacro, get?_renameMacro, hcool]
  by_cases hload : k = "load_filament"
  · subst hload
    rfl
  · by_cases hunload : k = "unload_filament"
    · subst hunload
      rfl
    · simp [hload, hunload]

theorem renamed_ne (v : Json) : ∀ r ∈ renamedMacros, renamed v ≠ .str r.1 := by
  rw [renamed]
  simp only [renamedMacros, List.forall_mem_cons, List.foldl_cons, List.foldl_nil]
  refine ⟨?_, ?_, fun _ h => absurd h List.not_mem_nil⟩
  · split_ifs <;> simp_all
  · split_ifs <;> simp_all

theorem renamed_eq_self {v : Json} (h : ∀ r ∈ renamedMacros, v ≠ .str r.1) : renamed v = v := by
  simp only [renamedMacros, List.forall_mem_cons] at h
  rw [renamed, renamedMacros, List.foldl_cons, List.foldl_cons, List.foldl_nil, if_neg h.1,
    if_neg h.2.1]

theorem renameMacro_isObject {m : Json} (hm : m.isObject) (key : String) :
    (renameMacro m key).isObject := by
  have hstep (m : Json) (hm : m.isObject) (r : String × String) :
      (if m.get? key = some (.str r.1) then
        Json.obj (Assoc.insert key (.str r.2) m.members) else m).isObject := by
    split_ifs
    · rfl
    · exact hm
  rw [renameMacro, renamedMacros, List.foldl_cons, List.foldl_cons, List.foldl_nil]
  exact hstep _ (hstep m hm _) _

theorem migrateMacros_isObject (macros : Json) : (migrateMacros macros).isObject := by
  rw [migrateMacros]
  by_cases hnull : macros = .null
  · rw [if_pos hnull]
    rfl
  · rw [if_neg hnull]
    refine renameMacro_isObject (renameMacro_isObject ?_ _) _
    split_ifs with hin
    · cases macros with
      | obj ms => rfl
      | _ => cases hin
    · rw [mergePatch_cooldown]
      rfl

theorem upToDate_migrateMacros (macros : Json) : UpToDate (migrateMacros macros) := by
  by_cases hnull : macros = .null
  · subst hnull
    decide
  · rw [UpToDate, Json.contains, get?_migrateMacros hnull, if_pos rfl]
    refine ⟨rfl, fun key hkey r hr h => ?_⟩
    have hne : key ≠ "cooldown" := by
      rintro rfl
      exact absurd hkey (by decide)
    rw [get?_migrateMacros hnull, if_neg hne, if_pos hkey] at h
    obtain ⟨v, -, hv⟩ := Option.map_eq_some_iff.mp h
    exact renamed_ne v r hr hv

theorem UpToDate.ne_null {macros : Json} (h : UpToDate macros) : macros ≠ .null := by
  rintro rfl
  cases h.1

theorem migrateMacros_eq_self_iff {macros : Json} :
    migrateMacros macros = macros ↔ UpToDate macros := by
  constructor
  · intro h
    rw [← h]
    exact upToDate_migrateMacros macros
  · intro h
    have hkeep (key : String) (hkey : key ∈ ["load_filament", "unload_filament"]) :
        renameMacro macros key = macros := by
      have hne := h.2 key hkey
      simp only [renamedMacros, List.forall_mem_cons] at hne
      rw [renameMacro, renamedMacros, List.foldl_cons, List.foldl_cons, List.foldl_nil,
        if_neg hne.1, if_neg hne.2.1]
    rw [migrateMacros, if_neg h.ne_null, if_pos h.1]
    simp only [List.foldl_cons, List.foldl_nil]
    rw [hkeep _ (by decide), hkeep _ (by decide)]

theorem sorted_migrateMacros {macros : Json} (h : macros.Sorted) :
    (migrateMacros macros).Sorted := by
  have hstep (m : Json) (hm : m.Sorted) (key : String) (r : String × String) :
      (if m.get? key = some (.str r.1) then
        Json.obj (Assoc.insert key (.str r.2) m.members) else m).Sorted := by
    split_ifs
    · exact sorted_insert (sorted_obj_iff.mpr ⟨hm.members, fun x hx => hm.of_mem hx⟩) key
        (sorted_str _)
    · exact hm
  have hrename (m : Json) (hm : m.Sorted) (key : String) : (renameMacro m key).Sorted := by
    rw [renameMacro, renamedMacros, List.foldl_cons, List.foldl_cons, List.foldl_nil]
    exact hstep _ (hstep m hm key _) key _
  have hcooldown : cooldownConf.Sorted := by decide
  rw [migrateMacros]
  by_cases hnull : macros = .null
  · rw [if_pos hnull]
    exact sorted_mergePatch (by decide) hcooldown
  · rw [if_neg hnull]
    refine hrename _ (hrename _ ?_ _) _
    split_ifs
    · exact h
    · exact sorted_mergePatch h hcooldown

end Macros

section Fill

theorem fill_null (v : Json) : fill v .null = v := if_pos rfl

theorem fill_of_ne_null {v old : Json} (h : old ≠ .null) : fill v old = old := if_neg h

theorem fill_idem (v old : Json) : fill v (fill v old) = fill v old := by
  by_cases h : old = .null
  · subst h
    rw [fill_null]
    by_cases hv : v = .null
    · rw [hv, fill_null]
    · exact fill_of_ne_null hv
  · rw [fill_of_ne_null h, fill_of_ne_null h]

theorem sorted_fill {v old : Json} (hv : v.Sorted) (hold : old.Sorted) : (fill v old).Sorted := by
  rw [fill]
  split_ifs
  · exact hv
  · exact hold

/-- The keys of the default printer's entry that the start fills in. -/
def entryEdits : List KeyEdit :=
  [("monitored_sensors", fill sensorsConf), ("fans", fill fansConf),
    ("default_macros", migrateMacros), ("log_level", fill (.str "debug"))]

theorem nodup_entryEdits : (entryEdits.map Prod.fst).Nodup := by decide

theorem isKey_entryEdits : ∀ e ∈ entryEdits, IsKey e.1 := by
  simp only [entryEdits, List.forall_mem_cons]
  exact ⟨by decide, by decide, by decide, by decide, fun _ h => absurd h List.not_mem_nil⟩

theorem entryEdits_idem : ∀ e ∈ entryEdits, ∀ v, e.2 (e.2 v) = e.2 v := by
  simp only [entryEdits, List.forall_mem_cons]
  exact ⟨fill_idem _, fill_idem _,
    fun v => migrateMacros_eq_self_iff.mpr (upToDate_migrateMacros v), fill_idem _,
    fun _ h => absurd h List.not_mem_nil⟩

theorem entryEdits_null : ∀ e ∈ entryEdits, e.2 .null ≠ .null := by
  simp only [entryEdits, List.forall_mem_cons]
  exact ⟨by decide, by decide, by decide, by decide, fun _ h => absurd h List.not_mem_nil⟩

theorem sorted_entryEdits : ∀ e ∈ entryEdits, ∀ v, v.Sorted → (e.2 v).Sorted := by
  simp only [entryEdits, List.forall_mem_cons]
  exact ⟨fun _ => sorted_fill (by decide), fun _ => sorted_fill (by decide),
    fun _ => sorted_migrateMacros, fun _ => sorted_fill (by decide),
    fun _ h => absurd h List.not_mem_nil⟩

/-- The keys at the top that every start fills in. -/
def displayKeys (b : Build) : List KeyEdit :=
  [("display_rotate", fill (.num (.int (if b.rotate then 3 else 0)))),
    ("touch_calibrated", fill (.bool b.evdevCalibrate)),
    ("prompt_emergency_stop", fill (.bool true)), ("display_sleep_sec", fill (.num (.int (-1))))]

def initScript : Json := .str "/etc/init.d/S99powerscreen"

/-- The edits at the top, given the list of printers that a start with a default printer
comes to. -/
def topEdits (b : Build) (path : String) (printers : Option Json) : List KeyEdit :=
  ("config_path", fun _ => .str path) :: ("default_printer", id) ::
    ((printers.elim [] fun ps =>
      [("printers", fun _ => ps), ("powerscreen_init_script", fill initScript)]) ++ displayKeys b)

theorem nodup_topEdits (b : Build) (path : String) (printers : Option Json) :
    ((topEdits b path printers).map Prod.fst).Nodup := by
  cases printers with
  | none => exact (by decide : ["config_path", "default_printer", "display_rotate",
      "touch_calibrated", "prompt_emergency_stop", "display_sleep_sec"].Nodup)
  | some ps => exact (by decide : ["config_path", "default_printer", "printers",
      "powerscreen_init_script", "display_rotate", "touch_calibrated", "prompt_emergency_stop",
      "display_sleep_sec"].Nodup)

theorem topEdits_idem (b : Build) (path : String) (printers : Option Json) :
    ∀ e ∈ topEdits b path printers, ∀ v, e.2 (e.2 v) = e.2 v := by
  cases printers with
  | none =>
    simp only [topEdits, displayKeys, Option.elim, List.nil_append, List.forall_mem_cons]
    exact ⟨fun _ => trivial, fun _ => rfl, fill_idem _, fill_idem _, fill_idem _, fill_idem _,
      fun _ h => absurd h List.not_mem_nil⟩
  | some ps =>
    simp only [topEdits, displayKeys, Option.elim, List.cons_append, List.nil_append,
      List.forall_mem_cons]
    exact ⟨fun _ => trivial, fun _ => rfl, fun _ => trivial, fill_idem _, fill_idem _, fill_idem _,
      fill_idem _, fill_idem _, fun _ h => absurd h List.not_mem_nil⟩

end Fill

end PowerScreen.Config
