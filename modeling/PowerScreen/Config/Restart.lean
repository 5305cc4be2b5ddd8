import PowerScreen.Config.Migration

/-! # A start, all at once

What the start does to the default printer are edits of one place in the list of printers, and
what it does at the top are edits of different keys. The pointer to that place is made of the
default printer's name, which it reads piece by piece: a name with a slash or a tilde leads
elsewhere. A start that finds its own edits at that place changes nothing.
-/
namespace PowerScreen.Config
open Library Library.Json

section Path

/-- The tokens that the default printer's name stands for behind the list of printers. -/
def nameTokens (name : String) : Option (List String) :=
  (splitOn '/' name.toList).mapM fun t => (unescape t).map String.ofList

theorem nameTokens_plain {name : String} (hname : Plain name) : nameTokens name = some [name] := by
  rw [nameTokens, splitOn_of_not_mem hname.1]
  simp only [List.mapM_cons, List.mapM_nil, unescape_plain hname]
  rfl

/-- Only a name that is spelled as it is leads to its own entry. -/
theorem nameTokens_head {name : String} {us : List String} (h : nameTokens name = some us) :
    ∃ t ts, us = t :: ts ∧ (t = name → Plain name) := by
  rw [nameTokens] at h
  cases hsplit : splitOn '/' name.toList with
  | nil => exact absurd hsplit (splitOn_ne_nil _ _)
  | cons p ps =>
    rw [hsplit, List.mapM_cons] at h
    obtain ⟨t, ht, h⟩ := Option.bind_eq_some_iff.mp h
    obtain ⟨ts, -, h⟩ := Option.bind_eq_some_iff.mp h
    cases h
    refine ⟨t, ts, rfl, fun heq => ?_⟩
    obtain ⟨q, hq, rfl⟩ := Option.map_eq_some_iff.mp ht
    have hsep : splitOn '/' (name.toList ++ '/' :: []) = p :: (ps ++ [[]]) := by
      rw [splitOn_append_cons, hsplit]
      rfl
    have hread : unescape p = some name.toList := by
      rw [hq, ← heq, String.toList_ofList]
    exact eq_of_head_splitOn hsep hread

theorem parsePointer_df (name : String) {key : String} (hkey : Plain key) :
    parsePointer (dfPath name ++ key) =
      (nameTokens name).map fun us => "printers" :: (us ++ [key]) := by
  have hprinters : Plain "printers" := by decide
  rw [parsePointer, toList_dfPath]
  simp only [splitOn_append hprinters.1, splitOn_append_cons, splitOn_of_not_mem hkey.1,
    List.mapM_cons, List.mapM_append, List.mapM_nil, unescape_plain hprinters, unescape_plain hkey]
  rw [nameTokens]
  cases (splitOn '/' name.toList).mapM fun t => (unescape t).map String.ofList <;> rfl

theorem modifyText_df (f : Json → Json) (name : String) {key : String} (hkey : Plain key)
    (ms : List (String × Json)) : modifyText f (dfPath name ++ key) (.obj ms) =
      (nameTokens name).bind fun us => (storeAt f (us ++ [key]) ((Json.obj ms).get "printers")).map
        fun ps => .obj (Assoc.insert "printers" ps ms) := by
  rw [modifyText, parsePointer_df name hkey]
  cases nameTokens name with
  | none => rfl
  | some us => exact storeAt_cons_obj f "printers" (us ++ [key]) ms

theorem getText_df (name : String) {key : String} (hkey : Plain key) (ms : List (String × Json)) :
    getText (dfPath name ++ key) (.obj ms) =
      (nameTokens name).bind fun us => getAt (us ++ [key]) ((Json.obj ms).get "printers") := by
  rw [getText, parsePointer_df name hkey]
  cases nameTokens name with
  | none => rfl
  | some us => exact getAt_cons_obj "printers" (us ++ [key]) ms

end Path

section Start

variable {b : Build} {path thumbdir name : String} {ms : List (String × Json)}

theorem applyEdits_append (es fs : List Edit) (c : Json) :
    applyEdits (es ++ fs) c = (applyEdits es c).bind (applyEdits fs) := by
  rw [applyEdits, List.foldlM_append]
  rfl

theorem applyEdits_top {es : List KeyEdit} (hes : ∀ e ∈ es, Plain e.1)
    (ms : List (String × Json)) : applyEdits (es.map fun e => ("/" ++ e.1, e.2)) (.obj ms) =
      some (.obj (updateAll es ms)) := by
  induction es generalizing ms with
  | nil => rfl
  | cons e es ih =>
    rw [List.map_cons, applyEdits_cons, modifyText_top e.2 (hes e List.mem_cons_self),
      Option.bind_some, ih fun e he => hes e (List.mem_cons_of_mem _ he)]
    rfl

theorem applyEdits_display (b : Build) (ms : List (String × Json)) :
    applyEdits (displayEdits b) (.obj ms) = some (.obj (updateAll (displayKeys b) ms)) := by
  have hplain : ∀ e ∈ displayKeys b, Plain e.1 := by
    simp only [displayKeys, List.forall_mem_cons]
    exact ⟨by decide, by decide, by decide, by decide, fun _ h => absurd h List.not_mem_nil⟩
  exact applyEdits_top hplain ms

/-- The edits that need a default printer: those of its entry come to one list of printers. -/
theorem applyEdits_printer (name : String) (hms : Assoc.Sorted ms) :
    applyEdits (printerEdits (dfPath name)) (.obj ms) =
      ((nameTokens name).bind fun us => editAt us entryEdits ((Json.obj ms).get "printers")).map
        fun ps => .obj (Assoc.insert "powerscreen_init_script"
          (fill initScript ((Json.obj ms).get "powerscreen_init_script"))
          (Assoc.insert "printers" ps ms)) := by
  have hstep (f : Json → Json) {key : String} (hkey : Plain key) (es : List Edit)
      (ns : List (String × Json)) : applyEdits ((dfPath name ++ key, f) :: es) (.obj ns) =
        ((nameTokens name).bind fun us =>
          storeAt f (us ++ [key]) ((Json.obj ns).get "printers")).bind fun ps =>
            applyEdits es (.obj (Assoc.insert "printers" ps ns)) := by
    rw [applyEdits_cons, modifyText_df f name hkey]
    cases nameTokens name with
    | none => rfl
    | some us =>
      rw [Option.bind_some, Option.bind_some]
      cases storeAt f (us ++ [key]) ((Json.obj ns).get "printers") <;> rfl
  have hscript (es : List Edit) (ns : List (String × Json)) :
      applyEdits (("/powerscreen_init_script", fill initScript) :: es) (.obj ns) =
        applyEdits es (.obj (Assoc.insert "powerscreen_init_script"
          (fill initScript ((Json.obj ns).get "powerscreen_init_script")) ns)) := by
    have htop := modifyText_top (fill initScript)
      (by decide : Plain "powerscreen_init_script") ns
    rw [applyEdits_cons, show "/powerscreen_init_script" = "/" ++ "powerscreen_init_script" by decide,
      htop, Option.bind_some]
  have hget (ps : Json) (ns : List (String × Json)) :
      (Json.obj (Assoc.insert "printers" ps ns)).get "printers" = ps := by
    rw [get_insert, if_pos rfl]
  cases hus : nameTokens name with
  | none =>
    rw [printerEdits, hstep _ (by decide), hus]
    rfl
  | some us =>
    simp only [hus, Option.bind_some] at hstep
    rw [printerEdits, hstep _ (by decide), Option.bind_some, entryEdits, editAt_cons]
    cases storeAt (fill sensorsConf) (us ++ ["monitored_sensors"])
        ((Json.obj ms).get "printers") with
    | none => rfl
    | some p₁ =>
      rw [Option.bind_some, Option.bind_some, hstep _ (by decide), hget, editAt_cons]
      cases storeAt (fill fansConf) (us ++ ["fans"]) p₁ with
      | none => rfl
      | some p₂ =>
        rw [Option.bind_some, Option.bind_some, Assoc.insert_insert, hstep _ (by decide), hget,
          editAt_cons]
        cases storeAt migrateMacros (us ++ ["default_macros"]) p₂ with
        | none => rfl
        | some p₃ =>
          rw [Option.bind_some, Option.bind_some, Assoc.insert_insert]
          change applyEdits (("/powerscreen_init_script", fill initScript) :: _) _ = _
          rw [hscript, hstep _ (by decide), editAt_cons, get_insert, if_neg (by decide), hget,
            get_insert, if_neg (by decide)]
          cases storeAt (fill (.str "debug")) (us ++ ["log_level"]) p₃ with
          | none => rfl
          | some p₄ =>
            have hcomm := Assoc.insert_comm (by decide : "printers" ≠ "powerscreen_init_script")
              p₄ (fill initScript ((Json.obj ms).get "powerscreen_init_script"))
              (hms.insert "printers" p₃)
            rw [Assoc.insert_insert] at hcomm
            rw [Option.bind_some, Option.bind_some, hcomm]
            rfl

theorem init_obj (b : Build) (path thumbdir : String) (ms : List (String × Json)) :
    init b path thumbdir (some (.obj ms)) =
      (df? ((Json.obj ms).get "default_printer")).bind fun df =>
        ((applyEdits (df.elim [] printerEdits ++ displayEdits b) (.obj
          (Assoc.insert "default_printer" ((Json.obj ms).get "default_printer")
            (Assoc.insert "config_path" (.str path) ms)))).bind (eraseKey "theme")).map
          fun saved => (saved, df) := by
  have hset : setAt ["config_path"] (.str path) (.obj ms) =
      some (.obj (Assoc.insert "config_path" (.str path) ms)) := rfl
  have hkeep (v : Json) : (if v = .null then .null else v) = v := by
    split_ifs with h
    · exact h.symm
    · rfl
  have hensure (ns : List (String × Json)) : ensureAt ["default_printer"] .null (.obj ns) =
      some (.obj (Assoc.insert "default_printer" ((Json.obj ns).get "default_printer") ns)) := by
    rw [ensureAt, modifyAt_cons_obj, modifyAt, hkeep]
    rfl
  rw [init, Option.getD_some, hset, Option.bind_some, hensure, Option.bind_some, get_insert,
    if_pos rfl, get_insert, if_neg (by decide)]

/-- A start without a default printer. -/
theorem init_absent (b : Build) (path thumbdir : String)
    (hdefault : (Json.obj ms).get "default_printer" = .null) :
    init b path thumbdir (some (.obj ms)) =
      some (.obj (Assoc.erase "theme" (updateAll (topEdits b path none) ms)), none) := by
  have htop : updateAll (topEdits b path none) ms = updateAll (displayKeys b)
      (Assoc.insert "default_printer" .null (Assoc.insert "config_path" (.str path) ms)) := by
    simp only [topEdits, Option.elim, List.nil_append, updateAll_cons, id]
    rw [get_insert, if_neg (by decide), hdefault]
  rw [init_obj, hdefault, df?, Option.bind_some, Option.elim, List.nil_append, applyEdits_display,
    htop]
  rfl

/-- A start with a default printer. -/
theorem init_named (b : Build) (path thumbdir : String) (hms : Assoc.Sorted ms)
    (hdefault : (Json.obj ms).get "default_printer" = .str name) :
    init b path thumbdir (some (.obj ms)) =
      ((nameTokens name).bind fun us => editAt us entryEdits ((Json.obj ms).get "printers")).map
        fun ps => (.obj (Assoc.erase "theme" (updateAll (topEdits b path (some ps)) ms)),
          some (dfPath name)) := by
  have hsorted := (hms.insert "config_path" (.str path)).insert "default_printer" (.str name)
  rw [init_obj, hdefault, df?, Option.bind_some, Option.elim, applyEdits_append,
    applyEdits_printer name hsorted, get_insert, if_neg (by decide), get_insert,
    if_neg (by decide), get_insert, if_neg (by decide), get_insert, if_neg (by decide)]
  cases (nameTokens name).bind fun us =>
      editAt us entryEdits ((Json.obj ms).get "printers") with
  | none => rfl
  | some ps =>
    have htop : updateAll (topEdits b path (some ps)) ms = updateAll (displayKeys b)
        (Assoc.insert "powerscreen_init_script"
          (fill initScript ((Json.obj ms).get "powerscreen_init_script"))
          (Assoc.insert "printers" ps (Assoc.insert "default_printer" (.str name)
            (Assoc.insert "config_path" (.str path) ms)))) := by
      simp only [topEdits, Option.elim, List.cons_append, List.nil_append, updateAll_cons, id]
      have hget : (Json.obj (Assoc.insert "config_path" (.str path) ms)).get "default_printer" =
          .str name := by rw [get_insert, if_neg (by decide), hdefault]
      rw [hget, get_insert, if_neg (by decide), get_insert, if_neg (by decide), get_insert,
        if_neg (by decide)]
    rw [Option.map_some, Option.bind_some, applyEdits_display, Option.map_some, htop]
    rfl

/-- What a start saves, given the list of printers it comes to. -/
def saved (b : Build) (path : String) (printers : Option Json) (ms : List (String × Json)) : Json :=
  .obj (Assoc.erase "theme" (updateAll (topEdits b path printers) ms))

theorem get?_saved (b : Build) (path : String) (printers : Option Json) (ms : List (String × Json))
    {k : String} (hk : k ≠ "theme") : (saved b path printers ms).get? k =
      (((topEdits b path printers).lookup k).map fun f => f ((Json.obj ms).get k)).or
        (ms.lookup k) := by
  rw [saved, Json.get?, Json.members, Assoc.lookup_erase, if_neg hk,
    lookup_updateAll (nodup_topEdits b path printers)]

theorem get_saved_default (b : Build) (path : String) (printers : Option Json)
    (ms : List (String × Json)) :
    (saved b path printers ms).get "default_printer" = (Json.obj ms).get "default_printer" := by
  rw [Json.get, get?_saved b path printers ms (by decide)]
  rfl

theorem get?_saved_printers (b : Build) (path : String) (ps : Json) (ms : List (String × Json)) :
    (saved b path (some ps) ms).get? "printers" = some ps := by
  rw [get?_saved b path (some ps) ms (by decide)]
  rfl

theorem theme_notMem_topEdits (b : Build) (path : String) (printers : Option Json) :
    "theme" ∉ (topEdits b path printers).map Prod.fst := by
  cases printers with
  | none => exact (by decide : "theme" ∉ ["config_path", "default_printer", "display_rotate",
      "touch_calibrated", "prompt_emergency_stop", "display_sleep_sec"])
  | some ps => exact (by decide : "theme" ∉ ["config_path", "default_printer", "printers",
      "powerscreen_init_script", "display_rotate", "touch_calibrated", "prompt_emergency_stop",
      "display_sleep_sec"])

theorem saved_again (b : Build) (path : String) (printers : Option Json)
    (hms : Assoc.Sorted ms) : saved b path printers (saved b path printers ms).members =
      saved b path printers ms :=
  congrArg Json.obj (erase_updateAll_idem (nodup_topEdits b path printers)
    (topEdits_idem b path printers) (theme_notMem_topEdits b path printers) hms)

theorem sorted_saved (b : Build) (path : String) (printers : Option Json)
    (hms : Assoc.Sorted ms) : Assoc.Sorted (saved b path printers ms).members :=
  (sorted_updateAll hms).erase "theme"

/-- A second start without a default printer. -/
theorem init_again_absent (b : Build) (path thumbdir : String) (hms : Assoc.Sorted ms)
    (hdefault : (Json.obj ms).get "default_printer" = .null) :
    init b path thumbdir (some (saved b path none ms)) = some (saved b path none ms, none) := by
  have hnull : (Json.obj (saved b path none ms).members).get "default_printer" = .null :=
    (get_saved_default b path none ms).trans hdefault
  have hagain := init_absent b path thumbdir hnull
  exact hagain.trans (congrArg (fun d => some (d, none)) (saved_again b path none hms))

/-- A second start with a default printer, whose edits find themselves. -/
theorem init_again_named (b : Build) (path thumbdir : String) (hms : Assoc.Sorted ms)
    (hdefault : (Json.obj ms).get "default_printer" = .str name) {us : List String} {ps : Json}
    (hus : nameTokens name = some us) (hps : editAt us entryEdits ps = some ps) :
    init b path thumbdir (some (saved b path (some ps) ms)) =
      some (saved b path (some ps) ms, some (dfPath name)) := by
  have hname := (get_saved_default b path (some ps) ms).trans hdefault
  have hprinters : (saved b path (some ps) ms).get "printers" = ps := by
    rw [Json.get, get?_saved_printers, Option.getD_some]
  have hagain := init_named b path thumbdir
    (sorted_saved b path (some ps) hms) hname
  have hobj : Json.obj (saved b path (some ps) ms).members = saved b path (some ps) ms := rfl
  rw [hobj, hus, Option.bind_some, hprinters, hps, Option.map_some] at hagain
  exact hagain.trans
    (congrArg (fun d => some (d, some (dfPath name))) (saved_again b path (some ps) hms))

end Start

end PowerScreen.Config
