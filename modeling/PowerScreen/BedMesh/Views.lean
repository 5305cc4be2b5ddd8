import PowerScreen.BedMesh.Refresh

/-! # Reports and the whole state

A report refreshes the panel from what it carries, opening the panel from all that is
accumulated. The two agree on what is shown exactly as long as a report without a profile
name has nothing to add, and a report with one lists every profile or none.
-/
namespace PowerScreen.BedMesh
open Library Library.Run

theorem profileRows_inj {name : String} {a b : Json} :
    profileRows name a = profileRows name b ↔ itemKeys a = itemKeys b := by
  refine ⟨fun h => ?_, fun h => by rw [profileRows, profileRows, h]⟩
  have hrow : Function.Injective (row name) := fun x y hxy => by
    have hname : (row name x).name = (row name y).name := congrArg Row.name hxy
    unfold row at hname
    split_ifs at hname <;> exact hname
  unfold profileRows at h
  split_ifs at h with ha hb hb
  · rw [ha, hb]
  · exact List.map_injective_iff.mpr hrow (Option.some.inj h)

namespace Screen

variable (toInt : ToInt)

/-- Opening the panel would show nothing else. -/
def Follows (s : Screen) : Prop :=
  s.running ∧ (foreground toInt s.store s.panel).map (fun r => r.2.view) = some s.panel.view

/-- With a profile name a report lists the profiles that are stored once that name has been
looked up, or none. Without one it adds nothing to what is shown. -/
def Complete (stored b d : Json) : Prop :=
  match d.get "profile_name" with
  | .null => b.get "profile_name" = .null ∨ b.get "profile_name" = .str "" ∧
      itemKeys (stored.get "profiles") = itemKeys (b.get "profiles")
  | .str name => Loads toInt b d name ∧
      (d.get "profiles" ≠ .null → itemKeys (d.get "profiles") = itemKeys (profilesAfter b name))
  | _ => False

/-- What is accumulated counts with the report. -/
def Agrees (s : Screen) : Event → Prop
  | .connected => True
  | .report st => carried st ≠ .null →
      Complete toInt (bedMesh s.store) (bedMesh (s.merged st)) (carried st)

/-- What opening the panel shows is what it already shows. -/
theorem foreground_iff {s : State} (h : Records s) (p : Panel) :
    (foreground toInt s p).map (fun r => r.2.view) = some p.view ↔
      bedMesh s = .null ∨
        (bedMesh s).get "profile_name" = .null ∧ p.saveEnabled = false ∨
          ∃ name, (bedMesh s).get "profile_name" = .str name ∧
            Loads toInt (bedMesh s) (bedMesh s) name ∧
              p.view = shown (bedMesh s) (bedMesh s) name := by
  obtain ⟨t, hread, hmesh, hrecords⟩ := exists_read h [] rfl rfl
  have hsame : bedMesh t = bedMesh s := hmesh
  have ht : Records t := hrecords h.mesh
  have hforeground : foreground toInt s p = refreshViews toInt t p (bedMesh s) := by
    rw [foreground, hread]
    rfl
  rw [hforeground, ← hsame]
  by_cases hnull : bedMesh t = .null
  · rw [refreshViews, if_pos hnull]
    exact iff_of_true rfl (Or.inl hnull)
  rw [refreshViews_eq toInt t p ht.mesh hnull]
  simp only [hnull, false_or]
  cases hname : (bedMesh t).get "profile_name" with
  | null =>
    simp only [Option.map_some, Option.some.injEq, Panel.view, View.mk.injEq, true_and,
      and_true, reduceCtorEq, false_and, exists_false, or_false]
    exact eq_comm
  | str name =>
    simp only [Json.str.injEq, exists_eq_left', reduceCtorEq, false_and, false_or]
    by_cases hloads : Loads toInt (bedMesh t) (bedMesh t) name
    · obtain ⟨t', q, hrefresh, -, hview⟩ := refreshNamed_of_loads toInt ht p ht.mesh hloads
      rw [hrefresh, Option.map_some, hview, Option.some.injEq, eq_comm]
      simp only [hloads, true_and]
    · rw [refreshNamed_of_not_loads toInt ht p ht.mesh hloads]
      simp [hloads]
  | _ => simp

theorem get_data_merged (s : Screen) (st : Status) : (s.merged st).data.get "printer_state" =
    Json.mergePatch (s.store.data.get "printer_state") st.json :=
  get_data_of_insert (s := s.store) rfl

/-- A report is merged object by object. -/
theorem bedMesh_merged (s : Screen) (st : Status) : bedMesh (s.merged st) =
    if carried st = .null then bedMesh s.store
    else Json.mergePatch (bedMesh s.store) (carried st) := by
  have hsorted : Assoc.Sorted (st.objects.map fun o => (o.1, Json.obj o.2)) :=
    (Json.sorted_obj_iff.mp st.sorted_json).1
  rw [bedMesh, get_data_merged, Json.get, Status.json, Json.get?_mergePatch hsorted, Status.lookup_json]
  unfold carried
  cases st.objects.lookup "bed_mesh" with
  | none => rfl
  | some fields => simp [bedMesh]

/-- A report about the bed mesh is a patch of its fields. -/
theorem exists_fields (s : Screen) {st : Status} (hd : carried st ≠ .null) :
    ∃ fields, carried st = .obj fields ∧ Assoc.Sorted fields ∧
      bedMesh (s.merged st) = Json.mergePatch (bedMesh s.store) (.obj fields) := by
  have hmerged := bedMesh_merged s st
  rw [if_neg hd] at hmerged
  unfold carried at hd hmerged ⊢
  cases hfields : st.objects.lookup "bed_mesh" with
  | none => simp [hfields] at hd
  | some fields =>
    rw [hfields] at hmerged
    have hsorted : Assoc.Sorted fields :=
      (Json.sorted_obj_iff.mp (st.fields _ (Assoc.mem_of_lookup hfields))).1
    exact ⟨fields, rfl, hsorted, hmerged⟩

theorem records_merged {s : Screen} (h : Records s.store) (st : Status) :
    Records (s.merged st) := by
  constructor
  · rw [get_data_merged]
    exact Json.isRecord_obj _
  · by_cases hd : carried st = .null
    · rw [bedMesh_merged, if_pos hd]
      exact h.mesh
    · obtain ⟨fields, -, -, hmerged⟩ := exists_fields s hd
      rw [hmerged]
      exact Json.isRecord_obj _

theorem isRecord_carried (st : Status) : (carried st).IsRecord := by
  unfold carried
  cases st.objects.lookup "bed_mesh" with
  | none => exact Or.inl rfl
  | some fields => exact Json.isRecord_obj fields

/-- A field without a new value stays, or is erased. -/
theorem get_merged_of_null {s : Screen} {st : Status} (hd : carried st ≠ .null) {field : String}
    (hfield : (carried st).get field = .null) :
    (bedMesh (s.merged st)).get field = (bedMesh s.store).get field ∨
      (bedMesh (s.merged st)).get field = .null := by
  obtain ⟨fields, hfields, hsorted, hmerged⟩ := exists_fields s hd
  rw [hmerged, Json.get, Json.get?_mergePatch hsorted]
  cases hlook : fields.lookup field with
  | none => exact Or.inl rfl
  | some v =>
    have hv : v = .null := by simpa [hfields, Json.get, Json.get?, Json.members, hlook] using hfield
    exact Or.inr (by simp [hv])

/-- A new value that is no object replaces the old one. -/
theorem get_merged_of_scalar {s : Screen} {st : Status} {field : String} {v : Json}
    (hfield : (carried st).get field = v) (hv : v ≠ .null) (hobject : v.isObject = false) :
    (bedMesh (s.merged st)).get field = v := by
  have hd : carried st ≠ .null := fun hnull => hv (by rw [← hfield, hnull]; rfl)
  obtain ⟨fields, hfields, hsorted, hmerged⟩ := exists_fields s hd
  rw [hmerged, Json.get, Json.get?_mergePatch hsorted]
  cases hlook : fields.lookup field with
  | none =>
    have hnull : Json.null = v := by
      simpa [hfields, Json.get, Json.get?, Json.members, hlook] using hfield
    exact absurd hnull.symm hv
  | some w =>
    have hw : w = v := by simpa [hfields, Json.get, Json.get?, Json.members, hlook] using hfield
    simp [hw, hv, Json.mergePatch_of_not_object _ hobject]

/-- The mesh that a report carries is the one that is then accumulated. -/
theorem given_of_matrix (s : Screen) (st : Status)
    (hsome : (matrix? (given (bedMesh (s.merged st)) (carried st) "probed_matrix")).isSome) :
    given (bedMesh (s.merged st)) (carried st) "probed_matrix" =
      (bedMesh (s.merged st)).get "probed_matrix" := by
  unfold given at hsome ⊢
  split_ifs at hsome ⊢ with hnull
  · rfl
  · obtain ⟨rows, hrows⟩ := exists_of_matrix hsome
    rw [hrows]
    exact (get_merged_of_scalar hrows Json.noConfusion rfl).symm

theorem shown_empty (b : Json) :
    shown b b "" = ⟨"", false, none, profileRows "" (b.get "profiles")⟩ := by
  simp [shown, profilesAfter]

/-- A step that goes on. -/
theorem follows_of_refresh {s : Screen} (hrun : s.running) {st : Status} {t : State} {q : Panel}
    (hrefresh : refreshViews toInt (s.merged st) s.panel (carried st) = some (t, q)) :
    (s.step toInt (.report st)).Follows toInt ↔
      (foreground toInt t q).map (fun r => r.2.view) = some q.view := by
  have hstep : s.step toInt (.report st) = { s with store := t, panel := q } := by
    rw [step, if_pos hrun]
    simp only [consume, hrefresh, Option.map_some, Option.getD_some]
  rw [hstep, Follows]
  exact and_iff_right hrun

theorem not_follows_of_exception {s : Screen} (hrun : s.running) {st : Status}
    (hrefresh : refreshViews toInt (s.merged st) s.panel (carried st) = none) :
    ¬ (s.step toInt (.report st)).Follows toInt := by
  have hstep : s.step toInt (.report st) = { s with running := false } := by
    rw [step, if_pos hrun]
    simp only [consume, hrefresh, Option.map_none, Option.getD_none]
  rw [hstep, Follows]
  exact fun hfollows => Bool.false_ne_true hfollows.1

section
variable {s : Screen} (h : Records s.store) (hrun : s.running)
include h hrun

/-- A report without a bed mesh changes nothing that is shown. -/
theorem follows_of_nothing {st : Status} (hd : carried st = .null)
    (hf : (foreground toInt s.store s.panel).map (fun r => r.2.view) = some s.panel.view) :
    (s.step toInt (.report st)).Follows toInt := by
  have hsame : bedMesh (s.merged st) = bedMesh s.store := by
    rw [bedMesh_merged, if_pos hd]
  have hrefresh : refreshViews toInt (s.merged st) s.panel (carried st) =
      some (s.merged st, s.panel) := if_pos hd
  rw [follows_of_refresh toInt hrun hrefresh, foreground_iff toInt (records_merged h st), hsame]
  exact (foreground_iff toInt h s.panel).mp hf

/-- Without a profile name only the save button changes. -/
theorem follows_of_unnamed {st : Status} (hd : carried st ≠ .null)
    (hname : (carried st).get "profile_name" = .null)
    (hf : (foreground toInt s.store s.panel).map (fun r => r.2.view) = some s.panel.view) :
    (s.step toInt (.report st)).Follows toInt ↔
      (bedMesh (s.merged st)).get "profile_name" = .null ∨
        (bedMesh (s.merged st)).get "profile_name" = .str "" ∧
          itemKeys ((bedMesh s.store).get "profiles") =
            itemKeys ((bedMesh (s.merged st)).get "profiles") := by
  have hrefresh : refreshViews toInt (s.merged st) s.panel (carried st) =
      some (s.merged st, { s.panel with saveEnabled := false }) := by
    rw [refreshViews_eq toInt _ _ (isRecord_carried st) hd, hname]
  rw [follows_of_refresh toInt hrun hrefresh, foreground_iff toInt (records_merged h st)]
  by_cases hgone : (bedMesh (s.merged st)).get "profile_name" = .null
  · exact iff_of_true (Or.inr (Or.inl ⟨hgone, rfl⟩)) (Or.inl hgone)
  have hkept := (get_merged_of_null hd hname).resolve_right hgone
  have hmesh : bedMesh (s.merged st) ≠ .null := fun hnull => hgone (by rw [hnull]; rfl)
  simp only [hgone, hmesh, false_and, false_or]
  rcases (foreground_iff toInt h s.panel).mp hf with hnull | ⟨hnull, -⟩ | ⟨name, hstored, -, hview⟩
  · exact absurd (hkept.trans (by rw [hnull]; rfl)) hgone
  · exact absurd (hkept.trans hnull) hgone
  rw [hkept, hstored]
  simp only [Json.str.injEq, exists_eq_left']
  have hshown : ({ s.panel with saveEnabled := false } : Panel).view =
      { s.panel.view with saveEnabled := false } := rfl
  rw [hshown, hview]
  by_cases hempty : name = ""
  · subst hempty
    have hloads : ∀ b, Loads toInt b b "" := fun b hne => absurd rfl hne
    simp only [hloads, true_and, shown_empty, View.mk.injEq]
    exact profileRows_inj
  · simp [hempty, shown]

/-- With a profile name the profiles may differ. -/
theorem follows_of_named {st : Status} (hd : carried st ≠ .null) {name : String}
    (hname : (carried st).get "profile_name" = .str name) :
    (s.step toInt (.report st)).Follows toInt ↔
      Loads toInt (bedMesh (s.merged st)) (carried st) name ∧
        ((carried st).get "profiles" ≠ .null → itemKeys ((carried st).get "profiles") =
          itemKeys (profilesAfter (bedMesh (s.merged st)) name)) := by
  have hrecords := records_merged h st
  have hrefresh : refreshViews toInt (s.merged st) s.panel (carried st) =
      refreshNamed toInt (s.merged st) s.panel (carried st) name := by
    rw [refreshViews_eq toInt _ _ (isRecord_carried st) hd, hname]
  by_cases hloads : Loads toInt (bedMesh (s.merged st)) (carried st) name
  · obtain ⟨t, q, hnamed, hleaves, hview⟩ :=
      refreshNamed_of_loads toInt hrecords s.panel (isRecord_carried st) hloads
    have hstored : (bedMesh t).get "profile_name" = .str name := by
      rw [hleaves.2, if_neg (by decide)]
      exact get_merged_of_scalar hname Json.noConfusion rfl
    have hmesh : bedMesh t ≠ .null := fun hnull => by
      rw [hnull] at hstored
      cases hstored
    obtain ⟨hagain, hshown⟩ := shown_again toInt hloads (given_of_matrix s st)
      (by rw [hleaves.2, if_neg (by decide)]) (by rw [hleaves.2, if_pos rfl])
    rw [follows_of_refresh toInt hrun (hrefresh.trans hnamed), foreground_iff toInt hleaves.1]
    simp only [hstored, hmesh, false_or, reduceCtorEq, false_and, Json.str.injEq,
      exists_eq_left', hagain, hloads, true_and, hview, hshown]
    simp only [shown, View.mk.injEq, true_and, profileRows_inj]
    by_cases hlists : (carried st).get "profiles" = .null
    · simp [hlists]
    · simp [hlists]
  · rw [refreshNamed_of_not_loads toInt hrecords s.panel (isRecord_carried st) hloads] at hrefresh
    exact iff_of_false (not_follows_of_exception toInt hrun hrefresh) fun hboth => hloads hboth.1

end

theorem follows_step {s : Screen} (h : Records s.store) {e : Event} (hf : s.Follows toInt) :
    (s.step toInt e).Follows toInt ↔ s.Agrees toInt e := by
  obtain ⟨hrun, hshown⟩ := hf
  cases e with
  | connected =>
    refine iff_of_true ⟨?_, ?_⟩ trivial
    · rw [step, if_pos hrun]
      exact hrun
    · rw [step, if_pos hrun]
      rfl
  | report st =>
    by_cases hd : carried st = .null
    · exact iff_of_true (follows_of_nothing toInt h hrun hd hshown) fun hne => absurd hd hne
    rw [Agrees, imp_iff_right hd, Complete]
    cases hname : (carried st).get "profile_name" with
    | null => exact follows_of_unnamed toInt h hrun hd hname hshown
    | str name => exact follows_of_named toInt h hrun hd hname
    | _ =>
      refine iff_of_false (not_follows_of_exception toInt hrun ?_) id
      rw [refreshViews_eq toInt _ _ (isRecord_carried st) hd, hname]

/-- What a refresh reads it leaves in objects. -/
theorem records_refreshViews {s t : State} (h : Records s) {p q : Panel} {d : Json}
    (hd : d.IsRecord) (hrefresh : refreshViews toInt s p d = some (t, q)) : Records t := by
  by_cases hnull : d = .null
  · rw [refreshViews, if_pos hnull] at hrefresh
    cases hrefresh
    exact h
  rw [refreshViews_eq toInt s p hd hnull] at hrefresh
  cases hname : d.get "profile_name" with
  | null =>
    rw [hname] at hrefresh
    cases hrefresh
    exact h
  | str name =>
    rw [hname] at hrefresh
    change refreshNamed toInt s p d name = some (t, q) at hrefresh
    by_cases hloads : Loads toInt (bedMesh s) d name
    · obtain ⟨t', q', hnamed, hleaves, -⟩ := refreshNamed_of_loads toInt h p hd hloads
      cases hrefresh.symm.trans hnamed
      exact hleaves.1
    · rw [refreshNamed_of_not_loads toInt h p hd hloads] at hrefresh
      cases hrefresh
  | _ =>
    rw [hname] at hrefresh
    cases hrefresh

theorem records_reset (s : State) : Records s.reset := ⟨Or.inl rfl, Or.inl rfl⟩

theorem records_step {s : Screen} (e : Event) (h : Records s.store) :
    Records (s.step toInt e).store := by
  unfold step
  split_ifs
  · cases e with
    | connected => exact records_reset s.store
    | report st =>
      cases hrefresh : refreshViews toInt (s.merged st) s.panel (carried st) with
      | none => simpa [consume, hrefresh] using h
      | some r =>
        have hrecords : Records r.1 :=
          records_refreshViews toInt (records_merged h st) (isRecord_carried st) hrefresh
        simpa [consume, hrefresh] using hrecords
  · exact h

/-- In a run every report leaves the panel as opening it would show it, exactly if none of
them without a profile name has anything to add, and each with one can be read and lists the
profiles of the store if it lists any. -/
theorem views_followed_iff (es : List Event) :
    Throughout (step toInt) (Follows toInt) {} es ↔ EachStep (step toInt) (Agrees toInt) {} es := by
  have hrecords : EachStep (step toInt) (fun s _ => Records s.store) ({} : Screen) es :=
    eachStep_of_invariant (I := fun s : Screen => Records s.store) (fun _ e h => records_step toInt e h)
      ⟨Or.inl rfl, Or.inl rfl⟩ es
  have hstart : Follows toInt {} := ⟨rfl, rfl⟩
  exact throughout_iff_eachStep_of (fun _ _ h hf => follows_step toInt h hf) hstart hrecords

/-- A report about the bed mesh alone. -/
def meshStatus (fields : List (String × Json)) (h : (Json.obj fields).Sorted) : Status where
  objects := [("bed_mesh", fields)]
  keys := List.pairwise_singleton _ _
  fields := fun _ ho => List.mem_singleton.mp ho ▸ h

/-- A profile is active, and then its mesh has a new value. -/
def probedAgain : List Event :=
  [.report (meshStatus [("probed_matrix", .arr [.arr [.num (.float (1 / 10))]]),
      ("profile_name", .str "default"),
      ("profiles", .obj [("default", .obj [("mesh_params", .obj [("algo", .str "lagrange")])])])]
      (by decide +kernel)),
    .report (meshStatus [("probed_matrix", .arr [.arr [.num (.float (1 / 5))]])]
      (by decide +kernel))]

instance (s : Screen) : Decidable (s.Follows toInt) := inferInstanceAs (Decidable (_ ∧ _))

theorem new_mesh_not_shown : ¬ ∀ es : List Event,
    Throughout (step truncate) (Follows truncate) {} es := by
  intro h
  have hrun := throughout_iff_prefix.mp (h probedAgain) _ List.prefix_rfl
  revert hrun
  decide +kernel

end Screen

end PowerScreen.BedMesh
