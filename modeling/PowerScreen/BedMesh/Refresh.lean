import PowerScreen.BedMesh.ProfileName

/-! # What a refresh shows

The refresh for a named profile in terms of the accumulated bed mesh: what it needs to be
able to read, what it shows, and what it leaves in the store.
-/
namespace PowerScreen.BedMesh
open Library Library.Run

/-- What is seen of the panel. -/
structure View where
  activeProfile : String
  saveEnabled : Bool
  mesh : Option (List (List ℚ))
  profiles : Option (List Row)
deriving DecidableEq

def Panel.view (p : Panel) : View where
  activeProfile := p.activeProfile
  saveEnabled := p.saveEnabled
  mesh := if p.meshHidden then none else some p.mesh
  profiles := p.profiles

/-- What is accumulated of the bed mesh. -/
def bedMesh (s : State) : Json := (s.data.get "printer_state").get "bed_mesh"

/-- The store has objects where it has anything. -/
structure Records (s : State) : Prop where
  printer : (s.data.get "printer_state").IsRecord
  mesh : (bedMesh s).IsRecord

theorem get_data_of_insert {s s' : State} {key : String} {v : Json}
    (h : s'.entries = Assoc.insert key v s.entries) : s'.data.get key = v := by
  rw [Json.get, Json.get?, State.data, h, Json.members, Assoc.lookup_insert_self, Option.getD_some]

/-- A read below the bed mesh creates nothing elsewhere. -/
theorem exists_read {s : State} (h : Records s) (ts : List String) {j v : Json}
    (hj : Json.getAt ts (bedMesh s) = some j) (hv : Json.modifyAt id ts (bedMesh s) = some v) :
    ∃ s', s.read "printer_state" ("bed_mesh" :: ts) = some (j, s') ∧ bedMesh s' = v ∧
      (v.IsRecord → Records s') := by
  have hkey : Json.IsKey "bed_mesh" := by decide
  have hget : Json.getAt ("bed_mesh" :: ts) (s.data.get "printer_state") = some j := by
    rw [h.printer.getAt hkey]
    exact hj
  have hmod : Json.modifyAt id ("bed_mesh" :: ts) (s.data.get "printer_state") =
      some (.obj (Assoc.insert "bed_mesh" v (s.data.get "printer_state").members)) := by
    rw [h.printer.modifyAt hkey]
    exact congrArg (Option.map _) hv
  obtain ⟨⟨i, s'⟩, hread⟩ := Option.isSome_iff_exists.mp
    (show (s.read "printer_state" ("bed_mesh" :: ts)).isSome by
      rw [State.isSome_read, hget, Option.isSome_some])
  obtain ⟨hi, w, hw, hs⟩ := State.read_eq_some.mp hread
  rw [hget] at hi
  rw [hmod] at hw
  cases hi
  cases hw
  have hdata := get_data_of_insert hs
  have hmesh : bedMesh s' = v := by
    rw [bedMesh, hdata, Json.get_insert, if_pos rfl]
  refine ⟨s', hread, hmesh, fun hrecord => ⟨?_, hmesh.symm ▸ hrecord⟩⟩
  rw [hdata]
  exact Json.isRecord_obj _

/-- A field of the bed mesh is read as it is. -/
theorem exists_read_field {s : State} (h : Records s) {field : String}
    (hkey : Json.IsKey field) :
    ∃ s', s.read "printer_state" ["bed_mesh", field] = some ((bedMesh s).get field, s') ∧
      Records s' ∧ ∀ k, (bedMesh s').get k = (bedMesh s).get k := by
  obtain ⟨s', hread, hmesh, hrecords⟩ := exists_read h [field]
    (h.mesh.getAt hkey []) (h.mesh.modifyAt hkey id [])
  refine ⟨s', hread, hrecords (Json.isRecord_obj _), fun k => ?_⟩
  rw [hmesh, Json.get_insert]
  split_ifs with hk
  · rw [hk]
    rfl
  · rfl

/-- A field that a report carries, or what has been accumulated. -/
def given (b d : Json) (field : String) : Json :=
  if d.get field = .null then b.get field else d.get field

theorem exists_orStored {s : State} (h : Records s) (d : Json) {field : String}
    (hkey : Json.IsKey field) :
    ∃ s', orStored s (d.get field) field = some (given (bedMesh s) d field, s') ∧
      Records s' ∧ ∀ k, (bedMesh s').get k = (bedMesh s).get k := by
  unfold orStored given
  split_ifs with hnull
  · exact exists_read_field h hkey
  · exact ⟨s, rfl, h, fun _ => rfl⟩

variable (toInt : ToInt)

def paramsIn (b : Json) (name : String) : Option Json :=
  (tokensOf name).bind fun ts => Json.getAt ts (b.get "profiles")

/-- The profiles of the store when the parameters of one have been looked up. -/
def profilesAfter (b : Json) (name : String) : Json :=
  if name = "" then b.get "profiles"
  else ((tokensOf name).bind fun ts => Json.modifyAt id ts (b.get "profiles")).getD .null

/-- The parameters and the mesh of a profile can be read. -/
def Loads (b d : Json) (name : String) : Prop :=
  name ≠ "" → ((paramsIn b name).bind (infoRows toInt)).isSome ∧
    (matrix? (given b d "probed_matrix")).isSome

/-- What a refresh shows of a report and of what has been accumulated. -/
def shown (b d : Json) (name : String) : View where
  activeProfile := name
  saveEnabled := name ≠ ""
  mesh := if name = "" then none else matrix? (given b d "probed_matrix")
  profiles := profileRows name
    (if d.get "profiles" = .null then profilesAfter b name else d.get "profiles")

theorem tokensOf_ne_nil {name : String} {ts : List String} (h : tokensOf name = some ts) :
    ∃ t us, ts = t :: us := by
  obtain ⟨p, ps, hsplit, -⟩ := Json.splitOn_head '/' name.toList "mesh_params".toList
  rw [tokensOf, hsplit, List.mapM_cons] at h
  obtain ⟨t, -, hrest⟩ := Option.bind_eq_some_iff.mp h
  obtain ⟨us, -, hcons⟩ := Option.bind_eq_some_iff.mp hrest
  exact ⟨t, us, (Option.some.inj hcons).symm⟩

theorem readPointer_profile (s : State) (name : String) :
    s.readPointer (profilePointer name) = (tokensOf name).bind fun ts =>
      s.read "printer_state" ("bed_mesh" :: "profiles" :: ts) := by
  rw [State.readPointer, parsePointer_profile]
  cases tokensOf name <;> rfl

/-- Where parameters are read the look-up leaves the profiles with their place in them. -/
theorem exists_tokens {b : Json} {name : String} (hname : name ≠ "") {params : Json}
    (hparams : paramsIn b name = some params) :
    ∃ ts, tokensOf name = some ts ∧ Json.getAt ts (b.get "profiles") = some params ∧
      Json.modifyAt id ts (b.get "profiles") = some (profilesAfter b name) := by
  obtain ⟨ts, hts, hget⟩ := Option.bind_eq_some_iff.mp hparams
  obtain ⟨v, hv⟩ := Option.isSome_iff_exists.mp
    (show (Json.modifyAt id ts (b.get "profiles")).isSome by
      rw [Json.isSome_modifyAt, hget, Option.isSome_some])
  refine ⟨ts, hts, hget, ?_⟩
  rw [profilesAfter, if_neg hname, hts, Option.bind_some, hv, Option.getD_some]

/-- The parameters are read, and the place of the profile is there afterwards. -/
theorem exists_readPointer {s : State} (h : Records s) {name : String} (hname : name ≠ "")
    {params : Json} (hparams : paramsIn (bedMesh s) name = some params) :
    ∃ s', s.readPointer (profilePointer name) = some (params, s') ∧ Records s' ∧
      ∀ k, (bedMesh s').get k =
        if k = "profiles" then profilesAfter (bedMesh s) name else (bedMesh s).get k := by
  have hkey : Json.IsKey "profiles" := by decide
  obtain ⟨ts, hts, hget, hv⟩ := exists_tokens hname hparams
  obtain ⟨s', hread, hmesh, hrecords⟩ := exists_read h ("profiles" :: ts)
    ((h.mesh.getAt hkey ts).trans hget)
    ((h.mesh.modifyAt hkey id ts).trans (congrArg (Option.map _) hv))
  refine ⟨s', ?_, hrecords (Json.isRecord_obj _), fun k => ?_⟩
  · rw [readPointer_profile, hts]
    exact hread
  · rw [hmesh, Json.get_insert]

theorem readPointer_eq_none {s : State} (h : Records s) {name : String}
    (hparams : paramsIn (bedMesh s) name = none) :
    s.readPointer (profilePointer name) = none := by
  rw [readPointer_profile]
  rw [paramsIn] at hparams
  cases hts : tokensOf name with
  | none => rfl
  | some ts =>
    rw [hts, Option.bind_some] at hparams
    rw [Option.bind_some, ← Option.isNone_iff_eq_none, ← Option.not_isSome, State.isSome_read,
      h.printer.getAt (by decide)]
    change (!(Json.getAt ("profiles" :: ts) (bedMesh s)).isSome) = true
    rw [h.mesh.getAt (by decide), hparams]
    rfl

/-- What the refresh of a named profile leaves in the store. -/
def Leaves (s s' : State) (name : String) : Prop :=
  Records s' ∧ ∀ k, (bedMesh s').get k =
    if k = "profiles" then profilesAfter (bedMesh s) name else (bedMesh s).get k

theorem Leaves.of_same {s t s' : State} {name : String} (h : Leaves s t name) (hs' : Records s')
    (hsame : ∀ k, (bedMesh s').get k = (bedMesh t).get k) : Leaves s s' name :=
  ⟨hs', fun k => (hsame k).trans (h.2 k)⟩

section
variable {s : State} (h : Records s) (p : Panel) {d : Json} (hd : d.IsRecord) {name : String}
include h hd

theorem showMesh_of_loads (hname : name ≠ "") {params : Json} {rows : List (String × Cell)}
    {mesh : List (List ℚ)} (hparams : paramsIn (bedMesh s) name = some params)
    (hrows : infoRows toInt params = some rows)
    (hmesh : matrix? (given (bedMesh s) d "probed_matrix") = some mesh) :
    ∃ s' q, showMesh toInt s p d name = some (s', q) ∧ Leaves s s' name ∧
      q.activeProfile = name ∧ q.saveEnabled = true ∧ q.view.mesh = some mesh := by
  have hkey : Json.IsKey "probed_matrix" := by decide
  obtain ⟨t, hread, hleaves⟩ := exists_readPointer h hname hparams
  have hfield : (bedMesh t).get "probed_matrix" = (bedMesh s).get "probed_matrix" := by
    rw [hleaves.2, if_neg (by decide)]
  rw [given, ← hfield] at hmesh
  obtain ⟨s', hstored, hs', hsame⟩ := exists_orStored hleaves.1 d hkey
  refine ⟨s', { p with
    activeProfile := name
    saveEnabled := true
    meshHidden := false
    mesh := mesh
    profileLabel := name
    stats := if mesh.isEmpty then p.stats else some (lowest mesh, highest mesh)
    profileInfo := rows ++ p.profileInfo.drop rows.length }, ?_,
    Leaves.of_same hleaves hs' hsame, rfl, rfl, rfl⟩
  have hget : Json.getAt ["probed_matrix"] d = some (d.get "probed_matrix") := hd.getAt hkey []
  rw [given] at hstored
  simp only [showMesh, refreshProfileInfo, hread, hrows, hget, hstored, hmesh,
    Option.bind_eq_bind, Option.bind_some, Option.pure_def]

theorem activate_of_loads (hloads : Loads toInt (bedMesh s) d name) :
    ∃ s' q, activate toInt s p d name = some (s', q) ∧ Leaves s s' name ∧
      q.activeProfile = name ∧ q.saveEnabled = decide (name ≠ "") ∧
        q.view.mesh = if name = "" then none else matrix? (given (bedMesh s) d "probed_matrix") := by
  by_cases hname : name = ""
  · refine ⟨s, { p with activeProfile := name, meshHidden := true, saveEnabled := false },
      if_pos hname, ⟨h, fun k => ?_⟩, rfl, by simp [hname], ?_⟩
    · split_ifs with hk
      · rw [profilesAfter, if_pos hname, hk]
      · rfl
    · rw [if_pos hname]
      rfl
  · obtain ⟨hread, hmatrix⟩ := hloads hname
    obtain ⟨rows, hbind⟩ := Option.isSome_iff_exists.mp hread
    obtain ⟨params, hparams, hrows⟩ := Option.bind_eq_some_iff.mp hbind
    obtain ⟨mesh, hmesh⟩ := Option.isSome_iff_exists.mp hmatrix
    obtain ⟨s', q, hshow, hleaves, hactive, hsave, hview⟩ :=
      showMesh_of_loads toInt h p hd hname hparams hrows hmesh
    refine ⟨s', q, (if_neg hname).trans hshow, hleaves, hactive, ?_, ?_⟩
    · rw [hsave, decide_eq_true hname]
    · rw [hview, if_neg hname, hmesh]

theorem refreshNamed_of_loads (hloads : Loads toInt (bedMesh s) d name) :
    ∃ s' q, refreshNamed toInt s p d name = some (s', q) ∧ Leaves s s' name ∧
      q.view = shown (bedMesh s) d name := by
  have hkey : Json.IsKey "profiles" := by decide
  obtain ⟨t, q, hactivate, hleaves, hactive, hsave, hmesh⟩ := activate_of_loads toInt h p hd hloads
  obtain ⟨s', hstored, hs', hsame⟩ := exists_orStored hleaves.1 d hkey
  have hprofiles : (bedMesh t).get "profiles" = profilesAfter (bedMesh s) name := by
    rw [hleaves.2, if_pos rfl]
  rw [given, hprofiles] at hstored
  refine ⟨s', { q with profiles := (shown (bedMesh s) d name).profiles }, ?_,
    Leaves.of_same hleaves hs' hsame, ?_⟩
  · have hget : Json.getAt ["profiles"] d = some (d.get "profiles") := hd.getAt hkey []
    simp only [refreshNamed, hactivate, hget, hstored, Option.bind_eq_bind, Option.bind_some,
      Option.pure_def]
    rfl
  · rw [Panel.view, shown, View.mk.injEq]
    exact ⟨hactive, hsave, hmesh, rfl⟩

theorem refreshNamed_of_not_loads (hloads : ¬ Loads toInt (bedMesh s) d name) :
    refreshNamed toInt s p d name = none := by
  rw [Loads, Classical.not_imp] at hloads
  obtain ⟨hname, hbad⟩ := hloads
  suffices hshow : showMesh toInt s p d name = none by
    rw [refreshNamed, activate, if_neg hname, hshow]
    rfl
  cases hparams : paramsIn (bedMesh s) name with
  | none =>
    rw [showMesh, refreshProfileInfo, readPointer_eq_none h hparams]
    rfl
  | some params =>
    obtain ⟨t, hread, hleaves⟩ := exists_readPointer h hname hparams
    cases hrows : infoRows toInt params with
    | none =>
      simp only [showMesh, refreshProfileInfo, hread, hrows, Option.bind_eq_bind,
        Option.bind_some, Option.bind_none]
    | some rows =>
      have hkey : Json.IsKey "probed_matrix" := by decide
      have hget : Json.getAt ["probed_matrix"] d = some (d.get "probed_matrix") :=
        hd.getAt hkey []
      have hfield : (bedMesh t).get "probed_matrix" = (bedMesh s).get "probed_matrix" := by
        rw [hleaves.2, if_neg (by decide)]
      have hmatrix : matrix? (given (bedMesh t) d "probed_matrix") = none := by
        rw [hparams, Option.bind_some, hrows] at hbad
        rw [given, hfield]
        simpa [given] using hbad
      obtain ⟨s', hstored, -⟩ := exists_orStored hleaves.1 d hkey
      simp only [showMesh, refreshProfileInfo, hread, hrows, hget, hstored, hmatrix,
        Option.bind_eq_bind, Option.bind_some, Option.pure_def, Option.bind_none]

end

theorem refreshViews_eq (s : State) (p : Panel) {d : Json} (hd : d.IsRecord) (hnull : d ≠ .null) :
    refreshViews toInt s p d = match d.get "profile_name" with
      | .null => some (s, { p with saveEnabled := false })
      | .str name => refreshNamed toInt s p d name
      | _ => none := by
  have hget : Json.getAt ["profile_name"] d = some (d.get "profile_name") :=
    hd.getAt (by decide) []
  rw [refreshViews, if_neg hnull, hget]
  exact Option.bind_some _ _

/-- The parameters are found again where they have been looked up. -/
theorem paramsIn_again {b c : Json} {name : String} (hname : name ≠ "")
    (hprofiles : c.get "profiles" = profilesAfter b name) {params : Json}
    (hparams : paramsIn b name = some params) : paramsIn c name = some params := by
  obtain ⟨ts, hts, hget, hv⟩ := exists_tokens hname hparams
  rw [paramsIn, hts, Option.bind_some, hprofiles, Json.getAt_modifyAt_id hv, hget]

theorem profilesAfter_ne_null {b : Json} {name : String} (hname : name ≠ "") {params : Json}
    (hparams : paramsIn b name = some params) : profilesAfter b name ≠ .null := by
  obtain ⟨ts, hts, -, hv⟩ := exists_tokens hname hparams
  obtain ⟨t, us, rfl⟩ := tokensOf_ne_nil hts
  exact Json.modifyAt_cons_ne_null hv

/-- A second refresh, from the store that the first has left, shows the profiles of the store
and else the same. -/
theorem shown_again {b c d : Json} {name : String} (hloads : Loads toInt b d name)
    (hmatrix : (matrix? (given b d "probed_matrix")).isSome →
      given b d "probed_matrix" = b.get "probed_matrix")
    (hfield : c.get "probed_matrix" = b.get "probed_matrix")
    (hprofiles : c.get "profiles" = profilesAfter b name) :
    Loads toInt c c name ∧
      shown c c name =
        { shown b d name with profiles := profileRows name (profilesAfter b name) } := by
  have hgiven : given c c "probed_matrix" = c.get "probed_matrix" := ite_self _
  by_cases hname : name = ""
  · have hafter : profilesAfter c name = profilesAfter b name := by
      rw [profilesAfter, if_pos hname, hprofiles]
    refine ⟨fun h => absurd hname h, ?_⟩
    simp only [shown, if_pos hname, hafter, hprofiles, ite_self]
  · obtain ⟨hread, hsome⟩ := hloads hname
    obtain ⟨rows, hbind⟩ := Option.isSome_iff_exists.mp hread
    obtain ⟨params, hparams, hrows⟩ := Option.bind_eq_some_iff.mp hbind
    have hsame : given c c "probed_matrix" = given b d "probed_matrix" := by
      rw [hgiven, hfield, hmatrix hsome]
    refine ⟨fun _ => ⟨?_, hsame ▸ hsome⟩, ?_⟩
    · rw [paramsIn_again hname hprofiles hparams, Option.bind_some, hrows]
      rfl
    · simp only [shown, if_neg hname, hsame, hprofiles, profilesAfter_ne_null hname hparams,
        if_false]

theorem exists_of_matrix {j : Json} (h : (matrix? j).isSome) : ∃ rows, j = .arr rows := by
  cases j with
  | arr rows => exact ⟨rows, rfl⟩
  | _ => cases h

end PowerScreen.BedMesh
