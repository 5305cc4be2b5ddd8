import PowerScreen.BedMesh.Panel

/-! # The name of a profile in a pointer

The name of the active profile is spliced into the text of a pointer as it is. In the grammar
of pointers a slash separates two tokens and a tilde starts an escape.
-/
namespace PowerScreen.BedMesh
open Library

def paramsPath (name : String) : List String :=
  ["printer_state", "bed_mesh", "profiles", name, "mesh_params"]

/-- The parameters of a profile as Klipper reports them. -/
structure IsParams (j : Json) : Prop where
  object : j.isObject
  algo : ∀ v, j.get? "algo" = some v → ∃ a, v = .str a
  numbers : ∀ k ∈ ["tension", "min_x", "max_x", "x_count", "min_y", "max_y", "y_count"],
    ∀ v, j.get? k = some v → ∃ n, v = .num n

/-- The name is reported as that of the active profile, which is there with its parameters. -/
structure Reports (s : State) (name : String) : Prop where
  active : Json.entryAt ["printer_state", "bed_mesh", "profile_name"] s.data = some (.str name)
  params : ∃ params, Json.entryAt (paramsPath name) s.data = some params ∧ IsParams params

/-- The profile is read at its place, without an exception and with the store left as it is. -/
structure Usable (toInt : ToInt) (s : State) (name : String) : Prop where
  place : Json.parsePointer (profilePointer name) = some (paramsPath name)
  keeps : ∀ info, ∃ info', refreshProfileInfo toInt s info name = some (s, info')

theorem toList_profilePointer (name : String) : (profilePointer name).toList =
    '/' :: ("printer_state".toList ++ '/' :: ("bed_mesh".toList ++ '/' ::
      ("profiles".toList ++ '/' :: (name.toList ++ '/' :: "mesh_params".toList)))) := by
  have hhead : "/printer_state/bed_mesh/profiles/".toList = '/' :: ("printer_state".toList ++
      '/' :: ("bed_mesh".toList ++ '/' :: ("profiles".toList ++ ['/']))) := by decide
  have htail : "/mesh_params".toList = '/' :: "mesh_params".toList := by decide
  calc (profilePointer name).toList
      = "/printer_state/bed_mesh/profiles/".toList ++ name.toList ++ "/mesh_params".toList :=
        String.toList_append.trans (congrArg (· ++ _) String.toList_append)
    _ = _ := by
      rw [hhead, htail]
      simp only [List.append_assoc, List.cons_append, List.nil_append]

/-- What the name and the end of the pointer are read as. -/
def tokensOf (name : String) : Option (List String) :=
  (Json.splitOn '/' (name.toList ++ '/' :: "mesh_params".toList)).mapM fun t =>
    (Json.unescape t).map String.ofList

/-- The first three tokens are always the same. -/
theorem parsePointer_profile (name : String) : Json.parsePointer (profilePointer name) =
    (tokensOf name).map fun ts => "printer_state" :: "bed_mesh" :: "profiles" :: ts := by
  have hsplit : ∀ t ∈ ["printer_state", "bed_mesh", "profiles"], '/' ∉ t.toList := by decide
  rw [Json.parsePointer, toList_profilePointer, tokensOf]
  simp only [Json.splitOn_append (hsplit "printer_state" (by decide)),
    Json.splitOn_append (hsplit "bed_mesh" (by decide)),
    Json.splitOn_append (hsplit "profiles" (by decide)), List.mapM_cons]
  cases (Json.splitOn '/' (name.toList ++ '/' :: "mesh_params".toList)).mapM fun t =>
      (Json.unescape t).map String.ofList with
  | none => rfl
  | some ts => rfl

/-- The pointer leads to the profile exactly for a name without slash and tilde. -/
theorem place_iff (name : String) :
    Json.parsePointer (profilePointer name) = some (paramsPath name) ↔
      '/' ∉ name.toList ∧ '~' ∉ name.toList := by
  rw [parsePointer_profile]
  constructor
  · intro h
    obtain ⟨ts, hts, heq⟩ := Option.map_eq_some_iff.mp h
    have htokens : ts = [name, "mesh_params"] := by simpa [paramsPath] using heq
    obtain ⟨p, ps, hsplit, -⟩ := Json.splitOn_head '/' name.toList "mesh_params".toList
    rw [tokensOf, hsplit, List.mapM_cons] at hts
    obtain ⟨t, ht, hrest⟩ := Option.bind_eq_some_iff.mp hts
    obtain ⟨rest, -, hcons⟩ := Option.bind_eq_some_iff.mp hrest
    have hname : t = name := by
      rw [htokens] at hcons
      exact (List.cons.inj (Option.some.inj hcons)).1
    obtain ⟨cs, hread, hcs⟩ := Option.map_eq_some_iff.mp ht
    have hlist : cs = name.toList := by rw [← hname, ← hcs, String.toList_ofList]
    exact Json.eq_of_head_splitOn hsplit (hlist ▸ hread)
  · rintro ⟨hslash, htilde⟩
    have hparams : '/' ∉ "mesh_params".toList := by decide
    rw [tokensOf, Json.splitOn_append hslash, Json.splitOn_of_not_mem hparams, List.mapM_cons,
      Json.unescape_of_not_mem htilde, Option.map_some, String.ofList_toList]
    rfl

variable (toInt : ToInt)

theorem isSome_optional {α : Type*} {f : Json → Option α} {j : Json}
    (h : j = .null ∨ (f j).isSome) : (Json.optional f j).isSome := by
  unfold Json.optional
  split_ifs with hnull
  · rfl
  · rw [Option.isSome_map]
    exact h.resolve_left hnull

/-- An entry of the parameters is a value of its type, or missing. -/
theorem exists_optional {α : Type*} {f : Json → Option α} {ms : List (String × Json)} {k : String}
    (h : ∀ v, (Json.obj ms).get? k = some v → (f v).isSome) :
    ∃ a, (Json.getAt [k] (.obj ms)).bind (Json.optional f) = some a := by
  refine Option.isSome_iff_exists.mp (isSome_optional ?_)
  cases hk : ms.lookup k with
  | none => exact Or.inl rfl
  | some v => exact Or.inr (h v hk)

theorem exists_wholesAt {ms : List (String × Json)} (keys : List String)
    (h : ∀ k ∈ keys, ∀ v, (Json.obj ms).get? k = some v → ∃ n, v = .num n) :
    ∃ zs, wholesAt toInt (.obj ms) keys = some zs := by
  suffices hall : ∃ zs, (keys.mapM fun k =>
      (Json.getAt [k] (.obj ms)).bind (Json.optional (whole? toInt))) = some zs by
    obtain ⟨zs, hzs⟩ := hall
    exact ⟨zs.reduceOption, by rw [wholesAt, hzs, Option.map_some]⟩
  induction keys with
  | nil => exact ⟨[], rfl⟩
  | cons k keys ih =>
    obtain ⟨z, hz⟩ : ∃ z,
        (Json.getAt [k] (.obj ms)).bind (Json.optional (whole? toInt)) = some z := by
      refine exists_optional fun v hv => ?_
      obtain ⟨n, rfl⟩ := h k List.mem_cons_self v hv
      rfl
    obtain ⟨zs, hzs⟩ := ih fun l hl => h l (List.mem_cons_of_mem k hl)
    exact ⟨z :: zs, by rw [List.mapM_cons, hz, hzs]; rfl⟩

theorem infoRows_eq {ms : List (String × Json)} {algo : Option String} {tension : Option ℚ}
    {xvalues yvalues : List ℤ}
    (halgo : (Json.getAt ["algo"] (.obj ms)).bind (Json.optional Json.str?) = some algo)
    (htension : (Json.getAt ["tension"] (.obj ms)).bind (Json.optional number?) = some tension)
    (hx : wholesAt toInt (.obj ms) ["min_x", "max_x", "x_count"] = some xvalues)
    (hy : wholesAt toInt (.obj ms) ["min_y", "max_y", "y_count"] = some yvalues) :
    infoRows toInt (.obj ms) = some ((algo.map fun a => ("Algorithm", Cell.text a)).toList ++
      (tension.map fun t => ("Tension", Cell.number t)).toList ++
      [("X (min, max, count)", .wholes xvalues), ("Y (min, max, count)", .wholes yvalues)]) := by
  have hget : ∀ k, Json.getAt [k] (.obj ms) = some ((ms.lookup k).getD .null) := fun _ => rfl
  rw [hget, Option.bind_some] at halgo htension
  rw [infoRows, if_neg Json.noConfusion]
  simp only [hget, halgo, htension, hx, hy, Option.bind_eq_bind, Option.bind_some]
  rfl

theorem exists_infoRows {params : Json} (h : IsParams params) :
    ∃ rows, infoRows toInt params = some rows := by
  cases params with
  | obj ms =>
    obtain ⟨algo, halgo⟩ := exists_optional (f := Json.str?) (k := "algo") fun v hv => by
      obtain ⟨a, rfl⟩ := h.algo v hv
      rfl
    obtain ⟨tension, htension⟩ := exists_optional (f := number?) (k := "tension") fun v hv => by
      obtain ⟨n, rfl⟩ := h.numbers "tension" (by decide) v hv
      rfl
    obtain ⟨xvalues, hx⟩ := exists_wholesAt toInt ["min_x", "max_x", "x_count"]
      fun k hk => h.numbers k (by revert k; decide)
    obtain ⟨yvalues, hy⟩ := exists_wholesAt toInt ["min_y", "max_y", "y_count"]
      fun k hk => h.numbers k (by revert k; decide)
    exact ⟨_, infoRows_eq toInt halgo htension hx hy⟩
  | _ => cases h.object

/-- A profile with parameters can be used exactly if its name has no slash and no tilde. -/
theorem usable_iff (toInt : ToInt) (s : State) (name : String) (h : Reports s name) :
    Usable toInt s name ↔ '/' ∉ name.toList ∧ '~' ∉ name.toList := by
  refine ⟨fun hu => (place_iff name).mp hu.place, fun hname => ?_⟩
  have hplace := (place_iff name).mpr hname
  obtain ⟨params, hentry, hparams⟩ := h.params
  obtain ⟨rows, hrows⟩ := exists_infoRows toInt hparams
  refine ⟨hplace, fun info => ⟨rows ++ info.drop rows.length, ?_⟩⟩
  have hread : s.readPointer (profilePointer name) = some (params, s) := by
    rw [State.readPointer, hplace]
    exact State.read_of_entryAt hentry
  rw [refreshProfileInfo, hread]
  change (infoRows toInt params).bind _ = _
  rw [hrows]
  rfl

/-- The conversion of a number drops the fraction. -/
def truncate : ToInt := fun n => n.toRat.num.tdiv n.toRat.den

/-- A bed mesh with one profile. -/
def oneProfile (name : String) : State where
  entries := [("printer_state", .obj [("bed_mesh", .obj [("profile_name", .str name),
    ("profiles", .obj [(name, .obj [("mesh_params", .obj [("algo", .str "lagrange")])])])])])]
  sorted := by
    have hone : ∀ (k : String) (v : Json), v.Sorted → (Json.obj [(k, v)]).Sorted := fun k v hv =>
      Json.sorted_obj_iff.mpr ⟨List.pairwise_singleton _ _, fun m hm =>
        List.mem_singleton.mp hm ▸ hv⟩
    have hparams := hone "algo" (.str "lagrange") (Json.sorted_str _)
    refine hone _ _ (hone _ _ (Json.sorted_obj_iff.mpr ⟨Assoc.sorted_of_keys
      (show ["profile_name", "profiles"].Pairwise (· < ·) by decide), ?_⟩))
    simp only [List.mem_cons, List.not_mem_nil, or_false, forall_eq_or_imp, forall_eq]
    exact ⟨Json.sorted_str name, hone _ _ (hone _ _ hparams)⟩

theorem reports_oneProfile (name : String) : Reports (oneProfile name) name := by
  refine ⟨rfl, .obj [("algo", .str "lagrange")], ?_, rfl, ?_, ?_⟩
  · change ([(name, Json.obj [("mesh_params", .obj [("algo", .str "lagrange")])])].lookup
      name).bind (Json.entryAt ["mesh_params"]) = _
    rw [Assoc.lookup_cons, if_pos rfl]
    rfl
  · intro v hv
    exact ⟨"lagrange", (Option.some.inj hv).symm⟩
  · intro k hk v hv
    have hne : k ≠ "algo" := by
      rintro rfl
      revert hk
      decide
    rw [Json.get?, Json.members, Assoc.lookup_cons, if_neg hne] at hv
    cases hv

theorem usable_iff_smooth :
    Reports (oneProfile "smooth") "smooth" ∧ (Usable truncate (oneProfile "smooth") "smooth" ↔
      '/' ∉ "smooth".toList ∧ '~' ∉ "smooth".toList) :=
  ⟨reports_oneProfile "smooth", usable_iff _ _ _ (reports_oneProfile "smooth")⟩

/-- With a slash the name leads to another place of the store, and entries are made there. -/
theorem slash_not_usable : ¬ ∀ (toInt : ToInt) (s : State) (name : String), name ≠ "" →
    Reports s name → Usable toInt s name := by
  intro h
  have hplace := (h truncate _ "x/y" (by decide) (reports_oneProfile "x/y")).place
  revert hplace
  decide

end PowerScreen.BedMesh
