import PowerScreen.Config.Restart

/-! # What a start keeps

On a document of the expected types a start is idempotent, keeps what it finds and fills in what
is missing, unless the default printer's name does not lead to its entry or its macros hold a null
under "cooldown": the sibling defaults look for null, this one looks for the key only.
-/
namespace PowerScreen.Config
open Library Library.Json

/-- A document of the expected types; what is null counts as absent. -/
structure Typed (c : Json) : Prop where
  sorted : c.Sorted
  root : c.isObject
  default : c.get "default_printer" = .null ∨ ∃ name, c.get "default_printer" = .str name
  printers : (c.get "printers").IsRecord
  entry : ∀ name, c.get "default_printer" = .str name → ((c.get "printers").get name).IsRecord
  macros : ∀ name, c.get "default_printer" = .str name →
    (((c.get "printers").get name).get "default_macros").IsRecord

/-- What a start may replace: the path of the document, the theme, and older names of the two
macros of the default printer. -/
def Exempt (c : Json) (path : List String) (v : Json) : Prop :=
  path.head? = some "config_path" ∨ path.head? = some "theme" ∨
    ∃ name, c.get "default_printer" = .str name ∧ ∃ key ∈ ["load_filament", "unload_filament"],
      path = ["printers", name, "default_macros", key] ∧ ∃ r ∈ renamedMacros, v = .str r.1

/-- The defaults of a printer's entry, by their paths. -/
def entryDefaults : List (List String × Json) :=
  [(["monitored_sensors"], sensorsConf), (["fans"], fansConf),
    (["default_macros"], mergePatch defaultMacrosConf cooldownConf),
    (["default_macros", "cooldown"], cooldown), (["log_level"], .str "debug")]

def displayDefaults (b : Build) : List (String × Json) :=
  [("display_rotate", .num (.int (if b.rotate then 3 else 0))),
    ("touch_calibrated", .bool b.evdevCalibrate), ("prompt_emergency_stop", .bool true),
    ("display_sleep_sec", .num (.int (-1)))]

/-- Where there was nothing, or null, there is the default. -/
def FilledAt (v : Json) (path : List String) (c d : Json) : Prop :=
  (entryAt path c).getD .null = .null → entryAt path d = some v

structure Filled (b : Build) (c d : Json) : Prop where
  entry : ∀ name, c.get "default_printer" = .str name → ∀ e ∈ entryDefaults,
    FilledAt e.2 ("printers" :: name :: e.1) c d
  script : ∀ name, c.get "default_printer" = .str name →
    FilledAt initScript ["powerscreen_init_script"] c d
  display : ∀ e ∈ displayDefaults b, FilledAt e.2 [e.1] c d

/-- A start succeeds, a second one changes nothing, what is there is kept, what is missing is
filled in, and the other printers are left alone. -/
def Preserves (b : Build) (path thumbdir : String) (c : Json) : Prop :=
  ∃ d df, init b path thumbdir (some c) = some (d, df) ∧
    init b path thumbdir (some d) = some (d, df) ∧ Keeps (Exempt c) c d ∧ Filled b c d ∧
    ∀ other, c.get "default_printer" ≠ .str other →
      (d.get "printers").get? other = (c.get "printers").get? other

/-- Nothing of an entry is missing. -/
def Complete (entry : Json) : Prop :=
  ∀ e ∈ entryDefaults, (entryAt e.1 entry).getD .null ≠ .null

/-- The place that the default printer's name leads to holds all that is filled in. -/
def InPlace (c : Json) (name : String) : Prop :=
  (∀ key ∈ ["monitored_sensors", "fans", "log_level"],
    ∃ v, getText (dfPath name ++ key) c = some v ∧ v ≠ .null) ∧
  ∃ macros, getText (dfPath name ++ "default_macros") c = some macros ∧ UpToDate macros

/-- The default printer's name leads to its entry and its macros hold no null under "cooldown";
or the name leads elsewhere and nothing is missing, neither there nor in the entry. -/
def Restartable (c : Json) : Prop :=
  ∀ name, c.get "default_printer" = .str name →
    if Plain name then
      (c.get "printers" = .null → IsKey name) ∧
        (((c.get "printers").get name).get "default_macros").get? "cooldown" ≠ some .null
    else Complete ((c.get "printers").get name) ∧ InPlace c name

section Top

variable {b : Build} {path thumbdir name : String} {ms : List (String × Json)}

theorem entryAt_cons_getD (t : String) (ts : List String) (c : Json) :
    (entryAt (t :: ts) c).getD .null = (entryAt ts (c.get t)).getD .null := by
  rw [entryAt, Json.get]
  cases c.get? t with
  | some v => rfl
  | none =>
    cases ts <;> rfl

theorem get?_of_displayDefaults (printers : Option Json) {e : String × Json}
    (he : e ∈ displayDefaults b) :
    (saved b path printers ms).get? e.1 = some (fill e.2 ((Json.obj ms).get e.1)) := by
  have hkeys : ∀ e ∈ displayDefaults b, (e.1, fill e.2) ∈ displayKeys b ∧ e.1 ≠ "theme" := by
    simp only [displayDefaults, displayKeys, List.forall_mem_cons]
    refine ⟨⟨by simp, by decide⟩, ⟨by simp, by decide⟩, ⟨by simp, by decide⟩,
      ⟨by simp, by decide⟩, fun _ h => absurd h List.not_mem_nil⟩
  obtain ⟨hmem, htheme⟩ := hkeys e he
  have htop : (e.1, fill e.2) ∈ topEdits b path printers :=
    List.mem_cons_of_mem _ (List.mem_cons_of_mem _ (List.mem_append_right _ hmem))
  rw [get?_saved b path printers ms htheme,
    Assoc.lookup_of_nodup (nodup_topEdits b path printers) htop]
  rfl

/-- At the top a start keeps all values, except for the path, the list of printers and the
theme. -/
theorem get?_saved_of_ne_null {printers : Option Json} {k : String} {x : Json}
    (hx : ms.lookup k = some x) (hne : x ≠ .null) (hpath : k ≠ "config_path")
    (htheme : k ≠ "theme") (hprinters : k = "printers" → printers = none) :
    (saved b path printers ms).get? k = some x := by
  have hedits : ∀ e ∈ topEdits b path printers, e.1 ≠ "config_path" →
      (e.1 = "printers" → printers = none) → e.2 x = x := by
    cases printers with
    | none =>
      simp only [topEdits, displayKeys, Option.elim, List.nil_append, List.forall_mem_cons]
      exact ⟨fun h => absurd rfl h, fun _ _ => rfl, fun _ _ => fill_of_ne_null hne,
        fun _ _ => fill_of_ne_null hne, fun _ _ => fill_of_ne_null hne,
        fun _ _ => fill_of_ne_null hne, fun _ h => absurd h List.not_mem_nil⟩
    | some ps =>
      simp only [topEdits, displayKeys, Option.elim, List.cons_append, List.nil_append,
        List.forall_mem_cons]
      exact ⟨fun h => absurd rfl h, fun _ _ => rfl, fun _ h => absurd (h trivial) (Option.some_ne_none ps),
        fun _ _ => fill_of_ne_null hne, fun _ _ => fill_of_ne_null hne,
        fun _ _ => fill_of_ne_null hne, fun _ _ => fill_of_ne_null hne,
        fun _ _ => fill_of_ne_null hne, fun _ h => absurd h List.not_mem_nil⟩
  rw [get?_saved b path printers ms htheme, hx]
  cases hk : (topEdits b path printers).lookup k with
  | none => rfl
  | some f =>
    have hget : (Json.obj ms).get k = x := by rw [Json.get, Json.get?, Json.members, hx,
      Option.getD_some]
    rw [Option.map_some, Option.some_or, hget]
    exact congrArg some (hedits _ (Assoc.mem_of_lookup hk) hpath hprinters)

theorem keeps_saved {printers : Option Json}
    (hprinters : ∀ ps x, printers = some ps → ms.lookup "printers" = some x → x ≠ .null →
      Keeps (fun path => Exempt (.obj ms) ("printers" :: path)) x ps) :
    Keeps (Exempt (.obj ms)) (.obj ms) (saved b path printers ms) := by
  refine keeps_obj fun k x hx hne => ?_
  by_cases hpath : k = "config_path"
  · exact Or.inl fun _ _ _ => Or.inl (by rw [hpath, List.head?_cons])
  · by_cases htheme : k = "theme"
    · exact Or.inl fun _ _ _ => Or.inr (Or.inl (by rw [htheme, List.head?_cons]))
    · right
      by_cases hin : k = "printers" ∧ printers ≠ none
      · obtain ⟨rfl, hsome⟩ := hin
        obtain ⟨ps, rfl⟩ := Option.ne_none_iff_exists'.mp hsome
        exact ⟨ps, get?_saved_printers b path ps ms, hprinters ps x rfl hx hne⟩
      · have hkeep : (saved b path printers ms).get? k = some x :=
          get?_saved_of_ne_null hx hne hpath htheme fun hk => by_contra fun hsome => hin ⟨hk, hsome⟩
        exact ⟨x, hkeep, keeps_refl _ x⟩

theorem filledAt_display (printers : Option Json) : ∀ e ∈ displayDefaults b,
    FilledAt e.2 [e.1] (.obj ms) (saved b path printers ms) := by
  intro e he hmissing
  have hnull : (Json.obj ms).get e.1 = .null := by
    rw [entryAt_cons_getD] at hmissing
    exact hmissing
  rw [entryAt, get?_of_displayDefaults printers he, hnull, fill_null]
  rfl

/-- A start without a default printer. -/
theorem preserves_absent (b : Build) (path thumbdir : String) (hms : Assoc.Sorted ms)
    (hdefault : (Json.obj ms).get "default_printer" = .null) :
    Preserves b path thumbdir (.obj ms) := by
  refine ⟨saved b path none ms, none, init_absent b path thumbdir hdefault,
    init_again_absent b path thumbdir hms hdefault, keeps_saved fun _ _ h => (by cases h),
    ⟨fun name h => ?_, fun name h => ?_, filledAt_display none⟩, fun other _ => ?_⟩
  · rw [hdefault] at h
    cases h
  · rw [hdefault] at h
    cases h
  · rw [Json.get, get?_saved b path none ms (by decide)]
    rfl

/-- A start with a default printer, given what it does to the list of printers. -/
theorem preserves_named (b : Build) (path thumbdir : String) (hms : Assoc.Sorted ms)
    (hdefault : (Json.obj ms).get "default_printer" = .str name) {us : List String} {ps : Json}
    (hus : nameTokens name = some us)
    (hps : editAt us entryEdits ((Json.obj ms).get "printers") = some ps)
    (hagain : editAt us entryEdits ps = some ps)
    (hkeeps : (Json.obj ms).get "printers" ≠ .null →
      Keeps (fun path => Exempt (.obj ms) ("printers" :: path)) ((Json.obj ms).get "printers") ps)
    (hfilled : ∀ e ∈ entryDefaults, FilledAt e.2 (name :: e.1) ((Json.obj ms).get "printers") ps)
    (hframe : ∀ other ≠ name, ps.get? other = ((Json.obj ms).get "printers").get? other) :
    Preserves b path thumbdir (.obj ms) := by
  have hinit : init b path thumbdir (some (.obj ms)) =
      some (saved b path (some ps) ms, some (dfPath name)) := by
    rw [init_named b path thumbdir hms hdefault, hus, Option.bind_some, hps]
    rfl
  have hprinters := get?_saved_printers b path ps ms
  refine ⟨_, _, hinit, init_again_named b path thumbdir hms hdefault hus hagain,
    keeps_saved fun ps' x hps' hx hne => ?_, ⟨fun name' hname' e he => ?_, fun name' _ => ?_,
      filledAt_display _⟩, fun other hother => ?_⟩
  · cases hps'
    have hget : (Json.obj ms).get "printers" = x := by
      rw [Json.get, Json.get?, Json.members, hx, Option.getD_some]
    exact hget ▸ hkeeps (hget ▸ hne)
  · rw [hdefault] at hname'
    cases hname'
    intro hmissing
    rw [entryAt_cons_getD] at hmissing
    rw [entryAt, hprinters]
    exact hfilled e he hmissing
  · intro hmissing
    have hnull : (Json.obj ms).get "powerscreen_init_script" = .null := by
      rw [entryAt_cons_getD] at hmissing
      exact hmissing
    rw [entryAt, get?_saved b path (some ps) ms (by decide), hnull]
    rfl
  · rw [Json.get, hprinters, Option.getD_some]
    exact hframe other fun heq => hother (heq ▸ hdefault)

end Top

section Entry

variable {name : String} {c printers : Json}

/-- The list of printers after a start whose default printer's name leads to its entry. -/
theorem editAt_entry (hprinters : printers.IsRecord) (hname : printers = .null → IsKey name)
    (hentry : (printers.get name).IsRecord) : editAt [name] entryEdits printers =
      some (.obj (Assoc.insert name
        (.obj (updateAll entryEdits (printers.get name).members)) printers.members)) := by
  have hobj : editAt [name] entryEdits printers =
      editAt [name] entryEdits (.obj printers.members) := by
    rcases hprinters with rfl | hobj
    · exact editAt_null (hname rfl) [] _ _
    · cases printers with
      | obj ps => rfl
      | _ => cases hobj
  have hkey := isKey_entryEdits
  rw [entryEdits] at hobj hkey ⊢
  rw [hobj, editAt_cons_obj]
  change (editAt [] _ (printers.get name)).map _ = _
  rw [editAt_record hentry (hkey _ List.mem_cons_self)]
  rfl

theorem editAt_entry_again (ps es : List (String × Json)) (hes : Assoc.Sorted es) :
    editAt [name] entryEdits (.obj (Assoc.insert name (.obj (updateAll entryEdits es)) ps)) =
      some (.obj (Assoc.insert name (.obj (updateAll entryEdits es)) ps)) := by
  have hidem := updateAll_idem nodup_entryEdits entryEdits_idem hes
  rw [entryEdits] at hidem ⊢
  rw [editAt_cons_obj, Assoc.lookup_insert_self, Option.getD_some, editAt_obj, hidem,
    Option.map_some, Assoc.insert_insert]

/-- Of the macros, only older names are replaced. -/
theorem keeps_migrateMacros (hdefault : c.get "default_printer" = .str name)
    (ms : List (String × Json)) :
    Keeps (fun path => Exempt c ("printers" :: name :: "default_macros" :: path)) (.obj ms)
      (migrateMacros (.obj ms)) := by
  have hne : Json.obj ms ≠ .null := Json.noConfusion
  have hget := get?_migrateMacros hne
  have hobj := migrateMacros_isObject (.obj ms)
  generalize migrateMacros (.obj ms) = m at hget hobj
  cases m with
  | obj ns =>
    refine keeps_obj fun k x hx hne => ?_
    have hk : ns.lookup k = _ := hget k
    have hold : (Json.obj ms).get? k = some x := hx
    rw [hk, hold]
    by_cases hcool : k = "cooldown"
    · rw [if_pos hcool]
      exact Or.inr ⟨x, rfl, keeps_refl _ x⟩
    · rw [if_neg hcool]
      by_cases hkey : k ∈ ["load_filament", "unload_filament"]
      · rw [if_pos hkey, Option.map_some]
        by_cases hname : ∃ r ∈ renamedMacros, x = .str r.1
        · obtain ⟨r, hr, rfl⟩ := hname
          refine Or.inl fun path v hv => Or.inr (Or.inr ⟨name, hdefault, k, hkey, ?_⟩)
          cases path with
          | nil =>
            cases hv
            exact ⟨rfl, r, hr, rfl⟩
          | cons t path => cases hv
        · rw [renamed_eq_self fun r hr heq => hname ⟨r, hr, heq⟩]
          exact Or.inr ⟨x, rfl, keeps_refl _ x⟩
      · rw [if_neg hkey]
        exact Or.inr ⟨x, rfl, keeps_refl _ x⟩
  | _ => cases hobj

theorem keeps_entry (hdefault : c.get "default_printer" = .str name) {es : List (String × Json)}
    (hmacros : ((Json.obj es).get "default_macros").IsRecord) :
    Keeps (fun path => Exempt c ("printers" :: name :: path)) (.obj es)
      (.obj (updateAll entryEdits es)) := by
  refine keeps_updateAll nodup_entryEdits fun k f x he hx hne => ?_
  have hfill (v : Json) : Keeps (fun path => Exempt c ("printers" :: name :: k :: path)) x
      (fill v x) := by
    rw [fill_of_ne_null hne]
    exact keeps_refl _ x
  rw [entryEdits] at he
  simp only [List.mem_cons, List.not_mem_nil, or_false, Prod.mk.injEq] at he
  rcases he with ⟨rfl, rfl⟩ | ⟨rfl, rfl⟩ | ⟨rfl, rfl⟩ | ⟨rfl, rfl⟩
  · exact Or.inr (hfill _)
  · exact Or.inr (hfill _)
  · have hget : (Json.obj es).get "default_macros" = x := by
      rw [Json.get, Json.get?, Json.members, hx, Option.getD_some]
    rw [hget] at hmacros
    cases x with
    | obj ms => exact Or.inr (keeps_migrateMacros hdefault ms)
    | null => exact absurd rfl hne
    | _ => rcases hmacros with h | h <;> cases h
  · exact Or.inr (hfill _)

theorem keeps_printers (hdefault : c.get "default_printer" = .str name)
    (hprinters : printers.IsRecord) (hne : printers ≠ .null)
    (hentry : (printers.get name).IsRecord)
    (hmacros : ((printers.get name).get "default_macros").IsRecord) :
    Keeps (fun path => Exempt c ("printers" :: path)) printers
      (.obj (Assoc.insert name (.obj (updateAll entryEdits (printers.get name).members))
        printers.members)) := by
  cases printers with
  | obj ps =>
    refine keeps_obj fun k x hx hx' => Or.inr ?_
    rw [Json.members, Assoc.lookup_insert]
    by_cases hk : k = name
    · subst hk
      have hget : (Json.obj ps).get k = x := by
        rw [Json.get, Json.get?, Json.members, hx, Option.getD_some]
      rw [hget] at hentry hmacros ⊢
      rw [if_pos rfl]
      cases x with
      | obj es => exact ⟨_, rfl, keeps_entry hdefault hmacros⟩
      | null => exact absurd rfl hx'
      | _ => rcases hentry with h | h <;> cases h
    · rw [if_neg hk]
      exact ⟨x, hx, keeps_refl _ x⟩
  | null => exact absurd rfl hne
  | _ => rcases hprinters with h | h <;> cases h

/-- What the start leaves under a path into the default printer's entry. -/
theorem entryAt_entry {e : KeyEdit} (he : e ∈ entryEdits) (path : List String)
    (entry : Json) (ps : List (String × Json)) :
    entryAt (name :: e.1 :: path)
        (.obj (Assoc.insert name (.obj (updateAll entryEdits entry.members)) ps)) =
      entryAt path (e.2 (entry.get e.1)) := by
  have hname : (Json.obj (Assoc.insert name (.obj (updateAll entryEdits entry.members)) ps)).get?
      name = some (.obj (updateAll entryEdits entry.members)) := Assoc.lookup_insert_self _ _ _
  have hkey : (Json.obj (updateAll entryEdits entry.members)).get? e.1 =
      some (e.2 (entry.get e.1)) := by
    rw [Json.get?, Json.members, lookup_updateAll nodup_entryEdits,
      Assoc.lookup_of_nodup nodup_entryEdits he]
    rfl
  rw [entryAt, hname, Option.bind_some, entryAt, hkey, Option.bind_some]

theorem filledAt_entry
    (hcool : ((printers.get name).get "default_macros").get? "cooldown" ≠ some .null)
    (ps : List (String × Json)) : ∀ e ∈ entryDefaults, FilledAt e.2 (name :: e.1) printers
      (.obj (Assoc.insert name (.obj (updateAll entryEdits (printers.get name).members)) ps)) := by
  have hfill {k : String} {v : Json} (he : (k, fill v) ∈ entryEdits) :
      FilledAt v [name, k] printers
        (.obj (Assoc.insert name (.obj (updateAll entryEdits (printers.get name).members)) ps)) := by
    intro hmissing
    rw [entryAt_cons_getD, entryAt_cons_getD] at hmissing
    have hnull : (printers.get name).get k = .null := hmissing
    rw [entryAt_entry he, hnull]
    exact congrArg some (fill_null v)
  have hmacros : ("default_macros", migrateMacros) ∈ entryEdits := by simp [entryEdits]
  simp only [entryDefaults, List.forall_mem_cons]
  refine ⟨hfill (by simp [entryEdits]), hfill (by simp [entryEdits]), fun hmissing => ?_,
    fun hmissing => ?_, hfill (by simp [entryEdits]), fun _ h => absurd h List.not_mem_nil⟩
  · rw [entryAt_cons_getD, entryAt_cons_getD] at hmissing
    have hnull : (printers.get name).get "default_macros" = .null := hmissing
    rw [entryAt_entry hmacros, hnull]
    exact congrArg some (show migrateMacros .null = _ from if_pos rfl)
  · rw [entryAt_cons_getD, entryAt_cons_getD, entryAt_cons_getD] at hmissing
    rw [entryAt_entry hmacros]
    have hnone : ((printers.get name).get "default_macros").get? "cooldown" = none := by
      have hnull : ((printers.get name).get "default_macros").get "cooldown" = .null := hmissing
      rw [Json.get] at hnull
      cases hv : ((printers.get name).get "default_macros").get? "cooldown" with
      | none => rfl
      | some v =>
        rw [hv, Option.getD_some] at hnull
        exact absurd (hnull ▸ hv) hcool
    by_cases hnull : (printers.get name).get "default_macros" = .null
    · rw [hnull]
      decide
    · rw [entryAt, get?_migrateMacros hnull, if_pos rfl, hnone]
      rfl

end Entry

section Restart

variable {b : Build} {path thumbdir name : String} {ms : List (String × Json)}

theorem inPlace_iff {us : List String} (hus : nameTokens name = some us) :
    InPlace (.obj ms) name ↔ ∀ e ∈ entryEdits, ∃ v,
      getAt (us ++ [e.1]) ((Json.obj ms).get "printers") = some v ∧ v ≠ .null ∧ e.2 v = v := by
  have hread {key : String} (hkey : Plain key) : getText (dfPath name ++ key) (.obj ms) =
      getAt (us ++ [key]) ((Json.obj ms).get "printers") := by
    rw [getText_df name hkey, hus, Option.bind_some]
  have hfill {key : String} (hkey : Plain key) (d : Json)
      (h : ∃ v, getText (dfPath name ++ key) (.obj ms) = some v ∧ v ≠ .null) :
      ∃ v, getAt (us ++ [key]) ((Json.obj ms).get "printers") = some v ∧ v ≠ .null ∧
        fill d v = v := by
    obtain ⟨v, hv, hne⟩ := h
    exact ⟨v, (hread hkey).symm.trans hv, hne, fill_of_ne_null hne⟩
  have hplain : ∀ key ∈ ["monitored_sensors", "fans", "log_level"], Plain key ∧
      ∃ d, (key, fill d) ∈ entryEdits := by
    simp only [List.forall_mem_cons]
    exact ⟨⟨by decide, sensorsConf, by simp [entryEdits]⟩, ⟨by decide, fansConf, by simp [entryEdits]⟩,
      ⟨by decide, .str "debug", by simp [entryEdits]⟩, fun _ h => absurd h List.not_mem_nil⟩
  constructor
  · rintro ⟨hkeys, macros, hmacros, hdate⟩
    simp only [List.forall_mem_cons] at hkeys
    obtain ⟨hsensors, hfans, hlevel, -⟩ := hkeys
    rw [hread (by decide)] at hmacros
    simp only [entryEdits, List.forall_mem_cons]
    exact ⟨hfill (by decide) _ hsensors, hfill (by decide) _ hfans,
      ⟨macros, hmacros, hdate.ne_null, migrateMacros_eq_self_iff.mpr hdate⟩,
      hfill (by decide) _ hlevel, fun _ h => absurd h List.not_mem_nil⟩
  · intro h
    refine ⟨fun key hkey => ?_, ?_⟩
    · obtain ⟨hkey, d, he⟩ := hplain key hkey
      obtain ⟨v, hv, hne, -⟩ := h _ he
      exact ⟨v, (hread hkey).trans hv, hne⟩
    · obtain ⟨v, hv, -, hsame⟩ := h ("default_macros", migrateMacros) (by simp [entryEdits])
      exact ⟨v, (hread (by decide)).trans hv, migrateMacros_eq_self_iff.mp hsame⟩

/-- A name that leads elsewhere: the entry's values stay as they are, so that the start fills
in the entry only if nothing is missing. -/
theorem preserves_elsewhere (hms : (Json.obj ms).Sorted)
    (hdefault : (Json.obj ms).get "default_printer" = .str name) (hname : ¬ Plain name)
    (hprinters : ((Json.obj ms).get "printers").IsRecord) :
    Preserves b path thumbdir (.obj ms) ↔
      Complete (((Json.obj ms).get "printers").get name) ∧ InPlace (.obj ms) name := by
  have hms' : Assoc.Sorted ms := hms.members
  have hsorted := hms.get "printers"
  generalize hP : (Json.obj ms).get "printers" = P at hprinters hsorted ⊢
  constructor
  · rintro ⟨d, df, hinit, -, -, hfilled, hframe⟩
    rw [init_named b path thumbdir hms' hdefault, hP] at hinit
    cases hus : nameTokens name with
    | none =>
      rw [hus] at hinit
      cases hinit
    | some us =>
      rw [hus, Option.bind_some] at hinit
      obtain ⟨ps, hps, heq⟩ := Option.map_eq_some_iff.mp hinit
      have hd : d = saved b path (some ps) ms := (congrArg Prod.fst heq).symm
      obtain ⟨t, ts, rfl, ht⟩ := nameTokens_head hus
      have hne : name ≠ t := fun heq => hname (ht heq.symm)
      have hget := get?_saved_printers b path ps ms
      have hother : (∀ k ≠ t, ps.get? k = P.get? k) ∧ ps.isObject = (asContainer t P).isObject := by
        rw [entryEdits] at hps
        exact editAt_cons_frame hps
      have hcomplete : Complete (P.get name) := by
        intro e he hmissing
        have hfill := hfilled.entry name hdefault e he
        rw [FilledAt, entryAt_cons_getD, hP, entryAt_cons_getD] at hfill
        have hkeep : (entryAt ("printers" :: name :: e.1) d).getD .null = .null := by
          rw [hd, entryAt, hget, Option.bind_some, entryAt, hother.1 name hne]
          change (entryAt (name :: e.1) P).getD .null = .null
          rw [entryAt_cons_getD]
          exact hmissing
        have hdefaults : ∀ e ∈ entryDefaults, e.2 ≠ .null := by decide
        rw [hfill hmissing, Option.getD_some] at hkeep
        exact hdefaults e he hkeep
      have hsame : ps = P := by
        cases P with
        | obj p₀ =>
          cases ps with
          | obj p₁ =>
            have hsorted' := hsorted.editAt sorted_entryEdits hps
            refine congrArg Json.obj (Assoc.ext_lookup hsorted'.members hsorted.members fun k => ?_)
            by_cases hk : k = name
            · exact hk ▸ hother.1 name hne
            · have hframe' := hframe k fun h => hk (Json.str.inj (hdefault.symm.trans h)).symm
              rw [hd, Json.get, hget, hP] at hframe'
              exact hframe'
          | _ => cases hother.2
        | null => exact absurd rfl (hcomplete (["fans"], fansConf) (by simp [entryDefaults]))
        | _ => rcases hprinters with h | h <;> cases h
      subst hsame
      have hself := (editAt_eq_self_iff nodup_entryEdits isKey_entryEdits hsorted).mp hps
      refine ⟨hcomplete, (inPlace_iff hus).mpr fun e he => ?_⟩
      rw [hP]
      exact (storeAt_eq_self_iff (entryEdits_null e he) hsorted).mp (hself e he)
  · rintro ⟨hcomplete, hplace⟩
    cases hus : nameTokens name with
    | none =>
      obtain ⟨macros, hmacros, -⟩ := hplace.2
      rw [getText_df name (by decide), hus] at hmacros
      cases hmacros
    | some us =>
      have hself : editAt us entryEdits P = some P := by
        refine (editAt_eq_self_iff nodup_entryEdits isKey_entryEdits hsorted).mpr fun e he => ?_
        have hin := (inPlace_iff hus).mp hplace e he
        rw [hP] at hin
        exact (storeAt_eq_self_iff (entryEdits_null e he) hsorted).mpr hin
      refine preserves_named b path thumbdir hms' hdefault hus (hP ▸ hself) hself
        (fun _ => by rw [hP]; exact keeps_refl _ P) (fun e he hmissing => ?_) (fun other _ => by rw [hP])
      rw [hP, entryAt_cons_getD] at hmissing
      exact absurd hmissing (hcomplete e he)

/-- A name that leads to its entry. -/
theorem preserves_entry (hms : (Json.obj ms).Sorted)
    (hdefault : (Json.obj ms).get "default_printer" = .str name) (hname : Plain name)
    (hprinters : ((Json.obj ms).get "printers").IsRecord)
    (hentry : (((Json.obj ms).get "printers").get name).IsRecord)
    (hmacros : ((((Json.obj ms).get "printers").get name).get "default_macros").IsRecord) :
    Preserves b path thumbdir (.obj ms) ↔
      ((Json.obj ms).get "printers" = .null → IsKey name) ∧
        ((((Json.obj ms).get "printers").get name).get "default_macros").get? "cooldown" ≠
          some .null := by
  have hms' : Assoc.Sorted ms := hms.members
  have hsorted := hms.get "printers"
  have hus := nameTokens_plain hname
  generalize hP : (Json.obj ms).get "printers" = P at hprinters hentry hmacros hsorted ⊢
  constructor
  · rintro ⟨d, df, hinit, -, -, hfilled, -⟩
    rw [init_named b path thumbdir hms' hdefault, hP, hus, Option.bind_some] at hinit
    obtain ⟨ps, hps, heq⟩ := Option.map_eq_some_iff.mp hinit
    have hd : d = saved b path (some ps) ms := (congrArg Prod.fst heq).symm
    have hget := get?_saved_printers b path ps ms
    have hfill (e : List String × Json) (he : e ∈ entryDefaults)
        (hmissing : (entryAt (name :: e.1) P).getD .null = .null) :
        entryAt (name :: e.1) ps = some e.2 := by
      have hin := hfilled.entry name hdefault e he
      rw [FilledAt, entryAt_cons_getD, hP, hd] at hin
      have hvalue := hin hmissing
      rw [entryAt, hget, Option.bind_some] at hvalue
      exact hvalue
    have hkey : P = .null → IsKey name := by
      rintro rfl
      by_contra hkey
      have hobj : ps.isObject = false := by
        rw [entryEdits] at hps
        rw [(editAt_cons_frame hps).2, asContainer]
        have hcases : (isDigits name || decide (name = "-")) = true := by
          by_contra hneither
          rw [Bool.or_eq_true, decide_eq_true_eq, not_or, Bool.not_eq_true] at hneither
          exact hkey hneither
        rw [if_pos hcases]
        rfl
      have hin := hfill (["fans"], fansConf) (by simp [entryDefaults]) rfl
      cases ps with
      | obj _ => cases hobj
      | _ => cases hin
    refine ⟨hkey, fun hcool => ?_⟩
    rw [editAt_entry hprinters hkey hentry] at hps
    have hin := hfill (["default_macros", "cooldown"], cooldown) (by simp [entryDefaults]) (by
      rw [entryAt_cons_getD, entryAt_cons_getD, entryAt, hcool]
      rfl)
    have hmacros : ("default_macros", migrateMacros) ∈ entryEdits := by simp [entryEdits]
    have hne : (P.get name).get "default_macros" ≠ .null := by
      intro hnull
      rw [hnull] at hcool
      cases hcool
    rw [← Option.some.inj hps, entryAt_entry hmacros, entryAt, get?_migrateMacros hne, if_pos rfl,
      hcool] at hin
    exact absurd (Option.some.inj hin) Json.noConfusion
  · rintro ⟨hkey, hcool⟩
    have hps := editAt_entry hprinters hkey hentry
    refine preserves_named b path thumbdir hms' hdefault hus
      ((congrArg (editAt [name] entryEdits) hP).trans hps)
      (editAt_entry_again _ _ ((hsorted.get name).members))
      (fun hne => ?_) (fun e he => ?_) fun other hother => ?_
    · rw [hP] at hne ⊢
      exact keeps_printers hdefault hprinters hne hentry hmacros
    · rw [hP]
      exact filledAt_entry hcool P.members e he
    · rw [hP]
      exact Assoc.lookup_insert_of_ne hother _ _

end Restart

/-- For every document of the expected types. -/
theorem preserves_iff (b : Build) (path thumbdir : String) (c : Json) (hc : Typed c) :
    Preserves b path thumbdir c ↔ Restartable c := by
  obtain ⟨hsorted, hroot, hdefault, hprinters, hentry, hmacros⟩ := hc
  cases c with
  | obj ms =>
    rcases hdefault with hnull | ⟨name, hname⟩
    · refine iff_of_true (preserves_absent b path thumbdir hsorted.members hnull) ?_
      intro name hname
      rw [hnull] at hname
      cases hname
    · have hrestart : Restartable (.obj ms) ↔ if Plain name then
          ((Json.obj ms).get "printers" = .null → IsKey name) ∧
            ((((Json.obj ms).get "printers").get name).get "default_macros").get? "cooldown" ≠
              some .null
          else Complete (((Json.obj ms).get "printers").get name) ∧ InPlace (.obj ms) name := by
        constructor
        · exact fun h => h name hname
        · intro h name' hname'
          rw [hname] at hname'
          cases hname'
          exact h
      rw [hrestart]
      split_ifs with hplain
      · exact preserves_entry hsorted hname hplain hprinters (hentry name hname)
          (hmacros name hname)
      · exact preserves_elsewhere hsorted hname hplain hprinters
  | _ => cases hroot

/-- A start on a document that only names its default printer. -/
theorem preserves_named_only :
    Preserves {} "config.json" "thumbs" (.obj [("default_printer", .str "k1")]) := by
  refine (preserves_iff {} "config.json" "thumbs" (.obj [("default_printer", .str "k1")])
    ⟨by decide, rfl, Or.inr ⟨"k1", rfl⟩, Or.inl rfl, fun _ _ => Or.inl rfl,
      fun _ _ => Or.inl rfl⟩).mpr fun name hname => ?_
  cases hname
  rw [if_pos (by decide)]
  exact ⟨fun _ => by decide, fun h => by cases h⟩

/-- A null under "cooldown" stays. -/
theorem null_cooldown_stays : ¬ Preserves {} "config.json" "thumbs"
    (.obj [("default_printer", .str "k1"), ("printers", .obj [("k1", .obj
      [("default_macros", .obj [("cooldown", .null)])])])]) := by
  intro h
  have hiff := (preserves_entry (by decide) rfl (by decide) (Or.inr rfl) (Or.inr rfl) (Or.inr rfl)).mp h
  exact hiff.2 rfl

end PowerScreen.Config
