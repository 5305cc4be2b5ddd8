import PowerScreen.SysInfo.Settings

/-! # Settings outlive the program

What the panel shows is in every run what the user chose last, for each setting on its own,
whatever was chosen in between and however often the program was started again.
-/
namespace PowerScreen.SysInfo.Settings
open Library Library.Json Library.Run Config Update

/-- The entries of the settings lie at the top of the document. -/
structure Pointers : Prop where
  brightness : parsePointer "/display_brightness" = some ["display_brightness"]
  sleep : parsePointer "/display_sleep_sec" = some ["display_sleep_sec"]
  estop : parsePointer "/prompt_emergency_stop" = some ["prompt_emergency_stop"]
  z : parsePointer "/invert_z_icon" = some ["invert_z_icon"]
  printer : parsePointer "/default_printer" = some ["default_printer"]
  channel : parsePointer "/update_channel" = some ["update_channel"]

theorem pointers : Pointers := by
  constructor <;> decide

/-- A document with an entry for its default printer. -/
structure Doc (name : String) (c : Json) : Prop where
  sorted : c.Sorted
  root : c.isObject
  default : c.get "default_printer" = .str name
  plain : Plain name
  entry : ((c.get "printers").get name).isObject

def level (name : String) (c : Json) : Json := ((c.get "printers").get name).get "log_level"

/-- A document in which every setting reads the same. -/
structure Agree (name : String) (c d : Json) : Prop where
  doc : Doc name d
  get_eq : ∀ k ≠ "printers", d.get k = c.get k
  level_eq : level name d = level name c

/-- The entries of a document that the panel reads. -/
structure Values where
  sleep : Json
  promptEstop : Json
  invertZ : Json
  level : Json
  channel : Json
  brightness : Json

def values (name : String) (c : Json) : Values :=
  ⟨c.get "display_sleep_sec", c.get "prompt_emergency_stop", c.get "invert_z_icon", level name c,
    c.get "update_channel", c.get "display_brightness"⟩

namespace Agree

theorem values_eq {name : String} {c d : Json} (h : Agree name c d) :
    values name d = values name c := by
  unfold values
  rw [h.level_eq, h.get_eq _ (by decide), h.get_eq _ (by decide), h.get_eq _ (by decide),
    h.get_eq _ (by decide), h.get_eq _ (by decide)]

theorem trans {name : String} {c d e : Json} (h : Agree name c d) (h' : Agree name d e) :
    Agree name c e :=
  ⟨h'.doc, fun k hk => (h'.get_eq k hk).trans (h.get_eq k hk), h'.level_eq.trans h.level_eq⟩

end Agree

section Access

variable {name p key : String} {c : Json}

theorem Doc.agree (hc : Doc name c) : Agree name c c := ⟨hc, fun _ _ => rfl, rfl⟩

theorem exists_obj {j : Json} (h : j.isObject) : ∃ ms, j = .obj ms := by
  cases j with
  | obj ms => exact ⟨ms, rfl⟩
  | _ => cases h

/-- A value at the top does not concern the printers. -/
theorem Doc.insert {ms : List (String × Json)} (hc : Doc name (.obj ms)) {v : Json}
    (hv : v.Sorted) (hdefault : key = "default_printer" → v = .str name)
    (hprinters : key = "printers" → (v.get name).isObject) :
    Doc name (.obj (Assoc.insert key v ms)) := by
  refine ⟨sorted_insert hc.sorted key hv, rfl, ?_, hc.plain, ?_⟩
  · rw [Config.get_insert]
    split_ifs with hk
    · exact hdefault hk.symm
    · exact hc.default
  · rw [Config.get_insert]
    split_ifs with hk
    · exact hprinters hk.symm
    · exact hc.entry

/-- A read at the top creates nothing but nulls. -/
theorem getJson_top (hc : Doc name c) (hp : parsePointer p = some [key]) :
    ∃ d, getJson p c = some (c.get key, d) ∧ Agree name c d := by
  have hdefault := hc.default
  have hentry := hc.entry
  obtain ⟨ms, rfl⟩ := exists_obj hc.root
  have hsame : ∀ k, (Json.obj (Assoc.insert key ((Json.obj ms).get key) ms)).get k =
      (Json.obj ms).get k := by
    intro k
    rw [Config.get_insert]
    split_ifs with hk
    · rw [hk]
    · rfl
  refine ⟨.obj (Assoc.insert key ((Json.obj ms).get key) ms), ?_, ?_, fun k _ => hsame k, ?_⟩
  · rw [getJson, hp]
    rfl
  · refine hc.insert (Json.Sorted.get hc.sorted key) (fun hk => ?_) (fun hk => ?_)
    · rw [hk, hdefault]
    · rw [hk]
      exact hentry
  · rw [level, level, hsame]

/-- A value is stored at the top. -/
theorem set_top (hc : Doc name c) (hp : parsePointer p = some [key]) {v : Json} (hv : v.Sorted)
    (hdefault : key ≠ "default_printer") (hprinters : key ≠ "printers") :
    ∃ d, set p v c = some d ∧ Doc name d ∧ d.get key = v ∧
      (∀ k ≠ key, d.get k = c.get k) ∧ level name d = level name c := by
  obtain ⟨ms, rfl⟩ := exists_obj hc.root
  refine ⟨.obj (Assoc.insert key v ms), ?_, hc.insert hv (fun hk => absurd hk hdefault)
    (fun hk => absurd hk hprinters), ?_, fun k hk => ?_, ?_⟩
  · rw [set, hp]
    rfl
  · rw [Config.get_insert, if_pos rfl]
  · rw [Config.get_insert, if_neg hk]
  · rw [level, level, Config.get_insert, if_neg hprinters.symm]

theorem Doc.entry_eq (hc : Doc name c) : ∃ ms ps es, c = .obj ms ∧
    (Json.obj ms).get "printers" = .obj ps ∧ ps.lookup name = some (.obj es) ∧
    level name c = (Json.obj es).get "log_level" := by
  obtain ⟨ms, rfl⟩ := exists_obj hc.root
  obtain ⟨es, hes⟩ := exists_obj hc.entry
  have hlevel : level name (.obj ms) = (Json.obj es).get "log_level" := by rw [level, hes]
  cases hps : (Json.obj ms).get "printers" with
  | obj ps =>
    rw [hps, Json.get, Json.get?, Json.members] at hes
    cases hlookup : ps.lookup name with
    | none =>
      rw [hlookup] at hes
      cases hes
    | some e =>
      rw [hlookup, Option.getD_some] at hes
      exact ⟨ms, ps, es, rfl, hps, hes ▸ hlookup, hlevel⟩
  | _ =>
    rw [hps] at hes
    cases hes

/-- The level of a printer that has one is read without a change. -/
theorem getJson_level (hc : Doc name c) (hlevel : level name c ≠ .null) :
    getJson (dfPath name ++ "log_level") c = some (level name c, c) := by
  obtain ⟨ms, ps, es, rfl, hps, hes, hl⟩ := hc.entry_eq
  have hprinters : (Json.obj ms).get? "printers" = some (.obj ps) := by
    rw [Json.get] at hps
    cases hget : (Json.obj ms).get? "printers" with
    | none =>
      rw [hget] at hps
      cases hps
    | some v => exact congrArg some (by rw [hget, Option.getD_some] at hps; exact hps)
  have hentry : entryAt ["printers", name, "log_level"] (.obj ms) = some (level name (.obj ms)) := by
    have hname : (Json.obj ps).get? name = some (.obj es) := hes
    rw [entryAt, hprinters, Option.bind_some, entryAt, hname, Option.bind_some, entryAt, hl,
      Json.get]
    cases hlog : (Json.obj es).get? "log_level" with
    | none =>
      rw [hl, Json.get, hlog] at hlevel
      exact absurd rfl hlevel
    | some v => rfl
  obtain ⟨hget, hmodify⟩ := access_of_entryAt hc.sorted hentry
  rw [getJson, parsePointer_entry hc.plain (by decide), Option.bind_some, hmodify,
    Option.bind_some, hget]
  rfl

/-- A level is stored. -/
theorem set_level (hc : Doc name c) (l : String) :
    ∃ d, set (dfPath name ++ "log_level") (.str l) c = some d ∧ Doc name d ∧
      (∀ k ≠ "printers", d.get k = c.get k) ∧ level name d = .str l := by
  obtain ⟨ms, ps, es, rfl, hps, hes, -⟩ := hc.entry_eq
  have hsortedPs : (Json.obj ps).Sorted := hps ▸ Json.Sorted.get hc.sorted "printers"
  have hsortedEs : (Json.obj es).Sorted := by
    have hget := Json.Sorted.get hsortedPs name
    rwa [Json.get, Json.get?, Json.members, hes, Option.getD_some] at hget
  have hname : (Json.obj (Assoc.insert name
      (.obj (Assoc.insert "log_level" (.str l) es)) ps)).get name =
      .obj (Assoc.insert "log_level" (.str l) es) := by rw [Config.get_insert, if_pos rfl]
  refine ⟨.obj (Assoc.insert "printers" (.obj (Assoc.insert name
    (.obj (Assoc.insert "log_level" (.str l) es)) ps)) ms), ?_, ?_, fun k hk => ?_, ?_⟩
  · rw [set, parsePointer_entry hc.plain (by decide), Option.bind_some, setAt, modifyAt_cons_obj]
    change Option.map _ (modifyAt _ [name, "log_level"] ((Json.obj ms).get "printers")) = _
    rw [hps, modifyAt_cons_obj, hes, Option.getD_some, modifyAt_cons_obj]
    rfl
  · refine hc.insert (sorted_insert hsortedPs name (sorted_insert hsortedEs _ (sorted_str l)))
      (fun hk => absurd hk (by decide)) fun _ => ?_
    rw [hname]
    rfl
  · rw [Config.get_insert, if_neg hk]
  · rw [level, Config.get_insert, if_pos rfl, hname, Config.get_insert, if_pos rfl]

end Access

section Start

variable {name : String} {c : Json} (b : Build) (path thumbdir : String)

theorem sorted_saved_doc {ps : Json} {ms : List (String × Json)} (hps : ps.Sorted)
    (hms : (Json.obj ms).Sorted) : (saved b path (some ps) ms).Sorted := by
  have hedits : ∀ e ∈ topEdits b path (some ps), ∀ v, v.Sorted → (e.2 v).Sorted := by
    simp only [topEdits, displayKeys, Option.elim, List.cons_append, List.nil_append,
      List.forall_mem_cons]
    exact ⟨fun _ _ => sorted_str path, fun _ hv => hv, fun _ _ => hps,
      fun _ => sorted_fill (sorted_str _), fun _ => sorted_fill (by simp [Json.Sorted]),
      fun _ => sorted_fill (by simp [Json.Sorted]), fun _ => sorted_fill (by simp [Json.Sorted]),
      fun _ => sorted_fill (by simp [Json.Sorted]), fun _ h => absurd h List.not_mem_nil⟩
  have hall := Json.Sorted.editAt hedits hms (editAt_obj (topEdits b path (some ps)) ms)
  rw [sorted_obj_iff] at hall
  exact sorted_obj_iff.mpr ⟨hall.1.erase "theme", fun x hx => hall.2 x (List.mem_of_mem_filter hx)⟩

/-- A start completes the settings and keeps what is there. -/
theorem init_doc (hc : Doc name c) :
    ∃ d, Config.init b path thumbdir (some c) = some (d, some (dfPath name)) ∧ Doc name d ∧
      (∀ k ∈ ["display_brightness", "invert_z_icon", "update_channel"], d.get k = c.get k) ∧
      d.get "display_sleep_sec" = fill (.num (.int (-1))) (c.get "display_sleep_sec") ∧
      d.get "prompt_emergency_stop" = fill (.bool true) (c.get "prompt_emergency_stop") ∧
      level name d = fill (.str "debug") (level name c) := by
  have hdefault := hc.default
  obtain ⟨ms, ps, es, rfl, hps, hes, hlevel⟩ := hc.entry_eq
  have hsorted : Assoc.Sorted ms := (sorted_obj_iff.mp hc.sorted).1
  have hentry : (Json.obj ps).get name = .obj es := by
    rw [Json.get, Json.get?, Json.members, hes, Option.getD_some]
  have hedit := @editAt_entry name (.obj ps) (Or.inr rfl)
    (fun h => Json.noConfusion h) (Or.inr (hentry ▸ rfl))
  rw [hentry] at hedit
  generalize hps' : Json.obj (Assoc.insert name (.obj (updateAll entryEdits (Json.obj es).members))
    (Json.obj ps).members) = ps' at hedit
  have hinit : Config.init b path thumbdir (some (.obj ms)) =
      some (saved b path (some ps') ms, some (dfPath name)) := by
    rw [init_named b path thumbdir hsorted hdefault, nameTokens_plain hc.plain, Option.bind_some,
      hps, hedit]
    rfl
  have hget (k : String) (hk : k ≠ "theme") : (saved b path (some ps') ms).get k =
      ((((topEdits b path (some ps')).lookup k).map fun f => f ((Json.obj ms).get k)).or
        (ms.lookup k)).getD .null := by rw [Json.get, get?_saved b path (some ps') ms hk]
  have hprinters : (saved b path (some ps') ms).get "printers" = ps' := by
    rw [hget _ (by decide)]
    rfl
  have hname : ps'.get name = .obj (updateAll entryEdits es) := by
    rw [← hps', Config.get_insert, if_pos rfl]
    rfl
  have hsortedPs : (Json.obj ps).Sorted := hps ▸ Json.Sorted.get hc.sorted "printers"
  have hsortedPs' : ps'.Sorted := Json.Sorted.editAt sorted_entryEdits hsortedPs hedit
  refine ⟨_, hinit, ⟨?_, rfl, ?_, hc.plain, ?_⟩, fun k hk => ?_, ?_, ?_, ?_⟩
  · exact sorted_saved_doc b path hsortedPs' hc.sorted
  · exact (get_saved_default b path (some ps') ms).trans hdefault
  · rw [hprinters, hname]
    rfl
  · simp only [List.mem_cons, List.not_mem_nil, or_false] at hk
    rcases hk with rfl | rfl | rfl <;>
    · rw [hget _ (by decide)]
      rfl
  · rw [hget _ (by decide)]
    rfl
  · rw [hget _ (by decide)]
    rfl
  · rw [level, hprinters, hname, Json.get, Json.get?, Json.members,
      lookup_updateAll nodup_entryEdits, hlevel]
    rfl

end Start

section Build

variable {name l : String} {c : Json} {i : ℕ} {estop z : Bool}

/-- What the constructor shows of a document. -/
theorem build_doc (hc : Doc name c) (hsleep : sleepShown (c.get "display_sleep_sec") = some i)
    (hestop : switchShown true (c.get "prompt_emergency_stop") = some estop)
    (hz : switchShown false (c.get "invert_z_icon") = some z) (hlevel : level name c = .str l)
    (hl : l ∈ logLevels) (backlight : Option ℤ) :
    ∃ d, build (dfPath name) c backlight = some (⟨i, estop, z, logLevels.idxOf l,
      logLevels.idxOf l, if channelOf (c.get "update_channel") = .stable then 1 else 0,
      readBacklight (restoreBacklight (c.get "display_brightness") backlight)⟩, d,
      restoreBacklight (c.get "display_brightness") backlight) ∧ Agree name c d := by
  obtain ⟨d₁, h₁, ha₁⟩ := getJson_top hc pointers.brightness
  obtain ⟨d₂, h₂, ha₂⟩ := getJson_top ha₁.doc pointers.sleep
  obtain ⟨d₃, h₃, ha₃⟩ := getJson_top ha₂.doc pointers.estop
  obtain ⟨d₄, h₄, ha₄⟩ := getJson_top ha₃.doc pointers.z
  obtain ⟨d₅, h₅, ha₅⟩ := getJson_top ha₄.doc pointers.printer
  obtain ⟨d₆, h₆, ha₆⟩ := getJson_top ha₅.doc pointers.channel
  have hagree₂ := ha₁.trans ha₂
  have hagree₃ := hagree₂.trans ha₃
  have hagree₅ := (hagree₃.trans ha₄).trans ha₅
  rw [ha₁.get_eq _ (by decide)] at h₂
  rw [hagree₂.get_eq _ (by decide)] at h₃
  rw [hagree₃.get_eq _ (by decide)] at h₄
  rw [ha₄.doc.default] at h₅
  rw [hagree₅.get_eq _ (by decide)] at h₆
  have hlevel₅ : level name d₅ = .str l := hagree₅.level_eq.trans hlevel
  have hread := getJson_level ha₅.doc (hlevel₅ ▸ Json.noConfusion)
  have hshown : levelShown (.str l) = some (logLevels.idxOf l, logLevels.idxOf l) := by
    rw [levelShown]
    exact congrArg some (if_pos hl)
  rw [hlevel₅] at hread
  have hopened : (if (Json.str name).isEmpty then some (.null, d₅)
      else getJson (dfPath name ++ "log_level") d₅) = some (.str l, d₅) :=
    (if_neg Bool.false_ne_true).trans hread
  have hchannel : updateChannel d₅ = some (channelOf (c.get "update_channel"), d₆) := by
    rw [updateChannel, h₆]
    rfl
  refine ⟨d₆, ?_, hagree₅.trans ha₆⟩
  refine Option.bind_eq_some_iff.mpr ⟨_, h₁, ?_⟩
  refine Option.bind_eq_some_iff.mpr ⟨_, h₂, Option.bind_eq_some_iff.mpr ⟨_, hsleep, ?_⟩⟩
  refine Option.bind_eq_some_iff.mpr ⟨_, h₃, Option.bind_eq_some_iff.mpr ⟨_, hestop, ?_⟩⟩
  refine Option.bind_eq_some_iff.mpr ⟨_, h₄, Option.bind_eq_some_iff.mpr ⟨_, hz, ?_⟩⟩
  refine Option.bind_eq_some_iff.mpr ⟨_, h₅, ?_⟩
  refine Option.bind_eq_some_iff.mpr ⟨_, hopened, ?_⟩
  refine Option.bind_eq_some_iff.mpr ⟨_, hshown, ?_⟩
  exact Option.bind_eq_some_iff.mpr ⟨_, hchannel, rfl⟩

end Build

/-- A configuration that the panel can be made from. -/
structure Readable (name : String) (c : Json) : Prop where
  doc : Doc name c
  sleep : (sleepShown (c.get "display_sleep_sec")).isSome
  promptEstop : (switchShown true (c.get "prompt_emergency_stop")).isSome
  invertZ : (switchShown false (c.get "invert_z_icon")).isSome
  level : level name c = .null ∨ ∃ l ∈ logLevels, level name c = .str l

/-- The panel shows these entries. -/
structure Shows (v : Values) (p : Panel) : Prop where
  sleep : sleepShown v.sleep = some p.sleep
  promptEstop : v.promptEstop = .bool p.promptEstop
  invertZ : switchShown false v.invertZ = some p.invertZ
  level : ∃ l ∈ logLevels, v.level = .str l ∧ p.loglevel = logLevels.idxOf l
  logDd : p.logDd = p.loglevel
  channel : p.channel = if channelOf v.channel = .stable then 1 else 0

/-- The panel shows the document, and the saved one holds the same. -/
structure Shown (name : String) (a : App) : Prop where
  doc : Doc name a.data
  file : Agree name a.data a.file
  df : a.df = dfPath name
  shows : Shows (values name a.data) a.panel
  brightness : 5 ≤ a.panel.brightness ∧ a.panel.brightness ≤ 100
  backlight : ∀ v ∈ a.backlight, v = a.panel.brightness

theorem clamp_of_mem {v : ℤ} (h : 5 ≤ v ∧ v ≤ 100) : clamp v = v := by
  rw [clamp]
  omega

theorem clamp_mem (v : ℤ) : 5 ≤ clamp v ∧ clamp v ≤ 100 := by
  rw [clamp]
  omega

theorem readBacklight_mem (backlight : Option ℤ) :
    5 ≤ readBacklight backlight ∧ readBacklight backlight ≤ 100 := by
  cases backlight with
  | none => exact ⟨by decide, by decide⟩
  | some v => exact clamp_mem v

/-- The backlight after a start. -/
theorem restoreBacklight_eq (saved : Json) (backlight : Option ℤ) :
    restoreBacklight saved backlight = backlight.map fun v => (keptOf saved).getD v := by
  unfold restoreBacklight keptOf
  split
  · rfl
  · exact Option.map_id'.symm

theorem sleepShown_fill (v : Json) : sleepShown (fill (.num (.int (-1))) v) = sleepShown v := by
  by_cases hv : v = .null
  · rw [hv]
    decide
  · rw [fill_of_ne_null hv]

/-- A switch that is shown in the position for a missing entry has its entry after a start. -/
theorem fill_of_switchShown {b e : Bool} {v : Json} (h : switchShown b v = some e) :
    fill (.bool b) v = .bool e := by
  cases v with
  | null =>
    cases h
    exact fill_null _
  | bool x =>
    cases h
    exact fill_of_ne_null Json.noConfusion
  | _ => cases h

section Run

variable (b : Build) (path thumbdir : String) {name : String}

/-- A start shows what the document says. -/
theorem launch_readable {c : Json} (hc : Readable name c) (backlight : Option ℤ)
    (hbacklight : ∀ v ∈ backlight, 5 ≤ v ∧ v ≤ 100) :
    ∃ a, launch b path thumbdir (some c) backlight = some a ∧ Shown name a ∧
      sleepShown (c.get "display_sleep_sec") = some a.panel.sleep ∧
      switchShown true (c.get "prompt_emergency_stop") = some a.panel.promptEstop ∧
      switchShown false (c.get "invert_z_icon") = some a.panel.invertZ ∧
      (∀ l, level name c = .str l → a.panel.logDd = logLevels.idxOf l) ∧
      (a.panel.channel = if channelOf (c.get "update_channel") = .stable then 1 else 0) ∧
      a.data.get "display_brightness" = c.get "display_brightness" ∧
      a.backlight = backlight.map (fun v => (keptOf (c.get "display_brightness")).getD v) ∧
      a.panel.brightness = a.backlight.getD 100 := by
  obtain ⟨d, hinit, hdoc, hfree, hsleep, hestop, hlevel⟩ := init_doc b path thumbdir hc.doc
  obtain ⟨i, hi⟩ := Option.isSome_iff_exists.mp hc.sleep
  obtain ⟨e, he⟩ := Option.isSome_iff_exists.mp hc.promptEstop
  obtain ⟨z, hz⟩ := Option.isSome_iff_exists.mp hc.invertZ
  have hi' : sleepShown (d.get "display_sleep_sec") = some i := by rw [hsleep, sleepShown_fill, hi]
  have hbool : d.get "prompt_emergency_stop" = .bool e := by rw [hestop, fill_of_switchShown he]
  have he' : switchShown true (d.get "prompt_emergency_stop") = some e := by
    rw [hbool]
    rfl
  have hz' : switchShown false (d.get "invert_z_icon") = some z := by
    rw [hfree _ (by simp), hz]
  obtain ⟨l, hl, hlevel', hsame⟩ : ∃ l ∈ logLevels, level name d = .str l ∧
      ∀ l', level name c = .str l' → l' = l := by
    rcases hc.level with hnull | ⟨l, hl, hstr⟩
    · refine ⟨"debug", by decide, by rw [hlevel, hnull, fill_null], fun l' hl' => ?_⟩
      rw [hnull] at hl'
      cases hl'
    · refine ⟨l, hl, by rw [hlevel, hstr, fill_of_ne_null Json.noConfusion], fun l' hl' => ?_⟩
      rw [hstr] at hl'
      exact (Json.str.inj hl').symm
  obtain ⟨d', hbuild, hagree⟩ := build_doc hdoc hi' he' hz' hlevel' hl backlight
  have hchannel : d.get "update_channel" = c.get "update_channel" := hfree _ (by simp)
  have hsaved : d.get "display_brightness" = c.get "display_brightness" := hfree _ (by simp)
  rw [hchannel, hsaved, restoreBacklight_eq] at hbuild
  have hkept : ∀ v ∈ backlight.map (fun v => (keptOf (c.get "display_brightness")).getD v),
      5 ≤ v ∧ v ≤ 100 := by
    intro v hv
    obtain ⟨w, hw, rfl⟩ := Option.map_eq_some_iff.mp hv
    cases hk : keptOf (c.get "display_brightness") with
    | none => exact hbacklight w hw
    | some k =>
      unfold keptOf at hk
      split at hk
      · cases hk
        exact clamp_mem _
      · cases hk
  generalize backlight.map (fun v => (keptOf (c.get "display_brightness")).getD v) = lit at *
  have hlit : readBacklight lit = lit.getD 100 := by
    cases lit with
    | none => rfl
    | some v => exact clamp_of_mem (hkept v rfl)
  refine ⟨⟨d, d', dfPath name, lit, ⟨i, e, z, logLevels.idxOf l, logLevels.idxOf l,
    if channelOf (c.get "update_channel") = .stable then 1 else 0, readBacklight lit⟩⟩, ?_, ?_,
    hi, he, hz, fun l' hl' => by rw [hsame l' hl'], rfl, ?_, rfl, hlit⟩
  · rw [launch, hinit]
    simp only [Option.bind_eq_bind, Option.bind_some, Option.getD_some, hbuild]
    rfl
  · refine ⟨hagree.doc, ⟨hdoc, fun k hk => (hagree.get_eq k hk).symm, hagree.level_eq.symm⟩, rfl,
      ?_, readBacklight_mem _, fun v hv => ?_⟩
    · rw [hagree.values_eq]
      exact ⟨hi', hbool, hz', ⟨l, hl, hlevel', rfl⟩, rfl, by rw [← hchannel]; rfl⟩
    · have hv : lit = some v := hv
      have hread : readBacklight lit = v := hlit.trans (hv ▸ rfl)
      exact hread.symm
  · rw [hagree.get_eq _ (by decide), hsaved]

theorem save_top {a : App} (hdoc : Doc name a.data) {p key : String}
    (hp : parsePointer p = some [key]) {v : Json} (hv : v.Sorted)
    (hkey : key ≠ "default_printer" ∧ key ≠ "printers") :
    ∃ d, a.save p v = some { a with data := d, file := d } ∧ Doc name d ∧ d.get key = v ∧
      (∀ k ≠ key, d.get k = a.data.get k) ∧ level name d = level name a.data := by
  obtain ⟨d, hset, hdoc', hget, hother, hlevel⟩ := set_top hdoc hp hv hkey.1 hkey.2
  exact ⟨d, by rw [App.save, hset]; rfl, hdoc', hget, hother, hlevel⟩

/-- Each option of the display sleep is stored as an interval that shows it again. -/
theorem sleep_option (i : Fin 6) : ∃ sec,
    (sleepOptions[i.val]?.bind fun label => sleepLabelToSec.lookup label) = some sec ∧
      sleepShown (.num (.int sec)) = some i.val := by
  have hall : ∀ i : Fin 6, ∃ e ∈ sleepLabelToSec,
      (sleepOptions[i.val]?.bind fun label => sleepLabelToSec.lookup label) = some e.2 ∧
        sleepShown (.num (.int e.2)) = some i.val := by decide
  obtain ⟨e, -, he⟩ := hall i
  exact ⟨e.2, he⟩

theorem level_option (i : Fin 3) : logLevels.getD i "" ∈ logLevels ∧
    logLevels.idxOf (logLevels.getD i "") = i.val := by
  revert i
  decide

theorem channel_option (i : Fin 2) : i.val = if selectedChannel i = .stable then 1 else 0 := by
  revert i
  decide

theorem channelOf_text (c : Channel) : channelOf (.str c.text) = c := by
  cases c <;> decide

/-- What a step shows, keeps and needs. -/
def Simulates (name : String) (a : App) (e : Event) : Prop :=
  ∃ a', a.handle b path thumbdir e = some a' ∧ Shown name a' ∧
    a'.backlight.isSome = a.backlight.isSome ∧
    a'.choice = a.choice.step a.backlight.isSome e

theorem simulates_sleep {a : App} (ha : Shown name a) (i : Fin 6) :
    Simulates b path thumbdir name a (.sleep i) := by
  obtain ⟨sec, hsec, hshown⟩ := sleep_option i
  obtain ⟨d, hsave, hdoc, hget, hother, hlevel⟩ := save_top
    (a := { a with panel := { a.panel with sleep := i } }) ha.doc pointers.sleep
    (by simp [Json.Sorted] : (Json.num (.int sec)).Sorted) ⟨by decide, by decide⟩
  have hvalues : values name d = { values name a.data with sleep := .num (.int sec) } := by
    simp only [values, hget, hlevel, hother _ (by decide : "prompt_emergency_stop" ≠ _),
      hother _ (by decide : "invert_z_icon" ≠ _), hother _ (by decide : "update_channel" ≠ _),
      hother _ (by decide : "display_brightness" ≠ _)]
  refine ⟨{ a with panel := { a.panel with sleep := i }, data := d, file := d }, ?_,
    ⟨hdoc, hdoc.agree, ha.df, ?_, ha.brightness, ha.backlight⟩, rfl, ?_⟩
  · dsimp only [App.handle]
    rw [hsec]
    exact hsave
  · rw [hvalues]
    exact { ha.shows with sleep := hshown }
  · simp only [App.choice, Choice.step, hother _ (by decide : "display_brightness" ≠ _)]

theorem simulates_promptEstop {a : App} (ha : Shown name a) (on : Bool) :
    Simulates b path thumbdir name a (.promptEstop on) := by
  obtain ⟨d, hsave, hdoc, hget, hother, hlevel⟩ := save_top
    (a := { a with panel := { a.panel with promptEstop := on } }) ha.doc pointers.estop
    (by simp [Json.Sorted] : (Json.bool on).Sorted) ⟨by decide, by decide⟩
  have hvalues : values name d = { values name a.data with promptEstop := .bool on } := by
    simp only [values, hget, hlevel, hother _ (by decide : "display_sleep_sec" ≠ _),
      hother _ (by decide : "invert_z_icon" ≠ _), hother _ (by decide : "update_channel" ≠ _),
      hother _ (by decide : "display_brightness" ≠ _)]
  refine ⟨{ a with panel := { a.panel with promptEstop := on }, data := d, file := d }, hsave,
    ⟨hdoc, hdoc.agree, ha.df, ?_, ha.brightness, ha.backlight⟩, rfl, ?_⟩
  · rw [hvalues]
    exact { ha.shows with promptEstop := rfl }
  · simp only [App.choice, Choice.step, hother _ (by decide : "display_brightness" ≠ _)]

theorem simulates_invertZ {a : App} (ha : Shown name a) (on : Bool) :
    Simulates b path thumbdir name a (.invertZ on) := by
  obtain ⟨d, hsave, hdoc, hget, hother, hlevel⟩ := save_top
    (a := { a with panel := { a.panel with invertZ := on } }) ha.doc pointers.z
    (by simp [Json.Sorted] : (Json.bool on).Sorted) ⟨by decide, by decide⟩
  have hvalues : values name d = { values name a.data with invertZ := .bool on } := by
    simp only [values, hget, hlevel, hother _ (by decide : "display_sleep_sec" ≠ _),
      hother _ (by decide : "prompt_emergency_stop" ≠ _),
      hother _ (by decide : "update_channel" ≠ _), hother _ (by decide : "display_brightness" ≠ _)]
  refine ⟨{ a with panel := { a.panel with invertZ := on }, data := d, file := d }, hsave,
    ⟨hdoc, hdoc.agree, ha.df, ?_, ha.brightness, ha.backlight⟩, rfl, ?_⟩
  · rw [hvalues]
    exact { ha.shows with invertZ := rfl }
  · simp only [App.choice, Choice.step, hother _ (by decide : "display_brightness" ≠ _)]

/-- The level in force is not stored again. -/
theorem simulates_level {a : App} (ha : Shown name a) (i : Fin 3) :
    Simulates b path thumbdir name a (.level i) := by
  obtain ⟨hmem, hidx⟩ := level_option i
  by_cases hsame : i.val = a.panel.loglevel
  · refine ⟨{ a with panel := { a.panel with logDd := i } }, ?_,
      ⟨ha.doc, ha.file, ha.df, { ha.shows with logDd := hsame }, ha.brightness, ha.backlight⟩,
      rfl, rfl⟩
    dsimp only [App.handle]
    rw [if_neg fun h => h.1 hsame]
  · obtain ⟨d, hset, hdoc, hother, hlevel⟩ := set_level ha.doc (logLevels.getD i "")
    have hvalues : values name d =
        { values name a.data with level := .str (logLevels.getD i "") } := by
      simp only [values, hlevel, hother _ (by decide : "display_sleep_sec" ≠ _),
        hother _ (by decide : "prompt_emergency_stop" ≠ _),
        hother _ (by decide : "invert_z_icon" ≠ _), hother _ (by decide : "update_channel" ≠ _),
        hother _ (by decide : "display_brightness" ≠ _)]
    refine ⟨{ a with panel := { a.panel with logDd := i, loglevel := i }, data := d, file := d },
      ?_, ⟨hdoc, hdoc.agree, ha.df, ?_, ha.brightness, ha.backlight⟩, rfl, ?_⟩
    · dsimp only [App.handle]
      rw [if_pos ⟨hsame, i.isLt⟩, App.save]
      dsimp only
      rw [ha.df, hset]
      rfl
    · rw [hvalues]
      exact { ha.shows with level := ⟨_, hmem, rfl, hidx.symm⟩, logDd := rfl }
    · simp only [App.choice, Choice.step, hother _ (by decide : "display_brightness" ≠ _)]

/-- The channel in force is not stored again, though looking it up may create the entry. -/
theorem simulates_channel {a : App} (ha : Shown name a) (i : Fin 2) :
    Simulates b path thumbdir name a (.channel i) := by
  have hp := pointers.channel
  obtain ⟨d₀, hread, hagree⟩ := getJson_top ha.doc hp
  have hkept₀ : d₀.get "display_brightness" = a.data.get "display_brightness" :=
    hagree.get_eq _ (by decide)
  have hcurrent : updateChannel a.data = some (channelOf (a.data.get "update_channel"), d₀) := by
    rw [updateChannel, hread, Option.map_some]
  by_cases hsame : selectedChannel i = channelOf (a.data.get "update_channel")
  · refine ⟨{ a with panel := { a.panel with channel := i }, data := d₀ }, ?_, ⟨hagree.doc, ?_,
      ha.df, ?_, ha.brightness, ha.backlight⟩, rfl, ?_⟩
    · dsimp only [App.handle]
      simp only [hcurrent, Option.bind_eq_bind, Option.bind_some, hsame, ne_eq, not_true_eq_false,
        if_false]
    · exact ⟨ha.file.doc, fun k hk => (ha.file.get_eq k hk).trans (hagree.get_eq k hk).symm,
        ha.file.level_eq.trans hagree.level_eq.symm⟩
    · rw [hagree.values_eq]
      exact { ha.shows with channel := hsame ▸ channel_option i }
    · simp only [App.choice, Choice.step, hkept₀]
  · obtain ⟨d, hsave, hdoc, hget, hother, hlevel⟩ := save_top
      (a := { a with panel := { a.panel with channel := i }, data := d₀ }) hagree.doc hp
      (sorted_str (selectedChannel i).text) ⟨by decide, by decide⟩
    have hvalues : values name d =
        { values name d₀ with channel := .str (selectedChannel i).text } := by
      simp only [values, hget, hlevel, hother _ (by decide : "display_sleep_sec" ≠ _),
        hother _ (by decide : "prompt_emergency_stop" ≠ _),
        hother _ (by decide : "invert_z_icon" ≠ _), hother _ (by decide : "display_brightness" ≠ _)]
    refine ⟨{ a with panel := { a.panel with channel := i }, data := d, file := d }, ?_,
      ⟨hdoc, hdoc.agree, ha.df, ?_, ha.brightness, ha.backlight⟩, rfl, ?_⟩
    · dsimp only [App.handle]
      simp only [hcurrent, Option.bind_eq_bind, Option.bind_some, ne_eq, hsame, not_false_eq_true,
        if_true]
      exact hsave
    · rw [hvalues, hagree.values_eq]
      exact { ha.shows with channel := by rw [channelOf_text]; exact channel_option i }
    · simp only [App.choice, Choice.step, hother _ (by decide : "display_brightness" ≠ _), hkept₀]

theorem simulates_drag {a : App} (ha : Shown name a) (v : Percent) :
    Simulates b path thumbdir name a (.drag v) := by
  refine ⟨{ a with panel := { a.panel with brightness := v.value }
                   backlight := writeBacklight v.value a.backlight }, rfl,
    ⟨ha.doc, ha.file, ha.df, { ha.shows with }, ⟨v.low, v.high⟩, fun w hw => ?_⟩,
    Option.isSome_map, rfl⟩
  obtain ⟨x, -, rfl⟩ := Option.map_eq_some_iff.mp hw
  exact clamp_of_mem ⟨v.low, v.high⟩

theorem simulates_release {a : App} (ha : Shown name a) :
    Simulates b path thumbdir name a .release := by
  obtain ⟨d, hsave, hdoc, hget, hother, hlevel⟩ := save_top ha.doc pointers.brightness
    (by simp [Json.Sorted] : (Json.num (.int a.panel.brightness)).Sorted) ⟨by decide, by decide⟩
  have hvalues : values name d =
      { values name a.data with brightness := .num (.int a.panel.brightness) } := by
    simp only [values, hget, hlevel, hother _ (by decide : "display_sleep_sec" ≠ _),
      hother _ (by decide : "prompt_emergency_stop" ≠ _),
      hother _ (by decide : "invert_z_icon" ≠ _), hother _ (by decide : "update_channel" ≠ _)]
  have hkept : keptOf (.num (.int a.panel.brightness)) = some a.panel.brightness := by
    obtain ⟨hlow, hhigh⟩ := ha.brightness
    have hsmall : a.panel.brightness.bmod (2 ^ 32) = a.panel.brightness :=
      Int.bmod_eq_of_le (by omega) (by omega)
    rw [keptOf, hsmall, clamp_of_mem ha.brightness]
  refine ⟨{ a with data := d, file := d }, hsave,
    ⟨hdoc, hdoc.agree, ha.df, ?_, ha.brightness, ha.backlight⟩, rfl, ?_⟩
  · rw [hvalues]
    exact { ha.shows with }
  · simp only [App.choice, Choice.step, hget, hkept]

/-- The saved document says what the one in memory says, so that a start shows the same. -/
theorem simulates_restart {a : App} (ha : Shown name a) :
    Simulates b path thumbdir name a .restart := by
  have hvalues := ha.file.values_eq
  obtain ⟨hsleep, hbool, hz, ⟨l, hl, hlevel, hloglevel⟩, hlog, hchannel⟩ := hvalues ▸ ha.shows
  have hestop : switchShown true (a.file.get "prompt_emergency_stop") =
      some a.panel.promptEstop := congrArg (switchShown true) hbool
  have hread : Readable name a.file := ⟨ha.file.doc, Option.isSome_iff_exists.mpr ⟨_, hsleep⟩,
    Option.isSome_iff_exists.mpr ⟨_, hestop⟩, Option.isSome_iff_exists.mpr ⟨_, hz⟩,
    Or.inr ⟨l, hl, hlevel⟩⟩
  have hlit : ∀ v ∈ a.backlight, 5 ≤ v ∧ v ≤ 100 := fun v hv =>
    (ha.backlight v hv).symm ▸ ha.brightness
  obtain ⟨a', hlaunch, hshown, hsleep', hestop', hz', hlevel', hchannel', hkept', hback', hbright'⟩ :=
    launch_readable b path thumbdir hread a.backlight hlit
  have hkept : a'.data.get "display_brightness" = a.data.get "display_brightness" :=
    hkept'.trans (ha.file.get_eq _ (by decide))
  refine ⟨a', hlaunch, hshown, by rw [hback', Option.isSome_map], ?_⟩
  have hpanel : a'.panel.sleep = a.panel.sleep ∧ a'.panel.promptEstop = a.panel.promptEstop ∧
      a'.panel.invertZ = a.panel.invertZ ∧ a'.panel.logDd = a.panel.logDd ∧
      a'.panel.channel = a.panel.channel :=
    ⟨Option.some.inj (hsleep'.symm.trans hsleep), Option.some.inj (hestop'.symm.trans hestop),
      Option.some.inj (hz'.symm.trans hz), (hlevel' l hlevel).trans (hlog.trans hloglevel).symm,
      hchannel'.trans hchannel.symm⟩
  obtain ⟨h₁, h₂, h₃, h₄, h₅⟩ := hpanel
  have hfile : a.file.get "display_brightness" = a.data.get "display_brightness" :=
    ha.file.get_eq _ (by decide)
  have hbright : a'.panel.brightness = if a.backlight.isSome then
      (keptOf (a.data.get "display_brightness")).getD a.panel.brightness else 100 := by
    rw [hbright', hback', hfile]
    cases hb : a.backlight with
    | none => rfl
    | some v => rw [ha.backlight v hb]; rfl
  simp only [App.choice, Choice.step, h₁, h₂, h₃, h₄, h₅, hkept, hbright]

theorem simulates {a : App} (ha : Shown name a) (e : Event) :
    Simulates b path thumbdir name a e := by
  cases e with
  | sleep i => exact simulates_sleep b path thumbdir ha i
  | promptEstop on => exact simulates_promptEstop b path thumbdir ha on
  | invertZ on => exact simulates_invertZ b path thumbdir ha on
  | level i => exact simulates_level b path thumbdir ha i
  | channel i => exact simulates_channel b path thumbdir ha i
  | drag v => exact simulates_drag b path thumbdir ha v
  | release => exact simulates_release b path thumbdir ha
  | restart => exact simulates_restart b path thumbdir ha

/-- Other panels act by what the switches show. -/
theorem Shown.prompt {a : App} (ha : Shown name a) :
    (promptEnabled a.data).map Prod.fst = some a.panel.promptEstop ∧
      (invertedZ a.data).map Prod.fst = some a.panel.invertZ := by
  have hbool : a.data.get "prompt_emergency_stop" = .bool a.panel.promptEstop := ha.shows.promptEstop
  have hz : switchShown false (a.data.get "invert_z_icon") = some a.panel.invertZ := ha.shows.invertZ
  obtain ⟨d, hd, -⟩ := getJson_top ha.doc pointers.estop
  obtain ⟨d', hd', -⟩ := getJson_top ha.doc pointers.z
  constructor
  · rw [promptEnabled, hd, hbool]
    rfl
  · rw [invertedZ, hd', Option.bind_some]
    dsimp only
    rw [hz]
    rfl

end Run

end PowerScreen.SysInfo.Settings
