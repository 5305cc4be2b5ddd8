import PowerScreen.Config.Entries

/-! # A start on a valid document

A start succeeds on every valid document: `Config::init` goes through, the address
of the default printer and of every printer can be read, and what is saved is
valid again and lists every printer of before.
-/
namespace PowerScreen.Config
open Library Library.Json

theorem get_erase (ms : List (String × Json)) (j k : String) :
    (Json.obj (Assoc.erase k ms)).get j = if j = k then .null else (Json.obj ms).get j := by
  rw [Json.get, Json.get?, Json.members, Assoc.lookup_erase]
  split_ifs <;> rfl

/-- A change at the top that reads the same afterwards. -/
theorem Valid.frame {c : Json} (hc : Valid c) {ms : List (String × Json)}
    (hprinters : (Json.obj ms).get "printers" = c.get "printers")
    (hdefault : (Json.obj ms).get "default_printer" = c.get "default_printer") :
    Valid (.obj ms) ∧ Extends c (.obj ms) :=
  ⟨hc.congr hprinters hdefault, hdefault, fun name hname => by rwa [hprinters]⟩

theorem setAt_config_path {c : Json} (hc : Valid c) (path : String) :
    ∃ d, setAt ["config_path"] (.str path) c = some d ∧ Valid d ∧ Extends c d := by
  obtain ⟨ms, rfl⟩ := hc.root
  refine ⟨.obj (Assoc.insert "config_path" (.str path) ms), rfl, hc.frame ?_ ?_⟩
  · rw [get_insert, if_neg (by decide)]
  · rw [get_insert, if_neg (by decide)]

theorem ensureAt_default {c : Json} (hc : Valid c) :
    ∃ d, ensureAt ["default_printer"] .null c = some d ∧ Valid d ∧ Extends c d := by
  obtain ⟨ms, rfl⟩ := hc.root
  have hkeep : (if (Json.obj ms).get "default_printer" = .null then Json.null
      else (Json.obj ms).get "default_printer") = (Json.obj ms).get "default_printer" := by
    split_ifs with h
    · exact h.symm
    · rfl
  refine ⟨.obj (Assoc.insert "default_printer" ((Json.obj ms).get "default_printer") ms), ?_,
    hc.frame ?_ ?_⟩
  · conv_rhs => rw [← hkeep]
    rfl
  · rw [get_insert, if_neg (by decide)]
  · rw [get_insert, if_pos rfl]

theorem eraseKey_theme {c : Json} (hc : Valid c) :
    ∃ d, eraseKey "theme" c = some d ∧ Valid d ∧ Extends c d := by
  obtain ⟨ms, rfl⟩ := hc.root
  refine ⟨.obj (Assoc.erase "theme" ms), rfl, hc.frame ?_ ?_⟩
  · rw [get_erase, if_neg (by decide)]
  · rw [get_erase, if_neg (by decide)]

/-- The path the start computes belongs to the default printer. -/
inductive PathOf : Json → Option String → Prop
  | absent : PathOf .null none
  | named (name : String) : PathOf (.str name) (some (dfPath name))

theorem df?_eq {c : Json} (hc : Valid c) :
    ∃ df, df? (c.get "default_printer") = some df ∧ PathOf (c.get "default_printer") df := by
  rcases hc.default with ⟨hnull, -⟩ | ⟨name, -, -, hname, -, -⟩
  · rw [hnull]
    exact ⟨none, rfl, .absent⟩
  · rw [hname]
    exact ⟨_, rfl, .named name⟩

theorem applyEdits_init (b : Build) {c : Json} (hc : Valid c) {df : Option String}
    (hdf : PathOf (c.get "default_printer") df) :
    ∃ d, applyEdits (df.elim [] printerEdits ++ displayEdits b) c = some d ∧
      Valid d ∧ Extends c d := by
  generalize hdefault : c.get "default_printer" = dflt at hdf
  cases hdf with
  | absent => exact applyEdits_harmless (harmless_displayEdits b none) hc (fun _ h => nomatch h)
  | named name =>
    have hes : ∀ e ∈ printerEdits (dfPath name) ++ displayEdits b, Harmless (some name) e := by
      intro e he
      rcases List.mem_append.mp he with he | he
      · exact harmless_printerEdits name e he
      · exact harmless_displayEdits b (some name) e he
    exact applyEdits_harmless hes hc (fun name' h => Option.some.inj h ▸ hdefault)

/-- `Config::init` on a valid document. -/
theorem init_valid (b : Build) (path thumbdir : String) (file : Option Json) {c : Json}
    (hfile : file.getD (initial b thumbdir) = c) (hc : Valid c) :
    ∃ d df, init b path thumbdir file = some (d, df) ∧
      Valid d ∧ Extends c d ∧ PathOf (d.get "default_printer") df := by
  obtain ⟨c₁, h₁, hv₁, he₁⟩ := setAt_config_path hc path
  obtain ⟨c₂, h₂, hv₂, he₂⟩ := ensureAt_default hv₁
  obtain ⟨df, hdf, hpath⟩ := df?_eq hv₂
  obtain ⟨c₃, h₃, hv₃, he₃⟩ := applyEdits_init b hv₂ hpath
  obtain ⟨c₄, h₄, hv₄, he₄⟩ := eraseKey_theme hv₃
  refine ⟨c₄, df, ?_, hv₄, ((he₁.trans he₂).trans he₃).trans he₄, ?_⟩
  · rw [init, hfile, h₁, Option.bind_some, h₂, Option.bind_some, hdf, Option.bind_some, h₃,
      Option.bind_some, h₄, Option.map_some]
  · rw [he₄.default, he₃.default]
    exact hpath

theorem getText_entry {c entry : Json} {ps : List (String × Json)} {name key : String}
    (hname : Plain name) (hkey : Plain key) (hc : ∃ ms, c = .obj ms)
    (hprinters : c.get "printers" = .obj ps) (hentry : ps.lookup name = some entry)
    (hobj : ∃ es, entry = .obj es) :
    getText (dfPath name ++ key) c = some (entry.get key) := by
  obtain ⟨ms, rfl⟩ := hc
  obtain ⟨es, rfl⟩ := hobj
  rw [getText, parsePointer_entry hname hkey, Option.bind_some, getAt_cons_obj]
  change getAt [name, key] ((Json.obj ms).get "printers") = _
  rw [hprinters, getAt_cons_obj, hentry]
  rfl

/-- The address of the default printer can be read. -/
theorem connection_isSome {c : Json} (hc : Valid c) {df : Option String}
    (hdf : PathOf (c.get "default_printer") df) : ∃ r, connection c df = some r := by
  by_cases hempty : (c.get "printers").isEmpty = true
  · exact ⟨none, if_pos hempty⟩
  · rcases hc.default with ⟨-, hnull⟩ | ⟨name, ps, entry, hname, hprinters, hentry⟩
    · rw [hnull] at hempty
      exact absurd rfl hempty
    · rw [hname] at hdf
      cases hdf
      have hold : Plain name ∧ Addressed entry := by
        have h := hc.printers (name, entry)
        rw [hprinters] at h
        exact h (Assoc.mem_of_lookup hentry)
      obtain ⟨host, hhost⟩ := hold.2.host
      obtain ⟨port, hport⟩ := hold.2.port
      have hh := getText_entry hold.1 (by decide : Plain "moonraker_host") hc.root hprinters
        hentry hold.2.obj
      have hp := getText_entry hold.1 (by decide : Plain "moonraker_port") hc.root hprinters
        hentry hold.2.obj
      rw [Json.get, hhost] at hh
      rw [Json.get, hport] at hp
      rw [connection, if_neg hempty, Option.getD_some, hh, hp]
      exact ⟨_, rfl⟩

theorem container_eq {m : String × Json} (h : Addressed m.2) : container m = some m.1 := by
  obtain ⟨host, hhost⟩ := h.host
  obtain ⟨port, hport⟩ := h.port
  rw [container, hhost, hport]
  rfl

/-- The address of every printer can be read. -/
theorem containers_eq {c : Json} (h : ∀ m ∈ (c.get "printers").members, Addressed m.2) :
    containers c = some ((c.get "printers").members.map Prod.fst) := by
  rw [containers]
  generalize (c.get "printers").members = entries at h ⊢
  induction entries with
  | nil => rfl
  | cons m ms ih =>
    rw [List.mapM_cons, container_eq (h m List.mem_cons_self),
      ih (fun m' hm' => h m' (List.mem_cons_of_mem _ hm'))]
    rfl

/-- A start on a valid document comes up with a valid document and all its printers. -/
theorem launch_valid (b : Build) (path thumbdir : String) (file : Option Json) {c : Json}
    (hfile : file.getD (initial b thumbdir) = c) (hc : Valid c) :
    ∃ d, launch b path thumbdir file = ⟨d, (d.get "printers").members.map Prod.fst, true⟩ ∧
      Valid d ∧ Extends c d := by
  obtain ⟨d, df, hinit, hvalid, hext, hpath⟩ := init_valid b path thumbdir file hfile hc
  obtain ⟨r, hr⟩ := connection_isSome hvalid hpath
  have hcontainers := containers_eq fun m hm => (hvalid.printers m hm).2
  refine ⟨d, ?_, hvalid, hext⟩
  rw [launch, hinit]
  dsimp only
  rw [hr, hcontainers]

theorem valid_initial (b : Build) (thumbdir : String) : Valid (initial b thumbdir) := by
  by_cases handroid : b.osAndroid = true
  · rw [initial, if_pos handroid]
    exact ⟨⟨_, rfl⟩, fun _ h => (nomatch h), Or.inl ⟨rfl, rfl⟩⟩
  · rw [initial, if_neg handroid]
    refine ⟨⟨_, rfl⟩, fun m hm => ?_, Or.inr ⟨"k1", _, _, rfl, rfl, rfl⟩⟩
    rw [List.mem_singleton.mp hm]
    exact ⟨by decide, ⟨_, rfl⟩, ⟨_, rfl⟩⟩

end PowerScreen.Config
