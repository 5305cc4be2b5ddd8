import PowerScreen.Config.Printers

/-! # What the start leaves alone

Every edit of `Config::init` goes to a key at the top other than the list of
printers and the default printer, or to a key of the default printer's entry other
than its address. Valid documents are those the operations can produce as long as
the default printer is not removed; a start turns one into another with the same
default printer and the same printers.
-/
namespace PowerScreen.Config
open Library Library.Json

/-- A text that a pointer's token spells as it is. -/
def Plain (t : String) : Prop := '/' ∉ t.toList ∧ '~' ∉ t.toList

instance (t : String) : Decidable (Plain t) := instDecidableAnd

theorem unescape_plain {t : String} (ht : Plain t) :
    (unescape t.toList).map String.ofList = some t := by
  rw [unescape_of_not_mem ht.2, Option.map_some, String.ofList_toList]

theorem parsePointer_top {key : String} (hkey : Plain key) :
    parsePointer ("/" ++ key) = some [key] := by
  have hlist : ("/" ++ key).toList = '/' :: key.toList := by simp
  rw [parsePointer, hlist]
  simp only [splitOn_of_not_mem hkey.1, List.mapM_cons, List.mapM_nil, unescape_plain hkey]
  rfl

theorem toList_dfPath (name key : String) : (dfPath name ++ key).toList =
    '/' :: ("printers".toList ++ '/' :: (name.toList ++ '/' :: key.toList)) := by
  simp [dfPath]

theorem parsePointer_entry {name key : String} (hname : Plain name) (hkey : Plain key) :
    parsePointer (dfPath name ++ key) = some ["printers", name, key] := by
  have hprinters : Plain "printers" := by decide
  rw [parsePointer, toList_dfPath]
  simp only [splitOn_append hprinters.1, splitOn_append hname.1, splitOn_of_not_mem hkey.1,
    List.mapM_cons, List.mapM_nil, unescape_plain hprinters, unescape_plain hname,
    unescape_plain hkey]
  rfl

/-- Host and port of an entry can be read. -/
structure Addressed (entry : Json) : Prop where
  host : ∃ h, entry.get? "moonraker_host" = some (.str h)
  port : ∃ n, entry.get? "moonraker_port" = some (.num n)

theorem Addressed.obj {entry : Json} (h : Addressed entry) : ∃ es, entry = .obj es := by
  obtain ⟨a, ha⟩ := h.host
  cases entry with
  | obj es => exact ⟨es, rfl⟩
  | _ => simp [Json.get?, Json.members] at ha

theorem Addressed.insert {es : List (String × Json)} (h : Addressed (.obj es)) {key : String}
    (hhost : key ≠ "moonraker_host") (hport : key ≠ "moonraker_port") (v : Json) :
    Addressed (.obj (Assoc.insert key v es)) := by
  constructor
  · rw [Json.get?, Json.members, Assoc.lookup_insert_of_ne hhost.symm]
    exact h.host
  · rw [Json.get?, Json.members, Assoc.lookup_insert_of_ne hport.symm]
    exact h.port

theorem addressed_newPrinter (ip : String) (port : ℤ) : Addressed (newPrinter ip port) :=
  ⟨⟨ip, rfl⟩, ⟨.int port, rfl⟩⟩

structure Valid (c : Json) : Prop where
  root : ∃ ms, c = .obj ms
  printers : ∀ entry ∈ (c.get "printers").members, Plain entry.1 ∧ Addressed entry.2
  default : (c.get "default_printer" = .null ∧ c.get "printers" = .null) ∨
    ∃ name ps entry, c.get "default_printer" = .str name ∧ c.get "printers" = .obj ps ∧
      ps.lookup name = some entry

theorem get_insert (ms : List (String × Json)) (j k : String) (v : Json) :
    (Json.obj (Assoc.insert k v ms)).get j = if j = k then v else (Json.obj ms).get j := by
  rw [Json.get, Json.get?, Json.members, Assoc.lookup_insert]
  split_ifs <;> rfl

/-- Validity looks at the printers and the default printer only. -/
theorem Valid.congr {c : Json} (h : Valid c) {ms : List (String × Json)}
    (hprinters : (Json.obj ms).get "printers" = c.get "printers")
    (hdefault : (Json.obj ms).get "default_printer" = c.get "default_printer") :
    Valid (.obj ms) := by
  refine ⟨⟨ms, rfl⟩, ?_, ?_⟩
  · rw [hprinters]
    exact h.printers
  · rw [hprinters, hdefault]
    exact h.default

/-- The same default printer, and no printer is lost. -/
structure Extends (c d : Json) : Prop where
  default : d.get "default_printer" = c.get "default_printer"
  printers : ∀ name, (c.get "printers").contains name → (d.get "printers").contains name

theorem Extends.refl (c : Json) : Extends c c := ⟨rfl, fun _ h => h⟩

theorem Extends.trans {c d e : Json} (h : Extends c d) (h' : Extends d e) : Extends c e :=
  ⟨h'.default.trans h.default, fun name hn => h'.printers name (h.printers name hn)⟩

/-- The edits of the start, given the default printer. -/
inductive Harmless : Option String → Edit → Prop
  | top {df : Option String} (key : String) (f : Json → Json) (hkey : Plain key)
      (hprinters : key ≠ "printers") (hdefault : key ≠ "default_printer") :
      Harmless df ("/" ++ key, f)
  | entry (name key : String) (f : Json → Json) (hkey : Plain key)
      (hhost : key ≠ "moonraker_host") (hport : key ≠ "moonraker_port") :
      Harmless (some name) (dfPath name ++ key, f)

theorem modifyText_top (f : Json → Json) {key : String} (hkey : Plain key)
    (ms : List (String × Json)) : modifyText f ("/" ++ key) (.obj ms) =
      some (.obj (Assoc.insert key (f ((Json.obj ms).get key)) ms)) := by
  rw [modifyText, parsePointer_top hkey, Option.bind_some, storeAt_cons_obj, storeAt_nil]
  rfl

theorem modifyText_entry (f : Json → Json) {name key : String} (hname : Plain name)
    (hkey : Plain key) {ms ps es : List (String × Json)}
    (hprinters : (Json.obj ms).get "printers" = .obj ps)
    (hentry : ps.lookup name = some (.obj es)) :
    modifyText f (dfPath name ++ key) (.obj ms) =
      some (.obj (Assoc.insert "printers" (.obj (Assoc.insert name
        (.obj (Assoc.insert key (f ((Json.obj es).get key)) es)) ps)) ms)) := by
  rw [modifyText, parsePointer_entry hname hkey, Option.bind_some, storeAt_cons_obj]
  change Option.map _ (storeAt f [name, key] ((Json.obj ms).get "printers")) = _
  rw [hprinters, storeAt_cons_obj, hentry, Option.getD_some, storeAt_cons_obj, storeAt_nil]
  rfl

/-- An entry with an address may replace another or come in new. -/
theorem valid_insert_entry {ms ps : List (String × Json)} {name dflt : String} {entry : Json}
    (hps : ∀ entry ∈ ps, Plain entry.1 ∧ Addressed entry.2) (hname : Plain name)
    (hentry : Addressed entry) (hdefault : (Json.obj ms).get "default_printer" = .str dflt)
    (hdflt : dflt = name ∨ ∃ old, ps.lookup dflt = some old) :
    Valid (.obj (Assoc.insert "printers" (.obj (Assoc.insert name entry ps)) ms)) := by
  have hlookup : ∃ e, (Assoc.insert name entry ps).lookup dflt = some e := by
    rw [Assoc.lookup_insert]
    split_ifs with heq
    · exact ⟨entry, rfl⟩
    · exact hdflt.resolve_left heq
  obtain ⟨e, he⟩ := hlookup
  refine ⟨⟨_, rfl⟩, ?_, Or.inr ⟨dflt, Assoc.insert name entry ps, e, ?_, ?_, he⟩⟩
  · rw [get_insert, if_pos rfl]
    intro m hmem
    rcases Assoc.mem_insert hmem with rfl | hmem
    · exact ⟨hname, hentry⟩
    · exact hps m hmem
  · rw [get_insert, if_neg (by decide), hdefault]
  · rw [get_insert, if_pos rfl]

theorem extends_insert_entry {ms ps : List (String × Json)} {name : String} (entry : Json)
    (hprinters : (Json.obj ms).get "printers" = .obj ps) :
    Extends (.obj ms) (.obj (Assoc.insert "printers" (.obj (Assoc.insert name entry ps)) ms)) := by
  constructor
  · rw [get_insert, if_neg (by decide)]
  · intro other hother
    rw [hprinters] at hother
    rw [get_insert, if_pos rfl, Json.contains, Json.get?, Json.members, Assoc.lookup_insert]
    split_ifs
    · rfl
    · exact hother

/-- One edit of the start. -/
theorem modifyText_harmless {df : Option String} {e : Edit} (he : Harmless df e) {c : Json}
    (hc : Valid c) (hdf : ∀ name, df = some name → c.get "default_printer" = .str name) :
    ∃ d, modifyText e.2 e.1 c = some d ∧ Valid d ∧ Extends c d := by
  obtain ⟨ms, rfl⟩ := hc.root
  cases he with
  | top key f hkey hprinters hdefault =>
    have hp : ∀ v, (Json.obj (Assoc.insert key v ms)).get "printers" =
        (Json.obj ms).get "printers" := fun v => by rw [get_insert, if_neg hprinters.symm]
    have hd : ∀ v, (Json.obj (Assoc.insert key v ms)).get "default_printer" =
        (Json.obj ms).get "default_printer" := fun v => by rw [get_insert, if_neg hdefault.symm]
    refine ⟨_, modifyText_top f hkey ms, hc.congr (hp _) (hd _), hd _, fun name hname => ?_⟩
    rw [hp]
    exact hname
  | entry name key f hkey hhost hport =>
    have hdefault := hdf name rfl
    rcases hc.default with ⟨hnull, -⟩ | ⟨name', ps, entry, hname', hprinters, hentry⟩
    · rw [hdefault] at hnull
      cases hnull
    · rw [hdefault] at hname'
      cases hname'
      have hps : ∀ entry ∈ ps, Plain entry.1 ∧ Addressed entry.2 := by
        have h := hc.printers
        rwa [hprinters] at h
      have hold := hps _ (Assoc.mem_of_lookup hentry)
      obtain ⟨es, rfl⟩ := hold.2.obj
      exact ⟨_, modifyText_entry f hold.1 hkey hprinters hentry,
        valid_insert_entry hps hold.1 (hold.2.insert hhost hport _) hdefault (Or.inl rfl),
        extends_insert_entry _ hprinters⟩

theorem applyEdits_cons (e : Edit) (es : List Edit) (c : Json) :
    applyEdits (e :: es) c = (modifyText e.2 e.1 c).bind (applyEdits es) := rfl

/-- All edits of the start, one after the other. -/
theorem applyEdits_harmless {df : Option String} {es : List Edit} (hes : ∀ e ∈ es, Harmless df e)
    {c : Json} (hc : Valid c)
    (hdf : ∀ name, df = some name → c.get "default_printer" = .str name) :
    ∃ d, applyEdits es c = some d ∧ Valid d ∧ Extends c d := by
  induction es generalizing c with
  | nil => exact ⟨c, rfl, hc, Extends.refl c⟩
  | cons e es ih =>
    obtain ⟨d, hd, hvalid, hext⟩ := modifyText_harmless (hes e List.mem_cons_self) hc hdf
    have hdf' : ∀ name, df = some name → d.get "default_printer" = .str name :=
      fun name hname => hext.default.trans (hdf name hname)
    obtain ⟨d', hd', hvalid', hext'⟩ :=
      ih (fun e he => hes e (List.mem_cons_of_mem _ he)) hvalid hdf'
    exact ⟨d', by rw [applyEdits_cons, hd, Option.bind_some, hd'], hvalid', hext.trans hext'⟩

theorem harmless_printerEdits (name : String) :
    ∀ e ∈ printerEdits (dfPath name), Harmless (some name) e := by
  simp only [printerEdits, List.forall_mem_cons]
  exact ⟨.entry name "monitored_sensors" _ (by decide) (by decide) (by decide),
    .entry name "fans" _ (by decide) (by decide) (by decide),
    .entry name "default_macros" _ (by decide) (by decide) (by decide),
    .top "powerscreen_init_script" _ (by decide) (by decide) (by decide),
    .entry name "log_level" _ (by decide) (by decide) (by decide), fun _ h => nomatch h⟩

theorem harmless_displayEdits (b : Build) (df : Option String) :
    ∀ e ∈ displayEdits b, Harmless df e := by
  simp only [displayEdits, List.forall_mem_cons]
  exact ⟨.top "display_rotate" _ (by decide) (by decide) (by decide),
    .top "touch_calibrated" _ (by decide) (by decide) (by decide),
    .top "prompt_emergency_stop" _ (by decide) (by decide) (by decide),
    .top "display_sleep_sec" _ (by decide) (by decide) (by decide), fun _ h => nomatch h⟩

end PowerScreen.Config
