import PowerScreen.Config.Launch

/-! # The default printer stays usable

In every run of the panel's operations and of starts, the saved document has a
usable default printer exactly as long as the default printer itself is never
removed: `remove_printer` does not look at the default printer, and the following
start fills in an entry without an address.
-/
namespace PowerScreen.Config
open Library Library.Json Library.Run

/-- The default printer is absent or names an entry with an address, as every entry is. -/
structure Usable (c : Json) : Prop where
  default : c.get "default_printer" = .null ∨
    ∃ name entry, c.get "default_printer" = .str name ∧
      (c.get "printers").get? name = some entry ∧ Addressed entry
  printers : ∀ name entry, (c.get "printers").get? name = some entry → Addressed entry

theorem Valid.usable {c : Json} (h : Valid c) : Usable c := by
  have hentries : ∀ name entry, (c.get "printers").get? name = some entry → Addressed entry :=
    fun name entry hentry => (h.printers _ (Assoc.mem_of_lookup hentry)).2
  refine ⟨?_, hentries⟩
  rcases h.default with ⟨hnull, -⟩ | ⟨name, ps, entry, hname, hprinters, hentry⟩
  · exact Or.inl hnull
  · have hget : (c.get "printers").get? name = some entry := by
      rw [hprinters]
      exact hentry
    exact Or.inr ⟨name, entry, hname, hget, hentries name entry hget⟩

/-- What the operations keep when the default printer is not removed. -/
structure Inv (s : App) : Prop where
  valid : Valid s.saved
  listed : s.running = true → ∀ name ∈ s.printers, (s.saved.get "printers").contains name = true

theorem plain_of_accepted {t : String} {n : ℕ} (h : accepted n nameChars t) : Plain t :=
  ⟨fun hmem => absurd (h.2 _ hmem) (by decide), fun hmem => absurd (h.2 _ hmem) (by decide)⟩

theorem Valid.printers_eq {c : Json} (h : Valid c) :
    c.get "printers" = .null ∨ ∃ ps, c.get "printers" = .obj ps := by
  rcases h.default with ⟨-, hnull⟩ | ⟨-, ps, -, -, hprinters, -⟩
  · exact Or.inl hnull
  · exact Or.inr ⟨ps, hprinters⟩

theorem contains_iff {c : Json} {ps : List (String × Json)} (h : c.get "printers" = .obj ps)
    (name : String) : (c.get "printers").contains name = true ↔ ∃ e, ps.lookup name = some e := by
  rw [h, Json.contains, Option.isSome_iff_exists]
  rfl

/-- Adding writes one entry over the others. -/
theorem addEntry_eq {c : Json} (h : Valid c) (name : String) (entry : Json) :
    ∃ ms, c = .obj ms ∧ addEntry name entry c = some (.obj (Assoc.insert "printers"
      (.obj (Assoc.insert name entry (c.get "printers").members)) ms)) := by
  obtain ⟨ms, rfl⟩ := h.root
  refine ⟨ms, rfl, ?_⟩
  rw [addEntry]
  rcases h.printers_eq with hnull | ⟨ps, hobj⟩
  · rw [hnull]
    rfl
  · rw [hobj]
    rfl

section
variable {b : Build} {path thumbdir : String}

theorem launch_inv {file : Option Json} {c : Json} (hfile : file.getD (initial b thumbdir) = c)
    (hc : Valid c) : Inv (launch b path thumbdir file) := by
  obtain ⟨d, hlaunch, hvalid, -⟩ := launch_valid b path thumbdir file hfile hc
  rw [hlaunch]
  refine ⟨hvalid, fun _ name hname => ?_⟩
  exact Assoc.isSome_lookup_iff.mpr hname

/-- The first printer becomes the default printer and `init` runs again. -/
theorem adopt_inv {ms : List (String × Json)} {name : String} {entry : Json} {s : App}
    (hname : Plain name) (hentry : Addressed entry)
    (hs : s.saved = .obj (Assoc.insert "printers" (.obj [(name, entry)]) ms))
    (hlisted : s.running = true → ∀ n ∈ s.printers, (s.saved.get "printers").contains n = true) :
    Inv (s.adopt b name) := by
  let data : Json := .obj (Assoc.insert "default_printer" (.str name)
    (Assoc.insert "printers" (.obj [(name, entry)]) ms))
  have hset : setAt ["default_printer"] (.str name) s.saved = some data := by
    rw [hs]
    rfl
  have hprinters : data.get "printers" = .obj [(name, entry)] := by
    rw [get_insert, if_neg (by decide), get_insert, if_pos rfl]
  have hvalid : Valid data := by
    refine ⟨⟨_, rfl⟩, fun m hm => ?_, Or.inr ⟨name, _, entry, ?_, hprinters, ?_⟩⟩
    · rw [hprinters] at hm
      rw [List.mem_singleton.mp hm]
      exact ⟨hname, hentry⟩
    · rw [get_insert, if_pos rfl]
    · rw [Assoc.lookup_cons, if_pos rfl]
  rw [App.adopt, hset]
  dsimp only
  cases hagain : initAgain b data with
  | none => exact ⟨hvalid, fun h => nomatch h⟩
  | some r =>
    rw [initAgain] at hagain
    obtain ⟨path', -, hagain⟩ := Option.bind_eq_some_iff.mp hagain
    obtain ⟨thumbdir', -, hagain⟩ := Option.bind_eq_some_iff.mp hagain
    obtain ⟨d, df, hinit, hd, hext, -⟩ :=
      init_valid b path' thumbdir' (some data) rfl hvalid
    rw [hinit] at hagain
    cases hagain
    refine ⟨hd, fun hrun n hn => hext.printers n ?_⟩
    have h := hlisted hrun n hn
    rwa [hs, get_insert, if_pos rfl, ← hprinters] at h

theorem add_inv {s : App} (h : Inv s) (f : Fields) : Inv (s.add b f) := by
  have hname := plain_of_accepted f.name_accepted
  rw [App.add]
  cases stoi f.moonrakerPort with
  | none => exact ⟨h.valid, fun hr => nomatch hr⟩
  | some port =>
    let entry := newPrinter f.moonrakerIp port
    have hentry : Addressed entry := addressed_newPrinter f.moonrakerIp port
    obtain ⟨ms, hms, hadd⟩ := addEntry_eq h.valid f.printerName entry
    let ps := Assoc.insert f.printerName entry (s.saved.get "printers").members
    let data : Json := .obj (Assoc.insert "printers" (.obj ps) ms)
    have hprinters : data.get "printers" = .obj ps := by rw [get_insert, if_pos rfl]
    have hdefault : data.get "default_printer" = s.saved.get "default_printer" := by
      rw [get_insert, if_neg (by decide), hms]
    have hlisted : s.running = true → ∀ n ∈ s.printers.insert f.printerName,
        (data.get "printers").contains n = true := by
      intro hrun n hn
      rw [contains_iff hprinters, Assoc.lookup_insert]
      split_ifs with heq
      · exact ⟨entry, rfl⟩
      · have hold := h.listed hrun n ((List.mem_insert_iff.mp hn).resolve_left heq)
        exact Option.isSome_iff_exists.mp hold
    rw [Option.bind_some, hadd]
    change Inv (if data.get "default_printer" = .null then _ else _)
    rcases h.valid.default with ⟨hnull, hnone⟩ | ⟨dflt, old, e, hstr, hold, he⟩
    · rw [if_pos (hdefault.trans hnull)]
      have hsaved : data = .obj (Assoc.insert "printers" (.obj [(f.printerName, entry)]) ms) := by
        simp only [data, ps, hnone]
        rfl
      exact adopt_inv hname hentry hsaved hlisted
    · have hne : data.get "default_printer" ≠ .null := by
        rw [hdefault, hstr]
        exact Json.noConfusion
      rw [if_neg hne]
      have hin : (s.saved.get "printers").members.lookup dflt = some e := by
        rw [hold]
        exact he
      exact ⟨valid_insert_entry (fun m hm => h.valid.printers m hm) hname hentry (hms ▸ hstr)
        (Or.inr ⟨e, hin⟩), hlisted⟩

theorem switch_inv {s : App} (h : Inv s) (hrun : s.running = true) {name : String}
    (hname : name ∈ s.printers) : Inv (s.switch name) := by
  obtain ⟨ms, hms⟩ := h.valid.root
  have hset : setAt ["default_printer"] (.str name) s.saved =
      some (.obj (Assoc.insert "default_printer" (.str name) ms)) := by
    rw [hms]
    rfl
  have hprinters : (Json.obj (Assoc.insert "default_printer" (.str name) ms)).get "printers" =
      s.saved.get "printers" := by
    rw [get_insert, if_neg (by decide), hms]
  have hin := h.listed hrun name hname
  obtain ⟨ps, hps⟩ : ∃ ps, s.saved.get "printers" = .obj ps := by
    rcases h.valid.printers_eq with hnull | hobj
    · rw [hnull] at hin
      exact nomatch hin
    · exact hobj
  obtain ⟨entry, hentry⟩ := (contains_iff hps name).mp hin
  rw [App.switch, hset]
  refine ⟨⟨⟨_, rfl⟩, ?_, Or.inr ⟨name, ps, entry, ?_, hprinters.trans hps, hentry⟩⟩, ?_⟩
  · rw [hprinters]
    exact h.valid.printers
  · rw [get_insert, if_pos rfl]
  · intro _ n hn
    rw [hprinters]
    exact h.listed hrun n hn

/-- Removing a listed printer erases its entry. -/
theorem removePrinter_eq {s : App} (h : Inv s) (hrun : s.running = true) {name : String}
    (hname : name ∈ s.printers) : ∃ ms ps, s.saved = .obj ms ∧
      s.saved.get "printers" = .obj ps ∧ s.removePrinter name =
        ⟨.obj (Assoc.insert "printers" (.obj (Assoc.erase name ps)) ms),
          s.printers.filter (· ≠ name), true⟩ := by
  obtain ⟨ms, hms⟩ := h.valid.root
  have hin := h.listed hrun name hname
  rcases h.valid.printers_eq with hnull | ⟨ps, hps⟩
  · rw [hnull] at hin
    exact nomatch hin
  · refine ⟨ms, ps, hms, hps, ?_⟩
    rw [App.removePrinter, hps, hms]
    simp [eraseKey, setAt, modifyAt, asContainer, hrun]

theorem removePrinter_inv {s : App} (h : Inv s) (hrun : s.running = true) {name : String}
    (hname : name ∈ s.printers) (hother : s.saved.get "default_printer" ≠ .str name) :
    Inv (s.removePrinter name) := by
  obtain ⟨ms, ps, hms, hps, hremove⟩ := removePrinter_eq h hrun hname
  have hprinters : (Json.obj (Assoc.insert "printers" (.obj (Assoc.erase name ps)) ms)).get
      "printers" = .obj (Assoc.erase name ps) := by rw [get_insert, if_pos rfl]
  have hdefault : (Json.obj (Assoc.insert "printers" (.obj (Assoc.erase name ps)) ms)).get
      "default_printer" = s.saved.get "default_printer" := by
    rw [get_insert, if_neg (by decide), hms]
  have hentries : ∀ m ∈ ps, Plain m.1 ∧ Addressed m.2 := by
    have hall := h.valid.printers
    rwa [hps] at hall
  rw [hremove]
  refine ⟨⟨⟨_, rfl⟩, fun m hm => ?_, ?_⟩, fun _ n hn => ?_⟩
  · rw [hprinters] at hm
    exact hentries m (List.mem_of_mem_filter hm)
  · rcases h.valid.default with ⟨-, hnull⟩ | ⟨dflt, ps', entry, hstr, hps', hentry⟩
    · rw [hnull] at hps
      cases hps
    · rw [hps'] at hps
      cases hps
      refine Or.inr ⟨dflt, _, entry, hdefault.trans hstr, hprinters, ?_⟩
      have hne : dflt ≠ name := fun heq => hother (heq ▸ hstr)
      rw [Assoc.lookup_erase, if_neg hne, hentry]
  · obtain ⟨hmem, hne⟩ := List.mem_filter.mp hn
    rw [contains_iff hprinters, Assoc.lookup_erase, if_neg (of_decide_eq_true hne)]
    exact (contains_iff hps n).mp (h.listed hrun n hmem)

/-- Removing the default printer leaves a default printer without an entry. -/
theorem removePrinter_not_usable {s : App} (h : Inv s) (hrun : s.running = true) {name : String}
    (hname : name ∈ s.printers) (hdefault : s.saved.get "default_printer" = .str name) :
    ¬ Usable (s.removePrinter name).saved := by
  obtain ⟨ms, ps, hms, -, hremove⟩ := removePrinter_eq h hrun hname
  have hstr : (Json.obj (Assoc.insert "printers" (.obj (Assoc.erase name ps)) ms)).get
      "default_printer" = .str name := by
    rw [get_insert, if_neg (by decide), ← hms, hdefault]
  rw [hremove]
  intro husable
  rcases husable.default with hnull | ⟨n, entry, hn, hentry, -⟩
  · rw [hstr] at hnull
    cases hnull
  · rw [hstr] at hn
    cases hn
    rw [get_insert, if_pos rfl, Json.get?, Json.members, Assoc.lookup_erase, if_pos rfl] at hentry
    cases hentry

/-- The default printer is not the one being removed. -/
def KeepsDefault (s : App) : Event → Prop
  | .remove name =>
    s.running = true → name ∈ s.printers → s.saved.get "default_printer" ≠ .str name
  | _ => True

theorem step_remove {s : App} (hrun : s.running = true) {name : String}
    (hname : name ∈ s.printers) :
    s.step b path thumbdir (.remove name) = s.removePrinter name := if_pos ⟨hrun, hname⟩

theorem step_inv {s : App} (h : Inv s) {e : Event} (hkeep : KeepsDefault s e) :
    Inv (s.step b path thumbdir e) := by
  cases e with
  | add f =>
    by_cases hrun : s.running = true
    · rw [App.step, if_pos hrun]
      exact add_inv h f
    · rw [App.step, if_neg hrun]
      exact h
  | switch name =>
    by_cases hon : s.running = true ∧ name ∈ s.printers
    · rw [App.step, if_pos hon]
      exact switch_inv h hon.1 hon.2
    · rw [App.step, if_neg hon]
      exact h
  | remove name =>
    by_cases hon : s.running = true ∧ name ∈ s.printers
    · rw [step_remove hon.1 hon.2]
      exact removePrinter_inv h hon.1 hon.2 (hkeep hon.1 hon.2)
    · rw [App.step, if_neg hon]
      exact h
  | restart => exact launch_inv rfl h.valid

variable (b path thumbdir) in
/-- The document is usable and the next start reads every address. -/
def Good (s : App) : Prop :=
  Usable s.saved ∧ (launch b path thumbdir (some s.saved)).running = true

theorem Inv.good {s : App} (h : Inv s) : Good b path thumbdir s := by
  obtain ⟨d, hlaunch, -, -⟩ := launch_valid b path thumbdir (some s.saved) rfl h.valid
  exact ⟨h.valid.usable, by rw [hlaunch]⟩

theorem keepsDefault_of_good {s : App} (h : Inv s) {e : Event}
    (hgood : Good b path thumbdir (s.step b path thumbdir e)) : KeepsDefault s e := by
  cases e with
  | remove name =>
    intro hrun hname hdefault
    rw [step_remove hrun hname] at hgood
    exact removePrinter_not_usable h hrun hname hdefault hgood.1
  | _ => trivial

/-- The first start lists its printer, which is the default printer. -/
theorem first_printer_listed (path thumbdir : String) (hb : b.osAndroid = false) :
    (launch b path thumbdir none).running = true ∧ "k1" ∈ (launch b path thumbdir none).printers ∧
      (launch b path thumbdir none).saved.get "default_printer" = .str "k1" := by
  obtain ⟨d, hlaunch, -, hext⟩ := launch_valid b path thumbdir none
    (c := initial b thumbdir) rfl (valid_initial b thumbdir)
  have hin : ((initial b thumbdir).get "printers").contains "k1" = true ∧
      (initial b thumbdir).get "default_printer" = .str "k1" := by
    rw [initial, hb]
    exact ⟨rfl, rfl⟩
  rw [hlaunch]
  exact ⟨rfl, Assoc.isSome_lookup_iff.mp (hext.printers _ hin.1), hext.default.trans hin.2⟩

end

end PowerScreen.Config
