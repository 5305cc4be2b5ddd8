import PowerScreen.Wifi.Credentials
import PowerScreen.Wifi.Prompt

/-! # A password goes to the network it is asked for

While the prompt is open it has to name the selected network. Connect and Forget select the
network under the list's index, which a new scan moves, so they are what can part the two.
-/
namespace PowerScreen.Wifi.Visit
open Library Library.Run

variable (fmt : DebugFormat)

theorem linked_goOn {s : Visit} (hs : Linked s) {p : Panel} (hp : p.password = s.panel.password)
    (hkey : p.keyboard → p.promptShown)
    (hshown : p.promptShown = false → s.panel.promptShown = false) : Linked (s.goOn p) := by
  rw [goOn_eq hs hp]
  exact ⟨hs.length.trans (congrArg List.length hp.symm), hkey,
    fun h => hp.trans (hs.hidden (hshown h))⟩

theorem linked_of_hidden {s : Visit} (h : Hidden s.panel) (ht : s.typedUnder = []) :
    Linked s :=
  ⟨by rw [ht, h.2.1, List.length_nil, List.length_nil],
    fun hkey => Bool.noConfusion (h.2.2.symm.trans hkey), fun _ => h.2.1⟩

theorem linked_turn {s t : Visit} {steady : Prop} (hs : Linked s) (h : Turn s t steady) :
    Linked t := by
  cases h with
  | look h =>
    exact linked_goOn hs h.password
      (fun hkey => h.shown.trans (hs.keyboard (h.keyboard.symm.trans hkey))) h.shown.symm.trans
  | target h =>
    exact linked_goOn hs h.password
      (fun hkey => h.shown.trans (hs.keyboard (h.keyboard.symm.trans hkey))) h.shown.symm.trans
  | ask ssid => exact linked_goOn hs rfl (fun _ => rfl) fun h => Bool.noConfusion h
  | hide h => exact linked_of_hidden h (if_pos h.2.1)
  | keys h => exact linked_goOn hs rfl h id
  | type hkey hlen hmem =>
    have hshown := hs.keyboard hkey
    exact ⟨hlen hs.length, fun _ => hshown, fun h => Bool.noConfusion (hshown.symm.trans h)⟩
  | send hkey h => exact linked_of_hidden h (if_pos h.2.1)

theorem matching_of_hidden {s : Visit} (hs : s.AllAsked) (h : s.panel.promptShown = false) :
    Matching s :=
  ⟨hs, fun hshown => Bool.noConfusion (h.symm.trans hshown),
    fun hshown => Bool.noConfusion (h.symm.trans hshown)⟩

/-- A turn keeps prompt and network together exactly when it is steady. -/
theorem matching_turn {s t : Visit} {steady : Prop} (hs : Linked s) (hm : Matching s)
    (h : Turn s t steady) : Matching t ↔ steady := by
  cases h with
  | look h =>
    rw [goOn_eq hs h.password]
    refine iff_true_intro ⟨hm.asked, fun hshown => ?_, fun hshown => ?_⟩
    · rw [h.label, h.selected]
      exact hm.named (h.shown.symm.trans hshown)
    · rw [h.label]
      exact hm.typed (h.shown.symm.trans hshown)
  | target h =>
    rw [goOn_eq hs h.password]
    constructor
    · intro ht hshown
      have hnamed := ht.named (h.shown.trans hshown)
      rwa [h.label, h.selected] at hnamed
    · intro hsteady
      refine ⟨hm.asked, fun hshown => ?_, fun hshown => ?_⟩
      · rw [h.label, h.selected]
        exact hsteady (h.shown.symm.trans hshown)
      · rw [h.label]
        exact hm.typed (h.shown.symm.trans hshown)
  | ask ssid =>
    have heq := goOn_eq (p := ({ s.panel with selectedNetwork := ssid }).showPasswordPrompt) hs rfl
    rw [heq]
    constructor
    · intro ht hshown
      refine or_iff_not_imp_right.mpr fun hne => ?_
      -- a letter typed under the old prompt tells the two apart
      obtain ⟨u, hu⟩ := List.exists_mem_of_ne_nil _ (hne ∘ hs.typedUnder_eq_nil_iff.mp)
      exact (hm.typed hshown u hu).symm.trans (ht.typed rfl u hu)
    · intro hsteady
      refine ⟨hm.asked, fun _ => rfl, fun _ u hu => ?_⟩
      have hne : s.panel.password ≠ [] :=
        hs.typedUnder_eq_nil_iff.not.mp (List.ne_nil_of_mem hu)
      have hshown : s.panel.promptShown := by
        by_contra h
        exact hne (hs.hidden (Bool.eq_false_of_not_eq_true h))
      exact (hm.typed hshown u hu).trans ((hsteady hshown).resolve_right hne)
  | hide h => exact iff_true_intro (matching_of_hidden hm.asked h.1)
  | @keys b h =>
    have heq := goOn_eq (p := { s.panel with keyboard := b }) hs rfl
    rw [heq]
    exact iff_true_intro ⟨hm.asked, hm.named, hm.typed⟩
  | type hkey hlen hmem =>
    refine iff_true_intro ⟨hm.asked, hm.named, fun hshown t ht => ?_⟩
    exact (hmem t ht).elim id (hm.typed hshown t)
  | send hkey h =>
    refine iff_true_intro (matching_of_hidden ?_ h.1)
    intro c hc
    rcases List.mem_append.mp hc with hc | hc
    · exact hm.asked c hc
    · rw [List.mem_singleton] at hc
      subst hc
      have hshown := hs.keyboard hkey
      have hnamed := hm.named hshown
      exact ⟨hshown, hnamed, fun t ht => (hm.typed hshown t ht).trans hnamed⟩

theorem linked_step (s : Visit) (e : Event) (hs : Linked s) : Linked (step fmt s e) := by
  obtain ⟨steady, -, hturn⟩ := step_turn fmt hs e
  exact linked_turn hs hturn

theorem matching_step {s : Visit} (hs : Linked s) (hm : Matching s) (e : Event) :
    Matching (step fmt s e) ↔ Steady s e := by
  obtain ⟨steady, hsteady, hturn⟩ := step_turn fmt hs e
  exact (matching_turn hs hm hturn).trans hsteady.symm

theorem matching_run {es : List Event} (h : ∀ e ∈ es, ∀ s, Steady s e) {s : Visit}
    (hs : Linked s) (hm : Matching s) : Matching (run (step fmt) s es) := by
  refine (run_of_forall (I := fun s => Linked s ∧ Matching s) (Q := fun e => ∀ s, Steady s e)
    ?_ ⟨hs, hm⟩ h).2
  intro s e he hs
  exact ⟨linked_step fmt s e hs.1, (matching_step fmt hs.1 hs.2 e).mpr (he s)⟩

theorem steady_of_mem_confirm {typed : List Char} {nid : String} {e : Event}
    (h : e ∈ confirm typed nid) (s : Visit) : Steady s e := by
  rcases List.mem_append.mp h with h | h
  · rcases List.mem_cons.mp h with rfl | h
    · trivial
    · obtain ⟨c, -, rfl⟩ := List.mem_map.mp h
      trivial
  · rw [List.mem_singleton.mp h]
    trivial

theorem sendings_confirm {s : Visit} (hs : Linked s) (hshown : s.panel.promptShown) :
    (run (step fmt) s (confirm ['a'] "")).sendings = s.sendings ++
      [⟨s.panel.selectedNetwork, true, s.panel.passwordLabel,
        s.panel.passwordLabel :: s.typedUnder⟩] := by
  have hfocus : step fmt s .focused = { s with panel := { s.panel with keyboard := true } } := by
    rw [step, if_pos hshown]
    exact goOn_eq hs rfl
  simp only [confirm, List.map_cons, List.map_nil, List.cons_append, List.nil_append, run_cons,
    run_nil, hfocus]
  simp [step, sending, hshown]

theorem sendings_turn {s t : Visit} {steady : Prop} (h : Turn s t steady) {c : Sending}
    (hc : c ∈ s.sendings) : c ∈ t.sendings := by
  cases h with
  | send => exact List.mem_append_left _ hc
  | _ => exact hc

/-- What has been sent stays in the log. -/
theorem sendings_run {es : List Event} {s : Visit} (hs : Linked s) {c : Sending}
    (hc : c ∈ s.sendings) : c ∈ (run (step fmt) s es).sendings := by
  induction es generalizing s with
  | nil => exact hc
  | cons e es ih =>
    obtain ⟨steady, -, hturn⟩ := step_turn fmt hs e
    exact ih (linked_turn hs hturn) (sendings_turn hturn hc)

theorem safeToConfirm_iff {s : Visit} (hs : Linked s) : SafeToConfirm fmt s ↔ Matching s := by
  constructor
  · intro hsafe
    have hsent := hsafe ['a'] ""
    have hlast : s.panel.promptShown → Sending.Asked ⟨s.panel.selectedNetwork, true,
        s.panel.passwordLabel, s.panel.passwordLabel :: s.typedUnder⟩ := fun hshown => by
      refine hsent _ ?_
      rw [sendings_confirm fmt hs hshown]
      exact List.mem_append_right _ (List.mem_singleton_self _)
    refine ⟨fun c hc => hsent c (sendings_run fmt hs hc), fun hshown => (hlast hshown).2.1,
      fun hshown t ht => ?_⟩
    obtain ⟨-, hname, htyped⟩ := hlast hshown
    exact (htyped t (List.mem_cons_of_mem _ ht)).trans hname.symm
  · intro hm typed nid
    exact (matching_run fmt (fun _ => steady_of_mem_confirm) hs hm).asked

theorem linked_start : Linked {} := ⟨rfl, id, fun _ => rfl⟩

theorem matching_start : Matching {} :=
  matching_of_hidden (fun _ hc => absurd hc List.not_mem_nil) rfl

/-- In every run, from everywhere in it a password is sent to the network it is asked for
exactly when every tap on Connect or Forget is steady. -/
theorem addressed_throughout_iff (es : List Event) :
    Throughout (step fmt) (SafeToConfirm fmt) {} es ↔ EachStep (step fmt) Steady {} es := by
  refine throughout_iff_eachStep_of (B := fun s _ => Linked s) (fun s e hs hsafe => ?_)
    ((safeToConfirm_iff fmt linked_start).mpr matching_start)
    (eachStep_of_invariant (linked_step fmt) linked_start es)
  exact (safeToConfirm_iff fmt (linked_step fmt s e hs)).trans
    (matching_step fmt hs ((safeToConfirm_iff fmt hs).mp hsafe) e)

/-- Network A is asked for; a new scan moves the selection to B, which is forgotten; the
password goes to B. -/
theorem password_sent_to_other :
    let air := "m\t2412\t-50\t[WPA]\tA\nm\t2412\t-40\t[WPA]\tB\n"
    (run (step latinFormat) {} [.lookup "0\tB\tany\t[DISABLED]\n", .scanned air, .row 1,
      .connect "", .insert 0 'a', .scanned air, .defocused, .forget "", .focused,
      .ready "1\n"]).sendings = [⟨"B", true, "Password for A", ["Password for A"]⟩] ∧
      ¬ (⟨"B", true, "Password for A", ["Password for A"]⟩ : Sending).Asked := by
  exact ⟨by decide, fun h => absurd h.2.1 (by decide)⟩

end PowerScreen.Wifi.Visit
