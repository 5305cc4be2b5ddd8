import PowerScreen.Prompt.Buttons

/-! # No filament is moved while printing

The LOAD and UNLOAD buttons of a manual filament change are disabled by the refresh
that goes with every report of the print state and with showing the prompt. A
button that comes later, or that lost its pointer to a second one of its label,
escapes the refresh.
-/
namespace PowerScreen.Prompt
open Library Library.Run

def filamentLabel (label : Text) : Bool := label = loadLabel || label = unloadLabel

/-- An enabled LOAD or UNLOAD button. -/
def Kind.movesFilament : Kind → Bool
  | .button l _ _ false => filamentLabel l
  | _ => false

theorem Kind.movesFilament_setDisabled (k : Kind) : (k.setDisabled true).movesFilament = false := by
  cases k <;> rfl

namespace Panel

/-- In a visible manual filament change no button moves filament while printing. -/
def Locked (p : Panel) : Prop :=
  p.visible → p.manual → ∀ i w, p.tree.heap i = some w → w.data.movesFilament →
    p.printing = false

/-- Every button that moves filament is one of the two that a refresh reaches. -/
def Remembered (p : Panel) : Prop :=
  ∀ i w, p.tree.heap i = some w → w.data.movesFilament →
    p.loadBtn = some i ∨ p.unloadBtn = some i

/-- What an action of a manual filament change must not do while printing. -/
def RespectsAction (p : Panel) : Action → Prop
  | .button footer label _ _ => p.visible → p.printing → (footer = true ∨ p.GroupAlive) →
      filamentLabel label = false
  | .show => p.printing → p.Remembered
  | _ => True

/-- While the prompt is shown over a print no LOAD or UNLOAD button is created; and
when a print is reported under the shown prompt, or the prompt is shown over one,
no enabled LOAD or UNLOAD button has been superseded by a second one. -/
def Respects (p : Panel) (e : Event) : Prop :=
  p.status = .running → p.manual → match e with
    | .response resp => ∀ a, lineAction resp = some a → p.RespectsAction a
    | .update st _ => p.visible → st.field? "print_stats" "state" = some (.str "printing") →
        p.Remembered
    | .press _ => True

theorem heap_clean_eq_none (p : Panel) (i : ℕ) : p.clean.tree.heap i = none := by
  rw [clean, WidgetTree.heap_clean, WidgetTree.heap_clean]
  cases p.tree.heap i with
  | none => rfl
  | some w => cases hw : w.root <;> simp [Option.filter, hw]

/-- A new widget that is no button for filament. -/
theorem Locked.create {p : Panel} (h : p.Locked) (r : Container) {k : Kind}
    (hk : k.movesFilament = false) : Locked { p with tree := p.tree.create r k } := by
  intro hv hm i w hw hf
  rw [WidgetTree.heap_create] at hw
  split_ifs at hw with hi
  · cases hw
    rw [hk] at hf
    cases hf
  · exact h hv hm i w hw hf

theorem filamentLabel_shownLabel (p : Panel) (label : Text) :
    filamentLabel (p.shownLabel label) = filamentLabel label := by
  have hclose : filamentLabel closeText = false := by decide
  have hclose' : filamentLabel "CLOSE".toList = false := by decide
  unfold shownLabel
  split_ifs with hc
  · simp only [Bool.and_eq_true, decide_eq_true_eq] at hc
    rw [hclose, hc.2, hclose']
  · rfl

theorem locked_createButton_iff {p : Panel} (h : p.Locked) (footer : Bool)
    (label command type : Text) :
    (p.createButton footer label command type).Locked ↔
      (p.manual → p.RespectsAction (.button footer label command type)) := by
  rcases p.createButton_cases footer label command type with
    ⟨hf, hdead, heq⟩ | ⟨halive, t, r, q, ht, heq⟩
  · rw [heq]
    refine iff_of_true h fun _ _ _ hgroup => ?_
    rcases hgroup with hgroup | hgroup
    · rw [hf] at hgroup
      cases hgroup
    · exact absurd hgroup hdead
  · rw [heq, track_eq]
    have hmoves : (Kind.button (p.shownLabel label) command type false).movesFilament =
        filamentLabel label := p.filamentLabel_shownLabel label
    constructor
    · intro hl hm hv hpr _
      by_contra hlabel
      have hnot : p.printing = false := hl hv hm p.tree.next _ (by rw [ht, if_pos rfl])
        (by rw [hmoves]; exact Bool.eq_true_of_not_eq_false hlabel)
      rw [hpr] at hnot
      cases hnot
    · intro hresp hv hm i w hw hf
      dsimp only at hw
      rw [ht] at hw
      split_ifs at hw with hi
      · cases hw
        rw [hmoves] at hf
        by_contra hpr
        have hlabel := hresp hm hv (Bool.eq_true_of_not_eq_false hpr) halive
        rw [hf] at hlabel
        cases hlabel
      · exact h hv hm i w hw hf

/-- After a refresh a print leaves enabled just the buttons it did not reach. -/
theorem refreshed_locked_iff (p : Panel) :
    (∀ i w, p.refreshed.heap i = some w → w.data.movesFilament → p.printing = false) ↔
      (p.printing → p.Remembered) := by
  constructor
  · intro hl hpr i w hw hf
    by_contra hnot
    have hold : p.refreshed.heap i = some w := by rw [heap_refreshed, if_neg hnot, hw]
    rw [hl i w hold hf] at hpr
    cases hpr
  · intro hrem i w hw hf
    by_contra hpr
    have hpr : p.printing = true := Bool.eq_true_of_not_eq_false hpr
    rw [heap_refreshed] at hw
    split_ifs at hw with hi
    · obtain ⟨v, -, rfl⟩ := Option.map_eq_some_iff.mp hw
      rw [hpr, Kind.movesFilament_setDisabled] at hf
      cases hf
    · exact hi (hrem hpr i w hw hf)

theorem locked_perform_iff {p : Panel} (h : p.Locked) (ht : p.Tracked)
    (hrun : p.status = .running) (a : Action) :
    (p.perform a).Locked ↔ (p.manual → p.RespectsAction a) := by
  cases a with
  | begin header =>
    refine iff_of_true (fun _ _ i w hw => ?_) fun _ => trivial
    rw [show (p.perform (.begin header)).tree = p.clean.tree from rfl, heap_clean_eq_none] at hw
    cases hw
  | text text => exact iff_of_true (h.create .flex rfl) fun _ => trivial
  | groupStart => exact iff_of_true (h.create .flex rfl) fun _ => trivial
  | groupEnd => exact iff_of_true h fun _ => trivial
  | button footer label command type => exact locked_createButton_iff h footer label command type
  | «show» =>
    have heq : p.perform .show = { p with tree := p.refreshed, visible := true } := by
      rw [perform, refreshFilamentButtons_eq ht hrun]
      exact if_pos hrun
    rw [heq]
    have hiff := p.refreshed_locked_iff
    exact ⟨fun hl hm => hiff.mp (hl rfl hm), fun hresp _ hm => hiff.mpr (hresp hm)⟩
  | «end» => exact iff_of_true (fun hv => by cases hv) fun _ => trivial
  | unsupported => exact iff_of_true h fun _ => trivial

theorem mergePatch_eq_str_iff (t v : Json) (s : String) :
    Json.mergePatch t v = .str s ↔ v = .str s := by
  cases v <;> simp [Json.mergePatch]

theorem locked_update_iff {p : Panel} (h : p.Locked) (ht : p.Tracked)
    (hrun : p.status = .running) (st : PowerScreen.Status) (t : ℚ) :
    (p.step (.update st t)).Locked ↔ (p.manual → p.visible →
      st.field? "print_stats" "state" = some (.str "printing") → p.Remembered) := by
  have hstate := p.state.printState_update st t
  rw [step, if_pos hrun]
  dsimp only [consume]
  rw [Status.getAt_notification_printState]
  cases hf : st.field? "print_stats" "state" with
  | none =>
    rw [hf] at hstate
    dsimp only at hstate
    refine iff_of_true ?_ fun _ _ hsome => by cases hsome
    intro hv hm i w hw hmoves
    have hold := h hv hm i w hw hmoves
    rwa [printing, ← hstate] at hold
  | some v =>
    rw [hf] at hstate
    dsimp only [Option.getD_some] at hstate ⊢
    split_ifs at hstate ⊢ with hnull
    · refine iff_of_true ?_ fun _ _ hsome => by rw [hnull] at hsome; cases hsome
      intro _ _ i w _ _
      dsimp only [printing]
      rw [hstate]
      rfl
    · have hprinting : ({ p with state := (p.state.receive (.update st t)).getD p.state } :
          Panel).printing ↔ some v = some (.str "printing") := by
        dsimp only [printing]
        rw [hstate, decide_eq_true_iff, mergePatch_eq_str_iff, Option.some.injEq]
      rw [refreshFilamentButtons_eq
        (p := { p with state := (p.state.receive (.update st t)).getD p.state }) ht hrun]
      have hiff := refreshed_locked_iff
        { p with state := (p.state.receive (.update st t)).getD p.state }
      rw [hprinting] at hiff
      exact ⟨fun hl hm hv => hiff.mp (hl hv hm), fun hresp hv hm => hiff.mpr (hresp hm hv)⟩

/-- One step keeps the lock exactly when it respects the print. -/
theorem locked_step_iff {p : Panel} (ht : p.Tracked) (h : p.Locked) (e : Event) :
    (p.step e).Locked ↔ p.Respects e := by
  by_cases hrun : p.status = .running
  · cases e with
    | response resp =>
      rw [step_response hrun]
      cases ha : lineAction resp with
      | none =>
        refine iff_of_true ?_ fun _ _ a ha' => by rw [ha] at ha'; cases ha'
        rcases p.handleMacroResponse_of_none ha with heq | heq <;> rw [heq] <;> exact h
      | some a =>
        rw [p.handleMacroResponse_of_some ha, locked_perform_iff h ht hrun]
        constructor
        · intro hr _ hm b hb
          rw [ha, Option.some.injEq] at hb
          exact hb ▸ hr hm
        · exact fun hr hm => hr hrun hm a ha
    | update st t =>
      rw [locked_update_iff h ht hrun]
      exact ⟨fun hr _ hm => hr hm, fun hr hm => hr hrun hm⟩
    | press button =>
      refine iff_of_true ?_ fun _ _ => trivial
      rw [step_press hrun]
      dsimp only [press]
      split_ifs
      · split
        · exact fun hv => h (Bool.and_eq_true _ _ ▸ hv).1
        · exact h
      · exact h
  · rw [step_of_not_running hrun]
    exact iff_of_true h fun hr => absurd hr hrun

/-- In every run of lines, reports and presses the LOAD and UNLOAD buttons stay locked
while printing exactly when every step respects the print. -/
theorem locked_throughout_iff (s : State) (g : Option ℕ) (es : List Event) :
    Throughout step Locked (start s g) es ↔ EachStep step Respects (start s g) es :=
  throughout_iff_eachStep_of (P := Locked) (fun _ e ht h => locked_step_iff ht h e)
    (fun hv => by cases hv) (eachStep_of_invariant tracked_step (tracked_start s g) es)

/-- A LOAD button that comes after the prompt is shown over a print is enabled. -/
theorem late_button_unlocked :
    ¬ Throughout step Locked (start ⟨[], by decide⟩ none)
      [.update (.ofPrintState "printing") 0,
        .response "// action:prompt_begin MANUAL FILAMENT CHANGE".toList,
        .response "// action:prompt_show".toList,
        .response "// action:prompt_footer_button LOAD|LOAD_MATERIAL".toList] := by
  intro h
  have hlast : Locked _ := h.2.2.2.2
  have hidle := hlast (by decide) (by decide) 0
    ⟨.footer, none, .button loadLabel "LOAD_MATERIAL".toList "none".toList false⟩
    (by decide) (by decide)
  exact absurd hidle (by decide)

end Panel
end PowerScreen.Prompt
