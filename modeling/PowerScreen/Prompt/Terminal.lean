import PowerScreen.Prompt.Grammar

/-! # Buttons that close the prompt

Whether a press closes the prompt is read off the text the button shows at that
moment. The text is set when the button is created and stays: of the terminal
labels a manual filament change redraws one.
-/
namespace PowerScreen.Prompt
open Library Library.Run

/-- What a press does, in the order of the source. -/
inductive Effect where
  | hide
  | send (command : Text)
deriving DecidableEq

/-- Widget `i`, as long as it exists, is a button with this text and command. -/
def Carries (t : Widgets) (i : ℕ) (text command : Text) : Prop :=
  i < t.next ∧ ∀ w, t.heap i = some w → ∃ type d, w.data = .button text command type d

theorem Carries.grow {t u : Widgets} {i : ℕ} {text command : Text} {x : Widget Container Kind}
    (h : Carries t i text command)
    (hu : ∀ j, u.heap j = if j = t.next then some x else t.heap j) : Carries u i text command := by
  have hnext : t.next < u.next := u.lt_next ((hu t.next).trans (if_pos rfl))
  refine ⟨h.1.trans hnext, fun w hw => ?_⟩
  rw [hu, if_neg h.1.ne] at hw
  exact h.2 w hw

theorem Carries.clean {t : Widgets} {i : ℕ} {text command : Text} (h : Carries t i text command)
    (r : Container) : Carries (t.clean r) i text command :=
  ⟨h.1, fun w hw => h.2 w (Option.filter_eq_some_iff.mp hw).1⟩

theorem Carries.modify {t : Widgets} {i : ℕ} {text command : Text} (h : Carries t i text command)
    (j : ℕ) (d : Bool) : Carries (t.modify j (Kind.setDisabled d)) i text command := by
  refine ⟨h.1, fun w hw => ?_⟩
  rw [WidgetTree.heap_modify] at hw
  split_ifs at hw with hij
  · obtain ⟨v, hv, rfl⟩ := Option.map_eq_some_iff.mp hw
    obtain ⟨type, e, hdata⟩ := h.2 v (hij ▸ hv)
    exact ⟨type, d, by rw [hdata]; rfl⟩
  · exact h.2 w hw

namespace Panel

def pressEffects (p : Panel) (button : ℕ) : List Effect :=
  match p.tree.heap button with
  | some ⟨_, _, .button text command _ false⟩ =>
    (if terminal text then [.hide] else []) ++ [.send command]
  | _ => []

def apply (p : Panel) : Effect → Panel
  | .hide => { p with visible := false }
  | .send command => { p with sent := p.sent ++ [command] }

/-- A press is its effects, one after the other. -/
theorem press_eq_effects (p : Panel) (button : ℕ) :
    p.press button = (p.pressEffects button).foldl apply p := by
  rw [press, pressEffects]
  rcases p.tree.heap button with _ | ⟨root, parent, _ | _ | ⟨text, command, type, disabled⟩⟩
  · rfl
  · rfl
  · rfl
  · cases disabled with
    | true => rfl
    | false => cases hterm : terminal text <;> simp [hterm, apply]

theorem carries_setDisabled {p : Panel} {i : ℕ} {text command : Text}
    (h : Carries p.tree i text command) (d : Bool) (b : Option ℕ) :
    Carries (p.setDisabled d b).tree i text command := by
  cases b with
  | none => exact h
  | some j =>
    unfold setDisabled
    dsimp only
    split_ifs
    · exact h.modify j d
    · exact h

theorem carries_refresh {p : Panel} {i : ℕ} {text command : Text}
    (h : Carries p.tree i text command) :
    Carries p.refreshFilamentButtons.tree i text command := by
  have hload := carries_setDisabled h p.printing p.loadBtn
  unfold refreshFilamentButtons
  dsimp only
  split_ifs
  · exact carries_setDisabled hload _ _
  · exact hload

theorem carries_perform {p : Panel} {i : ℕ} {text command : Text}
    (h : Carries p.tree i text command) (a : Action) :
    Carries (p.perform a).tree i text command := by
  cases a with
  | begin header => exact (h.clean .footer).clean .flex
  | text t => exact h.grow (p.tree.heap_create _ _)
  | groupStart => exact h.grow (p.tree.heap_create _ _)
  | groupEnd => exact h
  | button footer label cmd type =>
    rcases p.createButton_cases footer label cmd type with ⟨-, -, heq⟩ | ⟨-, t, r, q, ht, heq⟩
    · rw [perform, heq]
      exact h
    · rw [perform, heq, track_eq]
      exact h.grow ht
  | «show» =>
    have hrefresh := carries_refresh h
    dsimp only [perform]
    split_ifs <;> exact hrefresh
  | «end» => exact (h.clean .footer).clean .flex
  | unsupported => exact h

/-- No event changes the text of a button or its command. -/
theorem carries_step (i : ℕ) (text command : Text) (p : Panel) (e : Event)
    (h : Carries p.tree i text command) : Carries (p.step e).tree i text command := by
  unfold step
  by_cases hrun : p.status = .running
  · rw [if_pos hrun]
    cases e with
    | response resp =>
      dsimp only
      cases ha : lineAction resp with
      | none => rcases p.handleMacroResponse_of_none ha with heq | heq <;> rw [heq] <;> exact h
      | some a =>
        rw [p.handleMacroResponse_of_some ha]
        exact carries_perform h a
    | update st t =>
      dsimp only [consume]
      split
      · exact h
      · split_ifs
        · exact h
        · exact carries_refresh (p := { p with state := _ }) h
    | press button =>
      dsimp only
      split_ifs
      · rw [press]
        split <;> exact h
      · exact h
  · rw [if_neg hrun]
    exact h

/-- The prompt is shown and the button enabled. -/
def Pressable (p : Panel) (i : ℕ) : Prop := p.status = .running ∧ p.visible = true ∧
  ∃ root parent text command type,
    p.tree.heap i = some ⟨root, parent, .button text command type false⟩

/-- Whenever button `i` is pressed after this, a terminal label hides the prompt before
the command is sent, and any other label leaves it visible. -/
def ClosesAsLabelled (p : Panel) (i : ℕ) (label command : Text) : Prop :=
  ∀ es, (run step p es).Pressable i →
    (run step p es).pressEffects i =
      (if terminal label then [.hide, .send command] else [.send command]) ∧
    ((run step p es).step (.press i)).visible = !terminal label

theorem pressEffects_of_carries {p : Panel} {i : ℕ} {text command : Text}
    (h : Carries p.tree i text command) (hp : p.Pressable i) :
    p.pressEffects i = (if terminal text then [.hide, .send command] else [.send command]) ∧
      (p.step (.press i)).visible = !terminal text := by
  obtain ⟨hrun, hvis, root, parent, text', command', type, hw⟩ := hp
  obtain ⟨type', d, hdata⟩ := h.2 _ hw
  injection hdata with htext hcommand
  subst htext hcommand
  constructor
  · rw [pressEffects, hw]
    dsimp only
    split_ifs <;> rfl
  · rw [step, if_pos hrun]
    rw [if_pos hvis, press, hw, hvis]
    exact Bool.true_and _

theorem terminal_shownLabel_iff (p : Panel) (label : Text) :
    terminal (p.shownLabel label) = terminal label ↔
      ¬ (p.manual = true ∧ label = "CLOSE".toList) := by
  by_cases h : p.manual = true ∧ label = "CLOSE".toList
  · have hclose : p.shownLabel label = closeText := by
      rw [shownLabel, if_pos (by simp [h.1, h.2])]
    rw [hclose, h.2]
    exact iff_of_false (by decide) (not_not.mpr ⟨h.1, rfl⟩)
  · rw [(p.shownLabel_eq_iff label).mpr h]
    exact iff_of_true rfl h

/-- A created button is enabled, and the LOAD and UNLOAD buttons from before are others. -/
theorem createButton_created {p : Panel} {footer : Bool} {label command type : Text}
    (h : IsButton (p.createButton footer label command type).tree p.tree.next) :
    (p.createButton footer label command type).status = p.status ∧
      ∃ r q, (p.createButton footer label command type).tree.heap p.tree.next =
        some ⟨r, q, .button (p.shownLabel label) command type false⟩ := by
  rcases p.createButton_cases footer label command type with ⟨-, -, heq⟩ | ⟨-, t, r, q, ht, heq⟩
  · obtain ⟨w, hw, -⟩ := h
    rw [heq] at hw
    exact absurd (p.tree.fresh _ le_rfl) (by rw [show p.tree.heap _ = _ from hw]; simp)
  · rw [heq, track_eq]
    exact ⟨rfl, r, q, (ht _).trans (if_pos rfl)⟩

/-- The remembered buttons are not the created one. -/
theorem createButton_remembered {p : Panel} (h : p.Tracked) (footer : Bool)
    {label : Text} (command type : Text) (hload : label ≠ loadLabel) (hunload : label ≠ unloadLabel) :
    (p.createButton footer label command type).loadBtn ≠ some p.tree.next ∧
      (p.createButton footer label command type).unloadBtn ≠ some p.tree.next := by
  have hbtns : (p.createButton footer label command type).loadBtn = p.loadBtn ∧
      (p.createButton footer label command type).unloadBtn = p.unloadBtn := by
    rcases p.createButton_cases footer label command type with ⟨-, -, heq⟩ | ⟨-, t, r, q, -, heq⟩
    · rw [heq]
      exact ⟨rfl, rfl⟩
    · rw [heq, track_eq]
      simp [hload, hunload]
  have hold (i : ℕ) (hi : p.loadBtn = some i ∨ p.unloadBtn = some i) : i ≠ p.tree.next := by
    obtain ⟨w, hw, -⟩ := h i hi
    exact (p.tree.lt_next hw).ne
  rw [hbtns.1, hbtns.2]
  exact ⟨fun hl => hold _ (Or.inl hl) rfl, fun hu => hold _ (Or.inr hu) rfl⟩

/-- Showing the prompt makes a button that is neither LOAD nor UNLOAD pressable. -/
theorem pressable_show {p : Panel} {i : ℕ} {r : Container} {q : Option ℕ}
    {text command type : Text} (htracked : p.Tracked) (hrun : p.status = .running)
    (hw : p.tree.heap i = some ⟨r, q, .button text command type false⟩)
    (hload : p.loadBtn ≠ some i) (hunload : p.unloadBtn ≠ some i) :
    (p.step (.response "// action:prompt_show".toList)).Pressable i := by
  have hline : lineAction "// action:prompt_show".toList = some .show := by decide
  have hstep : p.step (.response "// action:prompt_show".toList) =
      { p with tree := p.refreshed, visible := true } := by
    rw [step, if_pos hrun]
    refine (p.handleMacroResponse_of_some hline).trans ?_
    rw [perform, refreshFilamentButtons_eq htracked hrun]
    exact if_pos hrun
  rw [hstep]
  refine ⟨hrun, rfl, r, q, text, command, type, ?_⟩
  dsimp only
  rw [heap_refreshed, if_neg (not_or.mpr ⟨hload, hunload⟩), hw]

/-- In every run, a button that a line has created closes the prompt as its label says
exactly when it is not the CLOSE button of a manual filament change. -/
theorem closes_as_labelled_iff (s : State) (g : Option ℕ) (es : List Event) (resp : Text)
    (footer : Bool) (label command type : Text) (hrun : (run step (start s g) es).status = .running)
    (hline : lineAction resp = some (.button footer label command type))
    (hcreated : IsButton ((run step (start s g) es).step (.response resp)).tree
      (run step (start s g) es).tree.next) :
    ((run step (start s g) es).step (.response resp)).ClosesAsLabelled
        (run step (start s g) es).tree.next label command ↔
      ¬ ((run step (start s g) es).manual = true ∧ label = "CLOSE".toList) := by
  have htracked : (run step (start s g) es).Tracked :=
    run_of_step tracked_step (tracked_start s g) es
  generalize run step (start s g) es = p at *
  have hstep : p.step (.response resp) = p.createButton footer label command type := by
    rw [step, if_pos hrun]
    exact p.handleMacroResponse_of_some hline
  rw [hstep] at hcreated ⊢
  obtain ⟨hstatus, r, q, hw⟩ := createButton_created hcreated
  have hcarries : Carries (p.createButton footer label command type).tree p.tree.next
      (p.shownLabel label) command := by
    refine ⟨WidgetTree.lt_next _ hw, fun w hw' => ?_⟩
    rw [hw, Option.some.injEq] at hw'
    exact ⟨type, false, hw' ▸ rfl⟩
  rw [← terminal_shownLabel_iff]
  constructor
  · intro h
    by_contra hne
    have hlabel : label = "CLOSE".toList :=
      (not_not.mp fun hn => hne ((p.terminal_shownLabel_iff label).mpr hn)).2
    have hothers := createButton_remembered htracked footer command type
      (show label ≠ loadLabel by rw [hlabel]; decide)
      (show label ≠ unloadLabel by rw [hlabel]; decide)
    have hpress := pressable_show (htracked.createButton footer label command type)
      (hstatus.trans hrun) hw hothers.1 hothers.2
    have hshown := pressEffects_of_carries (carries_step _ _ _ _ _ hcarries) hpress
    have hmeant := h [.response "// action:prompt_show".toList] hpress
    exact hne (Bool.not_inj (hshown.2.symm.trans hmeant.2))
  · intro heq fs hp
    have hlater : Carries (run step _ fs).tree p.tree.next (p.shownLabel label) command :=
      run_of_step (P := fun q : Panel => Carries q.tree p.tree.next (p.shownLabel label) command)
        (carries_step _ _ _) hcarries fs
    rw [← heq]
    exact pressEffects_of_carries hlater hp

/-- A RESUME button in the flex area. -/
theorem closes_as_labelled_resume :
    (run step (start ⟨[], by decide⟩ none) []).status = .running ∧
      lineAction "// action:prompt_button RESUME|RESUME".toList =
        some (.button false "RESUME".toList "RESUME".toList "none".toList) ∧
      (start ⟨[], by decide⟩ none).manual = false ∧
      ((start ⟨[], by decide⟩ none).step
        (.response "// action:prompt_button RESUME|RESUME".toList)).ClosesAsLabelled 0
        "RESUME".toList "RESUME".toList := by
  refine ⟨rfl, by decide, rfl, (closes_as_labelled_iff _ none [] _ false _ _ "none".toList rfl
    (by decide) ⟨⟨.flex, none, .button "RESUME".toList "RESUME".toList "none".toList false⟩,
      by decide, rfl⟩).mpr ?_⟩
  exact fun h => absurd h.2 (by decide)

theorem sorted_nothing : (Json.obj []).Sorted := by decide

/-- The panel after a manual filament change has begun. -/
def manualChange : Panel :=
  run step (start ⟨[], sorted_nothing⟩ none)
    [.response "// action:prompt_begin MANUAL FILAMENT CHANGE".toList]

/-- What the CLOSE button of the shipped macro sends. -/
def closeCommand : Text := "RESPOND TYPE=command MSG='action:prompt_end'".toList

/-- The CLOSE line of the shipped macro. -/
def closeLine : Text :=
  "// action:prompt_footer_button CLOSE|".toList ++ closeCommand ++ "|secondary".toList

def manualShown : Panel :=
  run step (manualChange.step (.response closeLine)) [.response "// action:prompt_show".toList]

/-- The CLOSE button of a manual filament change leaves the prompt visible. -/
theorem manual_close_stays :
    lineAction closeLine =
        some (.button true "CLOSE".toList closeCommand "secondary".toList) ∧
      ¬ (manualChange.step (.response closeLine)).ClosesAsLabelled
        manualChange.tree.next "CLOSE".toList closeCommand := by
  refine ⟨by decide, fun h => ?_⟩
  obtain ⟨hrun, hvisible, hbutton, hstays⟩ : manualShown.status = .running ∧
      manualShown.visible = true ∧ manualShown.tree.heap manualChange.tree.next =
        some ⟨.footer, none, .button closeText closeCommand "secondary".toList false⟩ ∧
      (manualShown.step (.press manualChange.tree.next)).visible = true := by
    decide
  have hcloses := (h [.response "// action:prompt_show".toList]
    ⟨hrun, hvisible, _, _, _, _, _, hbutton⟩).2
  exact absurd (hstays.symm.trans hcloses) (by decide)

end Panel
end PowerScreen.Prompt
