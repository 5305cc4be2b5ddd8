import PowerScreen.Prompt.Panel

/-! # The buttons the panel remembers

The LOAD and UNLOAD pointers are reset wherever the containers are cleaned, so
they always point to living buttons and a refresh reaches exactly these two.
-/
namespace PowerScreen.Prompt
open Library Library.Run

def Kind.isButton : Kind → Bool
  | .button _ _ _ _ => true
  | _ => false

@[simp] theorem Kind.isButton_setDisabled (d : Bool) (k : Kind) :
    (k.setDisabled d).isButton = k.isButton := by
  cases k <;> rfl

abbrev Widgets := WidgetTree Container Kind

def IsButton (t : Widgets) (i : ℕ) : Prop := ∃ w, t.heap i = some w ∧ w.data.isButton

/-- A widget more leaves the buttons as they are. -/
theorem IsButton.grow {t u : Widgets} {i : ℕ} {x : Widget Container Kind} (h : IsButton t i)
    (hu : ∀ j, u.heap j = if j = t.next then some x else t.heap j) : IsButton u i := by
  obtain ⟨w, hw, hb⟩ := h
  exact ⟨w, by rw [hu, if_neg (t.lt_next hw).ne, hw], hb⟩

theorem IsButton.modifyOpt {t : Widgets} {i : ℕ} (h : IsButton t i) (b : Option ℕ) (d : Bool) :
    IsButton (t.modifyOpt b (Kind.setDisabled d)) i := by
  obtain ⟨w, hw, hb⟩ := h
  by_cases hi : b = some i
  · exact ⟨{ w with data := w.data.setDisabled d },
      by rw [t.heap_modifyOpt, if_pos hi, hw]; rfl, by simpa using hb⟩
  · exact ⟨w, by rw [t.heap_modifyOpt, if_neg hi, hw], hb⟩

namespace Panel

theorem handleMacroResponse_of_some {resp : Text} {a : Action} (p : Panel)
    (h : lineAction resp = some a) : p.handleMacroResponse resp = p.perform a := by
  obtain ⟨command, hc, ha⟩ := Option.bind_eq_some_iff.mp h
  rw [handleMacroResponse, hc]
  dsimp only
  rw [ha]

/-- A response without an action is no action line, or ends in an exception. -/
theorem handleMacroResponse_of_none {resp : Text} (p : Panel) (h : lineAction resp = none) :
    p.handleMacroResponse resp = p ∨
      p.handleMacroResponse resp = { p with status := .aborted } := by
  unfold handleMacroResponse
  cases hc : actionCommand resp with
  | none => exact Or.inl rfl
  | some command =>
    have ha : parseAction command = none := by simpa [lineAction, hc] using h
    dsimp only
    rw [ha]
    exact Or.inr rfl

/-- The remembered buttons are alive. -/
def Tracked (p : Panel) : Prop :=
  ∀ i, p.loadBtn = some i ∨ p.unloadBtn = some i → IsButton p.tree i

theorem tracked_of_none {p : Panel} (hl : p.loadBtn = none) (hu : p.unloadBtn = none) :
    p.Tracked := by
  intro i hi
  rw [hl, hu] at hi
  rcases hi with hi | hi <;> cases hi

theorem setDisabled_eq {p : Panel} {b : Option ℕ} (h : ∀ i, b = some i → IsButton p.tree i)
    (d : Bool) : p.setDisabled d b =
      { p with tree := p.tree.modifyOpt b (Kind.setDisabled d) } := by
  cases b with
  | none => rfl
  | some i =>
    obtain ⟨w, hw, -⟩ := h i rfl
    rw [setDisabled, if_pos (by rw [hw]; rfl)]
    rfl

/-- The tree after a refresh. -/
def refreshed (p : Panel) : Widgets :=
  (p.tree.modifyOpt p.loadBtn (Kind.setDisabled p.printing)).modifyOpt p.unloadBtn
    (Kind.setDisabled p.printing)

theorem isButton_refreshed {p : Panel} {i : ℕ} (h : IsButton p.tree i) :
    IsButton p.refreshed i := (h.modifyOpt _ _).modifyOpt _ _

theorem refreshFilamentButtons_eq {p : Panel} (h : p.Tracked) (hrun : p.status = .running) :
    p.refreshFilamentButtons = { p with tree := p.refreshed } := by
  unfold refreshFilamentButtons
  rw [setDisabled_eq (fun i hi => h i (Or.inl hi))]
  dsimp only
  rw [if_pos hrun, setDisabled_eq fun i hi => (h i (Or.inr hi)).modifyOpt _ _]
  rfl

/-- A refresh sets the flag of the remembered buttons and leaves the others alone. -/
theorem heap_refreshed (p : Panel) (i : ℕ) : p.refreshed.heap i =
    if p.loadBtn = some i ∨ p.unloadBtn = some i then
      (p.tree.heap i).map fun w => { w with data := w.data.setDisabled p.printing }
    else p.tree.heap i := by
  have htwice (d : Bool) (k : Kind) : (k.setDisabled d).setDisabled d = k.setDisabled d := by
    cases k <;> rfl
  rw [refreshed, WidgetTree.heap_modifyOpt, WidgetTree.heap_modifyOpt]
  by_cases hl : p.loadBtn = some i <;> by_cases hu : p.unloadBtn = some i
  · simp [hl, hu, htwice, Function.comp_def]
  all_goals simp [hl, hu]

/-- The open group has not been deleted. -/
def GroupAlive (p : Panel) : Prop := ∀ g, p.groupCont = some g → (p.tree.heap g).isSome

/-- A button is created, or its group was deleted. -/
theorem createButton_cases (p : Panel) (footer : Bool) (label command type : Text) :
    (footer = false ∧ ¬ p.GroupAlive ∧
      p.createButton footer label command type = { p with status := .faulted }) ∨
    (footer = true ∨ p.GroupAlive) ∧ ∃ t r q,
      (∀ i, t.heap i = if i = p.tree.next then
        some ⟨r, q, .button (p.shownLabel label) command type false⟩ else p.tree.heap i) ∧
      p.createButton footer label command type =
        ({ p with tree := t } : Panel).track label p.tree.next := by
  cases footer with
  | true => exact Or.inr ⟨Or.inl rfl, _, _, _, p.tree.heap_create _ _, rfl⟩
  | false =>
    cases hg : p.groupCont with
    | none =>
      refine Or.inr ⟨Or.inr fun g h => ?_, _, _, _, p.tree.heap_create .flex _, ?_⟩
      · rw [hg] at h
        cases h
      · simp [createButton, hg]
    | some g =>
      cases hu : p.tree.createUnder g (.button (p.shownLabel label) command type false) with
      | none =>
        have hdead := WidgetTree.createUnder_eq_none_iff.mp hu
        refine Or.inl ⟨rfl, fun halive => ?_, by simp [createButton, hg, hu]⟩
        have h := halive g hg
        rw [hdead] at h
        cases h
      | some t =>
        obtain ⟨v, hv, hheap⟩ := WidgetTree.heap_createUnder hu
        refine Or.inr ⟨Or.inr fun g' hg' => ?_, t, _, _, hheap, by simp [createButton, hg, hu]⟩
        rw [hg, Option.some.injEq] at hg'
        rw [← hg', hv]
        rfl

/-- Only the pointers of a manual filament change move. -/
theorem track_eq (p : Panel) (label : Text) (b : ℕ) : p.track label b =
    { p with loadBtn := if p.manual && label = loadLabel then some b else p.loadBtn
             unloadBtn :=
              if p.manual && label = unloadLabel then some b else p.unloadBtn } := by
  have hne : loadLabel ≠ unloadLabel := by decide
  unfold track
  split_ifs with hl hu
  · simp only [Bool.and_eq_true, decide_eq_true_eq] at hl hu
    exact absurd (hl.2.symm.trans hu.2) hne
  all_goals rfl

theorem Tracked.createButton {p : Panel} (h : p.Tracked) (footer : Bool)
    (label command type : Text) : (p.createButton footer label command type).Tracked := by
  rcases p.createButton_cases footer label command type with ⟨-, -, heq⟩ | ⟨-, t, r, q, ht, heq⟩
  · rw [heq]
    exact h
  · rw [heq, track_eq]
    have hnew : IsButton t p.tree.next := ⟨_, by rw [ht, if_pos rfl], rfl⟩
    intro i hi
    dsimp only at hi
    rcases hi with hi | hi <;> split_ifs at hi
    · exact Option.some.inj hi ▸ hnew
    · exact (h i (Or.inl hi)).grow ht
    · exact Option.some.inj hi ▸ hnew
    · exact (h i (Or.inr hi)).grow ht

theorem Tracked.refresh {p : Panel} (h : p.Tracked) (hrun : p.status = .running) :
    p.refreshFilamentButtons.Tracked := by
  rw [refreshFilamentButtons_eq h hrun]
  exact fun i hi => isButton_refreshed (h i hi)

theorem Tracked.perform {p : Panel} (h : p.Tracked) (hrun : p.status = .running) (a : Action) :
    (p.perform a).Tracked := by
  cases a with
  | begin header => exact tracked_of_none rfl rfl
  | text text => exact fun i hi => (h i hi).grow (p.tree.heap_create _ _)
  | groupStart => exact fun i hi => (h i hi).grow (p.tree.heap_create _ _)
  | groupEnd => exact h
  | button footer label command type => exact h.createButton footer label command type
  | «show» =>
    dsimp only [Panel.perform]
    split_ifs
    · exact h.refresh hrun
    · exact h.refresh hrun
  | «end» => exact tracked_of_none rfl rfl
  | unsupported => exact h

theorem tracked_step (p : Panel) (e : Event) (h : p.Tracked) : (p.step e).Tracked := by
  unfold step
  by_cases hrun : p.status = .running
  · rw [if_pos hrun]
    cases e with
    | response resp =>
      dsimp only
      cases ha : lineAction resp with
      | none => rcases p.handleMacroResponse_of_none ha with heq | heq <;> rw [heq] <;> exact h
      | some a =>
        rw [p.handleMacroResponse_of_some ha]
        exact h.perform hrun a
    | update st t =>
      dsimp only [consume]
      rw [Status.getAt_notification_printState]
      dsimp only
      split_ifs
      · exact h
      · exact Tracked.refresh (p := { p with state := _ }) h hrun
    | press button =>
      dsimp only [press]
      split_ifs
      · split <;> exact h
      · exact h
  · rw [if_neg hrun]
    exact h

theorem tracked_start (s : State) (g : Option ℕ) : (start s g).Tracked :=
  tracked_of_none rfl rfl

end Panel
end PowerScreen.Prompt
