import PowerScreen.Prompt.Buttons

/-! # The pointers of the panel stay alive

The pointer to the open group is reset by the end of the group only, while the
group itself is deleted by the begin and the end of a prompt. Nor does the
constructor set it.
-/
namespace PowerScreen.Prompt
open Library Library.Run

/-- A group that lies in the flex area. -/
def IsGroup (t : Widgets) (g : ℕ) : Prop := t.heap g = some ⟨.flex, none, .group⟩

theorem IsGroup.grow {t u : Widgets} {g : ℕ} {x : Widget Container Kind} (h : IsGroup t g)
    (hu : ∀ j, u.heap j = if j = t.next then some x else t.heap j) : IsGroup u g := by
  rw [IsGroup, hu, if_neg (t.lt_next h).ne]
  exact h

theorem IsGroup.modifyOpt {t : Widgets} {g : ℕ} (h : IsGroup t g) (b : Option ℕ) (d : Bool) :
    IsGroup (t.modifyOpt b (Kind.setDisabled d)) g := by
  rw [IsGroup, WidgetTree.heap_modifyOpt, show t.heap g = _ from h]
  split_ifs <;> rfl

/-- The actions that clean the containers. -/
def Action.cleans : Action → Bool
  | .begin _ | .end => true
  | _ => false

namespace Panel

/-- No deleted widget has been used, and none is pointed to: the open group lies in
the flex area, the remembered buttons are buttons of the prompt. -/
structure Live (p : Panel) : Prop where
  status : p.status ≠ .faulted
  group : ∀ g, p.groupCont = some g → IsGroup p.tree g
  tracked : p.Tracked

/-- A prompt begins or ends with no group open. -/
def Ungrouped (p : Panel) (e : Event) : Prop :=
  p.status = .running → match e with
    | .response resp => ∀ a, lineAction resp = some a →
        a.cleans → p.groupCont = none
    | _ => True

theorem Live.groupAlive {p : Panel} (h : p.Live) : p.GroupAlive := fun g hg => by
  rw [show p.tree.heap g = _ from h.group g hg]
  rfl

/-- Cleaning deletes the open group and leaves the pointer. -/
theorem live_clean_iff {p q : Panel} (hq : q.tree = p.clean.tree) (hs : q.status = .running)
    (hg : q.groupCont = p.groupCont) (hl : q.loadBtn = none) (hu : q.unloadBtn = none) :
    q.Live ↔ p.groupCont = none := by
  constructor
  · intro h
    by_contra hne
    obtain ⟨g, hpg⟩ := Option.ne_none_iff_exists'.mp hne
    have hgroup := h.group g (hg.trans hpg)
    rw [IsGroup, hq, clean, WidgetTree.heap_clean, Option.filter_eq_some_iff] at hgroup
    exact absurd hgroup.2 (by simp)
  · intro hnone
    refine ⟨by rw [hs]; decide, fun g hpg => ?_, tracked_of_none hl hu⟩
    rw [hg, hnone] at hpg
    cases hpg

theorem Live.create {p : Panel} (h : p.Live) (k : Kind) :
    Live { p with tree := p.tree.create .flex k } where
  status := h.status
  group g hg := (h.group g hg).grow (p.tree.heap_create _ _)
  tracked i hi := (h.tracked i hi).grow (p.tree.heap_create _ _)

theorem Live.createButton {p : Panel} (h : p.Live) (footer : Bool) (label command type : Text) :
    (p.createButton footer label command type).Live := by
  have htracked := h.tracked.createButton footer label command type
  rcases p.createButton_cases footer label command type with ⟨-, hdead, -⟩ | ⟨-, t, r, q, ht, heq⟩
  · exact absurd h.groupAlive hdead
  · rw [heq] at htracked ⊢
    rw [track_eq] at htracked ⊢
    exact ⟨h.status, fun g hg => (h.group g hg).grow ht, htracked⟩

theorem Live.refresh {p : Panel} (h : p.Live) (hrun : p.status = .running) :
    p.refreshFilamentButtons.Live := by
  rw [refreshFilamentButtons_eq h.tracked hrun]
  exact ⟨h.status, fun g hg => ((h.group g hg).modifyOpt _ _).modifyOpt _ _,
    fun i hi => isButton_refreshed (h.tracked i hi)⟩

theorem live_perform_iff {p : Panel} (h : p.Live) (hrun : p.status = .running) (a : Action) :
    (p.perform a).Live ↔ (a.cleans → p.groupCont = none) := by
  cases a with
  | begin header =>
    exact (live_clean_iff (q := p.perform (.begin header)) rfl hrun rfl rfl rfl).trans
      ⟨fun hg _ => hg, fun hg => hg rfl⟩
  | text text => exact iff_of_true (h.create _) fun hm => by cases hm
  | groupStart =>
    refine iff_of_true ⟨h.status, fun g hg => ?_, (h.create .group).tracked⟩ fun hm => by cases hm
    rw [← Option.some.inj hg]
    exact (p.tree.heap_create _ _ _).trans (if_pos rfl)
  | groupEnd =>
    exact iff_of_true ⟨h.status, (fun g hg => nomatch hg), h.tracked⟩ fun hm => by cases hm
  | button footer label command type =>
    exact iff_of_true (h.createButton footer label command type) fun hm => by cases hm
  | «show» =>
    refine iff_of_true ?_ fun hm => by cases hm
    have hlive := h.refresh hrun
    dsimp only [perform]
    split_ifs
    · exact ⟨hlive.status, hlive.group, hlive.tracked⟩
    · exact hlive
  | «end» =>
    exact (live_clean_iff (q := p.perform .end) rfl hrun rfl rfl rfl).trans
      ⟨fun hg _ => hg, fun hg => hg rfl⟩
  | unsupported => exact iff_of_true h fun hm => by cases hm

theorem Live.update {p : Panel} (h : p.Live) (hrun : p.status = .running)
    (st : PowerScreen.Status) (t : ℚ) : (p.step (.update st t)).Live := by
  rw [step, if_pos hrun]
  dsimp only [consume]
  rw [Status.getAt_notification_printState]
  dsimp only
  split_ifs
  · exact ⟨h.status, h.group, h.tracked⟩
  · exact Live.refresh (p := { p with state := _ }) ⟨h.status, h.group, h.tracked⟩ hrun

/-- One step keeps the pointers alive exactly when it cleans no open group. -/
theorem live_step_iff {p : Panel} (h : p.Live) (e : Event) : (p.step e).Live ↔ p.Ungrouped e := by
  by_cases hrun : p.status = .running
  · cases e with
    | response resp =>
      rw [step_response hrun]
      cases ha : lineAction resp with
      | none =>
        refine iff_of_true ?_ fun _ a ha' => by rw [ha] at ha'; cases ha'
        rcases p.handleMacroResponse_of_none ha with heq | heq <;> rw [heq]
        · exact h
        · exact ⟨nofun, h.group, h.tracked⟩
      | some a =>
        rw [p.handleMacroResponse_of_some ha, live_perform_iff h hrun]
        constructor
        · intro hr _ b hb
          rw [ha, Option.some.injEq] at hb
          exact hb ▸ hr
        · exact fun hr => hr hrun a ha
    | update st t => exact iff_of_true (h.update hrun st t) fun _ => trivial
    | press button =>
      refine iff_of_true ?_ fun _ => trivial
      rw [step_press hrun]
      dsimp only [press]
      split_ifs
      · split
        · exact ⟨h.status, h.group, h.tracked⟩
        · exact h
      · exact h
  · rw [step_of_not_running hrun]
    exact iff_of_true h fun hr => absurd hr hrun

/-- In every run of lines, reports and presses no deleted widget is used or pointed to
exactly when the group pointer starts as null and is null wherever a prompt begins or
ends. -/
theorem live_throughout_iff (s : State) (g : Option ℕ) (es : List Event) :
    Throughout step Live (start s g) es ↔
      g = none ∧ EachStep step Ungrouped (start s g) es := by
  cases g with
  | none =>
    have hstart : (start s none).Live :=
      ⟨nofun, (fun g hg => nomatch hg), tracked_start s none⟩
    exact (throughout_iff_eachStep (P := Live) (fun _ e h => live_step_iff h e) hstart es).trans
      (iff_and_self.mpr fun _ => rfl)
  | some g =>
    refine iff_of_false (fun h => ?_) fun h => by cases h.1
    have hgroup := h.head.group g rfl
    cases hgroup

/-- A group is left open, the next prompt begins, and its button goes into the group
that was deleted. -/
theorem open_group_faults :
    ¬ Throughout step Live (start ⟨[], by decide⟩ none)
      [.response "// action:prompt_begin Filament".toList,
        .response "// action:prompt_button_group_start".toList,
        .response "// action:prompt_begin Filament".toList,
        .response "// action:prompt_button Load|LOAD_MATERIAL".toList] := by
  intro h
  have hlast : Live _ := h.2.2.2.2
  exact hlast.status (by decide)

end Panel
end PowerScreen.Prompt
