import PowerScreen.Prompt.Cuts

/-! # The grammar of the button lines

A line is written from a label and what follows it, and read back into a button.
Without a bar the button gets the whole line for its command.
-/
namespace PowerScreen.Prompt
open Library Library.Run

/-- The line of a button as a macro responds it. -/
def buttonLine (footer : Bool) (label : Text) (tail : Tail) : Text :=
  "// action:".toList ++ (buttonKey footer ++ (' ' :: label ++ tail.text))

/-- The command that is meant: the label itself when none is given. -/
def Tail.meant (label : Text) : Tail → Text
  | bare => label
  | command cmd | typed cmd _ => cmd

/-- The label starts with a character that is neither a bar nor a blank. -/
structure IsLabel (label : Text) : Prop where
  nonempty : label ≠ []
  plain : '|' ∉ label
  blank : label.head? ≠ some ' '
  tab : label.head? ≠ some '\t'

theorem IsLabel.trimLeft {label : Text} (h : IsLabel label) : trimLeft (' ' :: label) = label := by
  obtain ⟨c, t, rfl⟩ := List.exists_cons_of_ne_nil h.nonempty
  have hblank : c ≠ ' ' := fun hc => h.blank (hc ▸ rfl)
  have htab : c ≠ '\t' := fun hc => h.tab (hc ▸ rfl)
  have hdrop : (' ' :: c :: t).dropWhile (fun c => c = ' ' || c = '\t') = c :: t := by
    simp [hblank, htab]
  unfold Prompt.trimLeft
  dsimp only
  rw [hdrop, if_neg (List.cons_ne_nil c t)]

/-- The tests of other keywords do not take a button line. -/
theorem parseAction_button (footer : Bool) (s : Text) :
    parseAction (buttonKey footer ++ (' ' :: s)) =
      parseButton footer (buttonKey footer ++ (' ' :: s)) := by
  cases footer <;> rfl

theorem lineAction_buttonLine (footer : Bool) {label : Text} {tail : Tail} (h : IsLabel label)
    (ht : tail.Plain) : lineAction (buttonLine footer label tail) =
      some (.button footer label (tail.cut footer (' ' :: label)) tail.type) := by
  have hplain : '|' ∉ ' ' :: label := by simpa using h.plain
  have hcommand : actionCommand (buttonLine footer label tail) =
      some (buttonKey footer ++ (' ' :: label ++ tail.text)) :=
    Panel.actionCommand_eq_some_iff.mpr rfl
  rw [lineAction, hcommand, Option.bind_some, List.cons_append,
    parseAction_button, ← List.cons_append, parseButton_tail footer hplain ht, h.trimLeft]

theorem cut_eq_meant_iff (footer : Bool) (label : Text) (tail : Tail) :
    tail.cut footer (' ' :: label) = tail.meant label ↔ tail ≠ .bare := by
  cases tail with
  | bare =>
    refine iff_of_false (fun h => ?_) (by simp)
    have hlen := congrArg List.length h
    rw [Tail.cut, Tail.meant, List.length_append, List.length_cons] at hlen
    omega
  | _ => exact iff_of_true rfl (by simp)

namespace Panel

/-- The line has created its button, and pressing it sends the command that is meant. -/
structure Makes (p : Panel) (footer : Bool) (label : Text) (tail : Tail) : Prop where
  button : ∃ root parent, (p.step (.response (buttonLine footer label tail))).tree.heap
    p.tree.next = some ⟨root, parent, .button label (tail.meant label) tail.type false⟩
  press : ({ p.step (.response (buttonLine footer label tail)) with visible := true }.step
    (.press p.tree.next)).sent = p.sent ++ [tail.meant label]

theorem shownLabel_eq_iff (p : Panel) (label : Text) :
    p.shownLabel label = label ↔ ¬ (p.manual = true ∧ label = "CLOSE".toList) := by
  unfold shownLabel
  split_ifs with h
  · simp only [Bool.and_eq_true, decide_eq_true_eq] at h
    refine iff_of_false (fun heq => ?_) (not_not.mpr h)
    rw [h.2] at heq
    exact absurd heq (by decide)
  · refine iff_of_true rfl fun hc => h ?_
    simpa using hc

/-- A visible, enabled button sends its command. -/
theorem sent_press {p : Panel} (hrun : p.status = .running) {i : ℕ} {r : Container} {q : Option ℕ}
    {label command type : Text}
    (hw : p.tree.heap i = some ⟨r, q, .button label command type false⟩) :
    ({ p with visible := true }.step (.press i)).sent = p.sent ++ [command] := by
  rw [step, if_pos hrun]
  dsimp only
  rw [if_pos rfl, press]
  dsimp only
  rw [hw]

/-- A button is read back as it was meant exactly when its line has a command, the
prompt does not redraw its label, and the group it goes into has not been deleted. -/
theorem button_read_back_iff (p : Panel) (footer : Bool) (label : Text) (tail : Tail)
    (hrun : p.status = .running) (h : IsLabel label) (ht : tail.Plain) :
    p.Makes footer label tail ↔
      tail ≠ .bare ∧ ¬ (p.manual = true ∧ label = "CLOSE".toList) ∧
        (footer = true ∨ p.GroupAlive) := by
  have hstep : p.step (.response (buttonLine footer label tail)) =
      p.createButton footer label (tail.cut footer (' ' :: label)) tail.type := by
    rw [step, if_pos hrun]
    exact p.handleMacroResponse_of_some (lineAction_buttonLine footer h ht)
  rcases p.createButton_cases footer label (tail.cut footer (' ' :: label)) tail.type with
    ⟨hfooter, hdead, heq⟩ | ⟨halive, t, r, q, hheap, heq⟩
  · refine iff_of_false (fun hm => ?_) fun hc => ?_
    · obtain ⟨root, parent, hb⟩ := hm.button
      rw [hstep, heq] at hb
      exact absurd (p.tree.fresh _ le_rfl) (by rw [show p.tree.heap _ = _ from hb]; simp)
    · rcases hc.2.2 with hf | hg
      · rw [hfooter] at hf
        cases hf
      · exact hdead hg
  · rw [track_eq] at heq
    have hnew := (hheap p.tree.next).trans (if_pos rfl)
    constructor
    · intro hm
      obtain ⟨root, parent, hb⟩ := hm.button
      rw [hstep, heq] at hb
      have hw := Option.some.inj (hnew.symm.trans hb)
      injection hw with _ _ hkind
      injection hkind with hlabel hcmd
      exact ⟨(cut_eq_meant_iff footer label tail).mp hcmd, (p.shownLabel_eq_iff label).mp hlabel,
        halive⟩
    · rintro ⟨hbare, hlabel, -⟩
      rw [(cut_eq_meant_iff footer label tail).mpr hbare,
        (p.shownLabel_eq_iff label).mpr hlabel] at hnew
      have hstatus : (p.step (.response (buttonLine footer label tail))).status = .running := by
        rw [hstep, heq]
        exact hrun
      have hbutton : (p.step (.response (buttonLine footer label tail))).tree.heap p.tree.next =
          some ⟨r, q, .button label (tail.meant label) tail.type false⟩ := by
        rw [hstep, heq]
        exact hnew
      refine ⟨⟨r, q, hbutton⟩, (sent_press hstatus hbutton).trans ?_⟩
      rw [hstep, heq]

/-- The footer button of a fresh panel, with a command and a type. -/
theorem button_read_back_typed :
    (start ⟨[], by decide⟩ none).status = .running ∧ IsLabel "STOP".toList ∧
      (Tail.typed "CANCEL_PRINT".toList "error".toList).Plain ∧
      (start ⟨[], by decide⟩ none).Makes true "STOP".toList
        (.typed "CANCEL_PRINT".toList "error".toList) :=
  have hlabel : IsLabel "STOP".toList := ⟨by decide, by decide, by decide, by decide⟩
  have hplain : '|' ∉ "CANCEL_PRINT".toList := by decide
  ⟨rfl, hlabel, hplain, (button_read_back_iff _ true "STOP".toList
    (.typed "CANCEL_PRINT".toList "error".toList) rfl hlabel hplain).mpr
    ⟨by decide, by simp [start], Or.inl rfl⟩⟩

/-- The label alone: the button sends `prompt_button PARK`. -/
theorem bare_label_sends_line :
    ¬ (start ⟨[], by decide⟩ none).Makes false "PARK".toList .bare := by
  intro h
  have hsent := h.press
  revert hsent
  decide

end Panel
end PowerScreen.Prompt
