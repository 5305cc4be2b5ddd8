import PowerScreen.Prompt.Buttons

/-! # Where the lines of a prompt are cut

Behind the keyword of a button the line has no bar, one bar, or a second one, and
is parsed in each case. The cuts behind `prompt_begin` and `prompt_text` skip one
character more than the keyword has.
-/
namespace PowerScreen.Prompt

/-- The keyword up to the place where the label starts. -/
def buttonKey (footer : Bool) : Text :=
  if footer then "prompt_footer_button".toList else "prompt_button".toList

theorem length_buttonKey (footer : Bool) :
    (buttonKey footer).length = if footer then 20 else 13 := by
  cases footer <;> rfl

theorem bar_notMem_buttonKey (footer : Bool) : '|' ∉ buttonKey footer := by
  cases footer <;> decide

theorem substrFrom_append {s a b : Text} {pos : ℕ} (hs : s = a ++ b) (ha : a.length = pos) :
    substrFrom s pos = some b := by
  rw [substrFrom, hs, ← ha, if_pos (by simp), List.drop_left]

theorem substrFrom_zero (s : Text) : substrFrom s 0 = some s := rfl

theorem findBar_of_notMem {s : Text} {pos : ℕ} (h : '|' ∉ s.drop pos) : findBar s pos = -1 := by
  have hlen : (s.drop pos).findIdx (· = '|') = (s.drop pos).length :=
    List.findIdx_eq_length.mpr fun c hc => decide_eq_false fun hbar => h (hbar ▸ hc)
  unfold findBar
  dsimp only
  rw [hlen, if_neg (lt_irrefl _)]

theorem findBar_append {b : Text} (h : '|' ∉ b) (a c : Text) :
    findBar (a ++ (b ++ '|' :: c)) a.length = (a.length + b.length : ℕ) := by
  have hidx : (b ++ '|' :: c).findIdx (· = '|') = b.length := by
    have hb : b.findIdx (· = '|') = b.length :=
      List.findIdx_eq_length.mpr fun d hd => decide_eq_false fun hbar => h (hbar ▸ hd)
    rw [List.findIdx_append, hb, if_neg (lt_irrefl _), List.findIdx_cons]
    simp
  unfold findBar
  dsimp only
  rw [List.drop_left, hidx, if_pos (by simp)]

/-- Without a bar the command is cut behind position -1. -/
theorem parseButton_bare (footer : Bool) {label : Text} (h : '|' ∉ label) :
    parseButton footer (buttonKey footer ++ label) =
      some (.button footer (trimLeft label) (buttonKey footer ++ label) "none".toList) := by
  have hfirst : findBar (buttonKey footer ++ label) (buttonKey footer).length = -1 :=
    findBar_of_notMem (by rwa [List.drop_left])
  have hsecond : findBar (buttonKey footer ++ label) 0 = -1 :=
    findBar_of_notMem (by simpa using ⟨bar_notMem_buttonKey footer, h⟩)
  unfold parseButton
  rw [← length_buttonKey]
  simp only [hfirst, substrFrom_append rfl rfl]
  simp [hsecond, substrFrom_zero]

/-- The first bar ends the label; `second` is where the next one is found. -/
theorem parseButton_bar {footer : Bool} {label rest command : Text} {second : ℤ}
    (hc : command = (buttonKey footer ++ label ++ ['|']) ++ rest) (h : '|' ∉ label)
    (hsecond : findBar command (buttonKey footer ++ label ++ ['|']).length = second) :
    parseButton footer command =
      if 0 < second then (substrFrom command (second.toNat + 1)).map fun type =>
        .button footer (trimLeft label)
          (rest.take (second - (buttonKey footer).length - label.length - 1).toNat) type
      else some (.button footer (trimLeft label) rest "none".toList) := by
  have hline : command = buttonKey footer ++ (label ++ '|' :: rest) := by simp [hc]
  have hfirst : findBar command (buttonKey footer).length =
      ((buttonKey footer).length + label.length : ℕ) := hline ▸ findBar_append h _ _
  have hnext : (((buttonKey footer).length + label.length : ℕ) + 1 : ℤ).toNat =
      (buttonKey footer ++ label ++ ['|']).length := by
    rw [List.length_append, List.length_append]
    rfl
  have htail : substrFrom command (buttonKey footer).length = some (label ++ '|' :: rest) :=
    substrFrom_append hline rfl
  have hrest : substrFrom command (buttonKey footer ++ label ++ ['|']).length = some rest :=
    substrFrom_append hc rfl
  unfold parseButton
  rw [← length_buttonKey]
  simp only [hfirst, hnext, hsecond, htail, hrest]
  simp only [Option.bind_eq_bind, Option.bind_some]
  have hneg : ¬ (((buttonKey footer).length + label.length : ℕ) : ℤ) < 0 := by omega
  rw [if_neg hneg, Int.toNat_natCast, Nat.add_sub_cancel_left, List.take_left]
  by_cases hpos : 0 < second
  · rw [if_pos hpos, if_pos hpos, Option.map_eq_bind]
    push_cast
    rw [← sub_sub]
    rfl
  · rw [if_neg hpos, if_neg hpos]

/-- A label and a command. -/
theorem parseButton_command (footer : Bool) {label cmd : Text} (h : '|' ∉ label)
    (hcmd : '|' ∉ cmd) : parseButton footer (buttonKey footer ++ (label ++ '|' :: cmd)) =
      some (.button footer (trimLeft label) cmd "none".toList) := by
  have hline : buttonKey footer ++ (label ++ '|' :: cmd) =
      (buttonKey footer ++ label ++ ['|']) ++ cmd := by simp
  have hsecond : findBar ((buttonKey footer ++ label ++ ['|']) ++ cmd)
      (buttonKey footer ++ label ++ ['|']).length = -1 :=
    findBar_of_notMem (by rwa [List.drop_left])
  rw [hline, parseButton_bar rfl h hsecond, if_neg (by decide)]

/-- A label, a command and a type; a further bar belongs to the type. -/
theorem parseButton_typed (footer : Bool) {label cmd : Text} (h : '|' ∉ label)
    (hcmd : '|' ∉ cmd) (type : Text) :
    parseButton footer (buttonKey footer ++ (label ++ '|' :: (cmd ++ '|' :: type))) =
      some (.button footer (trimLeft label) cmd type) := by
  have hline : buttonKey footer ++ (label ++ '|' :: (cmd ++ '|' :: type)) =
      (buttonKey footer ++ label ++ ['|']) ++ (cmd ++ '|' :: type) := by simp
  have hsecond : findBar ((buttonKey footer ++ label ++ ['|']) ++ (cmd ++ '|' :: type))
      (buttonKey footer ++ label ++ ['|']).length =
        ((buttonKey footer ++ label ++ ['|']).length + cmd.length : ℕ) := findBar_append hcmd _ _
  have hlen : (buttonKey footer ++ label ++ ['|']).length =
      (buttonKey footer).length + label.length + 1 := by simp [add_assoc]
  have htake : ((((buttonKey footer ++ label ++ ['|']).length + cmd.length : ℕ) : ℤ) -
      (buttonKey footer).length - label.length - 1).toNat = cmd.length := by rw [hlen]; omega
  have htype : substrFrom ((buttonKey footer ++ label ++ ['|']) ++ (cmd ++ '|' :: type))
      (((buttonKey footer ++ label ++ ['|']).length + cmd.length) + 1) = some type := by
    refine substrFrom_append (a := buttonKey footer ++ label ++ ['|'] ++ cmd ++ ['|']) (by simp) ?_
    rw [List.length_append, List.length_append, List.length_singleton]
  rw [hline, parseButton_bar rfl h hsecond, if_pos (by rw [hlen]; omega), htake,
    Int.toNat_natCast, htype, List.take_left]
  rfl

/-- What follows the label of a button. -/
inductive Tail where
  | bare
  | command (cmd : Text)
  | typed (cmd type : Text)
deriving DecidableEq

namespace Tail

def text : Tail → Text
  | bare => []
  | command cmd => '|' :: cmd
  | typed cmd type => '|' :: (cmd ++ '|' :: type)

def type : Tail → Text
  | typed _ type => type
  | _ => "none".toList

/-- The command that is cut out of the line. -/
def cut (footer : Bool) (label : Text) : Tail → Text
  | bare => buttonKey footer ++ label
  | command cmd | typed cmd _ => cmd

/-- The command has no bar. -/
def Plain : Tail → Prop
  | bare => True
  | command cmd | typed cmd _ => '|' ∉ cmd

end Tail

/-- Every text is a label without bars and what follows it. -/
theorem exists_tail (s : Text) : ∃ label tail, s = label ++ Tail.text tail ∧ '|' ∉ label ∧
    tail.Plain := by
  by_cases h : '|' ∈ s
  · obtain ⟨label, rest, rfl, hlabel⟩ := List.eq_append_cons_of_mem h
    by_cases hrest : '|' ∈ rest
    · obtain ⟨cmd, type, rfl, hcmd⟩ := List.eq_append_cons_of_mem hrest
      exact ⟨label, .typed cmd type, rfl, hlabel, hcmd⟩
    · exact ⟨label, .command rest, rfl, hlabel, hrest⟩
  · exact ⟨s, .bare, (List.append_nil s).symm, h, trivial⟩

theorem parseButton_tail (footer : Bool) {label : Text} {tail : Tail} (h : '|' ∉ label)
    (ht : tail.Plain) : parseButton footer (buttonKey footer ++ (label ++ tail.text)) =
      some (.button footer (trimLeft label) (tail.cut footer label) tail.type) := by
  cases tail with
  | bare =>
    rw [Tail.text, List.append_nil]
    exact parseButton_bare footer h
  | command cmd => exact parseButton_command footer h ht
  | typed cmd type => exact parseButton_typed footer h ht type

/-- No cut of a button line starts behind its end. -/
theorem parseButton_ne_none (footer : Bool) (s : Text) :
    parseButton footer (buttonKey footer ++ s) ≠ none := by
  obtain ⟨label, tail, rfl, h, ht⟩ := exists_tail s
  rw [parseButton_tail footer h ht]
  exact Option.some_ne_none _

theorem startsWith_iff {s : Text} {p : String} : startsWith s p ↔ p.toList <+: s :=
  List.isPrefixOf_iff_prefix

/-- The cut behind a keyword is an exception for the bare keyword only. -/
theorem substrFrom_eq_none_iff {key s : Text} (h : key <+: s) :
    substrFrom s (key.length + 1) = none ↔ s = key := by
  obtain ⟨t, rfl⟩ := h
  cases t with
  | nil => simp [substrFrom]
  | cons c t => simp [substrFrom]

theorem parseAction_eq_none_iff {command : Text} : parseAction command = none ↔
    command = "prompt_begin".toList ∨ command = "prompt_text".toList := by
  constructor
  · intro h
    unfold parseAction at h
    split_ifs at h with hbegin htext hstart hend hfooter hbutton
    · rw [Option.map_eq_none_iff] at h
      exact Or.inl ((substrFrom_eq_none_iff (startsWith_iff.mp hbegin)).mp h)
    · rw [Option.map_eq_none_iff] at h
      exact Or.inr ((substrFrom_eq_none_iff (startsWith_iff.mp htext)).mp h)
    · obtain ⟨s, rfl⟩ := startsWith_iff.mp hfooter
      exact absurd h (parseButton_ne_none true s)
    · obtain ⟨s, rfl⟩ := startsWith_iff.mp hbutton
      exact absurd h (parseButton_ne_none false s)
  · rintro (rfl | rfl) <;> decide

namespace Panel

theorem setDisabled_status (p : Panel) (d : Bool) (b : Option ℕ) (h : p.status ≠ .aborted) :
    (p.setDisabled d b).status ≠ .aborted := by
  unfold setDisabled
  cases b with
  | none => exact h
  | some i =>
    dsimp only
    split_ifs
    · exact h
    · simp

theorem refreshFilamentButtons_status (p : Panel) (h : p.status ≠ .aborted) :
    p.refreshFilamentButtons.status ≠ .aborted := by
  have hload := p.setDisabled_status p.printing p.loadBtn h
  unfold refreshFilamentButtons
  dsimp only
  split_ifs
  · exact setDisabled_status _ _ _ hload
  · exact hload

theorem createButton_status (p : Panel) (footer : Bool) (label command type : Text)
    (h : p.status ≠ .aborted) : (p.createButton footer label command type).status ≠ .aborted := by
  rcases p.createButton_cases footer label command type with ⟨-, -, heq⟩ | ⟨-, t, r, q, -, heq⟩
  · rw [heq]
    simp
  · rw [heq, track_eq]
    exact h

/-- Performing an action throws no exception. -/
theorem perform_status (p : Panel) (a : Action) (h : p.status ≠ .aborted) :
    (p.perform a).status ≠ .aborted := by
  cases a with
  | button footer label command type => exact p.createButton_status footer label command type h
  | «show» =>
    have hrefresh := p.refreshFilamentButtons_status h
    dsimp only [perform]
    split_ifs <;> exact hrefresh
  | _ => exact h

theorem handleMacroResponse_status_iff {p : Panel} (h : p.status ≠ .aborted) (resp : Text) :
    (p.handleMacroResponse resp).status = .aborted ↔
      ∃ command, actionCommand resp = some command ∧ parseAction command = none := by
  unfold handleMacroResponse
  cases hc : actionCommand resp with
  | none =>
    dsimp only
    exact iff_of_false h (by simp)
  | some command =>
    dsimp only
    cases ha : parseAction command with
    | none =>
      dsimp only
      exact iff_of_true rfl ⟨command, rfl, ha⟩
    | some a =>
      dsimp only
      refine iff_of_false (p.perform_status a h) ?_
      rintro ⟨c, hcommand, hnone⟩
      rw [← Option.some.inj hcommand, ha] at hnone
      cases hnone

theorem actionCommand_eq_some_iff {resp command : Text} :
    actionCommand resp = some command ↔ resp = "// action:".toList ++ command := by
  unfold actionCommand
  constructor
  · intro h
    split_ifs at h with hstart
    obtain ⟨t, rfl⟩ := startsWith_iff.mp hstart
    rw [← Option.some.inj h]
    rfl
  · rintro rfl
    rw [if_pos (startsWith_iff.mpr (List.prefix_append _ _))]
    rfl

/-- Whatever the panel shows, a response ends in no exception exactly when it is not one
of two keywords with nothing behind it. -/
theorem response_throws_nothing_iff (p : Panel) (resp : Text) (h : p.status = .running) :
    (p.step (.response resp)).status ≠ .aborted ↔
      resp ≠ "// action:prompt_begin".toList ∧ resp ≠ "// action:prompt_text".toList := by
  have hstatus : p.status ≠ .aborted := by simp [h]
  rw [step_response h, ne_eq, handleMacroResponse_status_iff hstatus, ← not_or, not_iff_not]
  simp only [actionCommand_eq_some_iff, parseAction_eq_none_iff]
  constructor
  · rintro ⟨command, rfl, rfl | rfl⟩
    · exact Or.inl rfl
    · exact Or.inr rfl
  · rintro (rfl | rfl)
    · exact ⟨"prompt_begin".toList, rfl, Or.inl rfl⟩
    · exact ⟨"prompt_text".toList, rfl, Or.inr rfl⟩

/-- A button line without a label is harmless. -/
theorem response_throws_nothing_button :
    (start ⟨[], by decide⟩ none).status = .running ∧
      ((start ⟨[], by decide⟩ none).step
        (.response "// action:prompt_button".toList)).status ≠ .aborted :=
  ⟨rfl, (response_throws_nothing_iff _ _ rfl).mpr ⟨by decide, by decide⟩⟩

/-- A prompt that begins without a header. -/
theorem bare_begin_throws :
    ¬ ((start ⟨[], by decide⟩ none).step
      (.response "// action:prompt_begin".toList)).status ≠ .aborted := by
  decide

end Panel
end PowerScreen.Prompt
