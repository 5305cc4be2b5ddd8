import PowerScreen.Files.Deletion

/-! # The prompt of a running print

The print button opens the prompt only for a selected file, and the cancel button needs one
as well. A listing may take the selection away while the prompt is shown.
-/
namespace PowerScreen.Files
open Library Library.Run

/-- There is a file in the folder that is listed. -/
def Browser.ListsFile (b : Browser) : Prop :=
  b.usbMissing = false ∧ ∃ x ∈ (b.nodeAt b.curDir).children.map Prod.snd, x.isLeaf

namespace Screen

variable (sort : StdSort)

/-- The cancel button takes the prompt down. -/
def Dismissable (s : Screen) : Prop :=
  s.promptShown → (s.step sort .promptCancel).promptShown = false

/-- A listing under the prompt finds a file. -/
def KeepsFile (s : Screen) : Event → Prop
  | .browse e => s.browser.lists e → s.promptShown → (s.browser.opened e).ListsFile
  | _ => True

variable {sort}

theorem dismissable_iff (s : Screen) :
    s.Dismissable sort ↔ (s.promptShown → s.browser.curFile ≠ none) := by
  refine imp_congr_right fun hshown => ?_
  simp only [step, hshown, Bool.true_and, Option.isSome_iff_ne_none]
  by_cases hfile : s.browser.curFile = none
  · simp [hfile, hshown]
  · simp [hfile]

theorem curFile_of_lists (hsort : Sorts sort) {b : Browser} (h : b.Valid) {e : Files.Event}
    (hl : b.lists e) : (b.step sort e).curFile ≠ none ↔ (b.opened e).ListsFile := by
  obtain ⟨⟨sortType, hstep⟩, htree, hdir⟩ := Browser.step_of_lists sort h hl
  rw [hstep, Ne, (Browser.curFile_showDir hsort htree hdir sortType).2, Browser.ListsFile]
  push Not
  simp only [Bool.not_eq_true, Bool.not_eq_false]

/-- A file stays selected unless the folder is listed. -/
theorem curFile_of_not_lists {b : Browser} {e : Files.Event} (hl : b.lists e = false)
    (h : b.curFile ≠ none) : (b.step sort e).curFile ≠ none := by
  rw [(Browser.step_of_not_lists sort hl).2.2]
  cases b.tapped e with
  | none => exact h
  | some n => exact Option.some_ne_none n

theorem promptShown_browse (s : Screen) (e : Files.Event) :
    (s.step sort (.browse e)).promptShown = s.promptShown := by
  simp only [step, browse]
  split_ifs <;> rfl

theorem browser_browse (s : Screen) (e : Files.Event) :
    (s.step sort (.browse e)).browser = s.browser.step sort e := by
  simp only [step, browse]
  split_ifs <;> rfl

theorem dismissable_step (hsort : Sorts sort) {s : Screen} (hs : s.Sound) {e : Event}
    (h : s.Dismissable sort) : (s.step sort e).Dismissable sort ↔ s.KeepsFile e := by
  rw [dismissable_iff] at h ⊢
  by_cases hbrowse : ∃ f, e = .browse f
  · obtain ⟨f, rfl⟩ := hbrowse
    rw [promptShown_browse, browser_browse, KeepsFile]
    cases hl : s.browser.lists f with
    | true => rw [curFile_of_lists hsort hs.browser hl, imp_iff_right rfl]
    | false =>
      exact iff_of_true (fun hshown => curFile_of_not_lists hl (h hshown)) fun hlists =>
        absurd hlists Bool.false_ne_true
  push Not at hbrowse
  have hkeeps : s.KeepsFile e := by
    cases e with
    | browse f => exact absurd rfl (hbrowse f)
    | _ => trivial
  have hframed := framed_step sort s hbrowse
  refine iff_of_true (fun hshown => ?_) hkeeps
  have hfile : s.browser.curFile ≠ none := (hframed.prompt hshown).elim h id
  rcases hframed.browser with heq | heq
  · rwa [heq]
  · rw [heq]
    exact curFile_of_not_lists rfl hfile

/-- In a run the prompt can always be cancelled exactly if every listing that comes while it
is shown finds a file in the folder. -/
theorem always_dismissable_iff (sort : StdSort) (hsort : Sorts sort) (es : List Event) :
    Throughout (step sort) (Dismissable sort) {} es ↔ EachStep (step sort) KeepsFile {} es := by
  have hsound : EachStep (step sort) (fun s _ => s.Sound) {} es :=
    eachStep_of_invariant (I := Sound) (fun _ e h => sound_step hsort h e) sound_start es
  have hstart : Dismissable sort {} := fun hshown => absurd hshown Bool.false_ne_true
  exact throughout_iff_eachStep_of (fun _ _ hs h => dismissable_step hsort hs h) hstart hsound

/-- A print is running when the file is picked, and then the folder is emptied. -/
def emptied : List Event :=
  [.browse .refresh, .browse (.reply (some oneFile)), .print (some "printing"), .browse .refresh,
    .browse (.reply none)]

theorem always_dismissable_emptied : Sorts insertionSort ∧
    (Throughout (step insertionSort) (Dismissable insertionSort) {} emptied ↔
      EachStep (step insertionSort) KeepsFile {} emptied) :=
  ⟨sorts_insertionSort, always_dismissable_iff insertionSort sorts_insertionSort emptied⟩

instance (s : Screen) : Decidable (s.Dismissable sort) := inferInstanceAs (Decidable (_ → _))

theorem prompt_stays : ¬ ∀ es : List Event,
    Throughout (step insertionSort) (Dismissable insertionSort) {} es := by
  intro h
  have hrun := throughout_iff_prefix.mp (h emptied) _ List.prefix_rfl
  revert hrun
  decide

end Screen

end PowerScreen.Files
