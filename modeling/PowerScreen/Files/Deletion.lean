import PowerScreen.Files.Screen
import PowerScreen.Files.SortOrder

/-! # What is deleted

The target of a deletion is a pointer into the tree that the menu, the trash button, the
dialog and the replies share. As long as the dialog is shown it points to the file that the
dialog names, and every listing clears it.
-/
namespace PowerScreen.Files
open Library Library.Run

/-- A pointer to a file of the tree. -/
def IsFileOf (t : Tree) (q : List String) : Prop := ∃ n, t.get? q = some n ∧ n.isLeaf

namespace Browser

variable {sort : StdSort}

theorem isDir_nodeAt {b : Browser} (htree : ∃ l, b.root = Listing.tree l) {dir : List String}
    (hdir : (b.root.get? dir).isSome) : IsDir (b.nodeAt dir) := by
  obtain ⟨l, hl⟩ := htree
  obtain ⟨files, -, hbuild⟩ := Listing.tree_eq_build l
  have hget := get?_nodeAt hdir
  rw [hl, hbuild] at hget
  exact isDir_of_build hget

theorem isFileOf_child {b : Browser} {dir : List String} (hdir : (b.root.get? dir).isSome)
    {x : Tree} (hx : (b.nodeAt dir).children.lookup x.data.name = some x) (hleaf : x.isLeaf) :
    IsFileOf b.root (dir ++ [x.data.name]) := by
  refine ⟨x, ?_, hleaf⟩
  rw [KeyTree.get?_append, get?_nodeAt hdir, Option.bind_some, KeyTree.get?, hx]
  rfl

/-- The file that a listing selects. -/
theorem curFile_showDir (hsort : Sorts sort) {b : Browser} (htree : ∃ l, b.root = Listing.tree l)
    {dir : List String} (hdir : (b.root.get? dir).isSome) (sortType : ℕ) :
    (∀ q, (b.showDir sort dir sortType).curFile = some q → IsFileOf b.root q) ∧
      ((b.showDir sort dir sortType).curFile = none ↔
        b.usbMissing ∨ ∀ x ∈ (b.nodeAt dir).children.map Prod.snd, x.isLeaf = false) := by
  have hnode := isDir_nodeAt htree hdir
  by_cases hm : b.usbMissing
  · have hshows : b.Shows dir sortType (b.showDir sort dir sortType) :=
      showDir_missing dir sortType hm
    rw [Shows, if_pos hm] at hshows
    simp [hshows.2.1, hm]
  · rw [Bool.not_eq_true] at hm
    cases he : (b.nodeAt dir).children.isEmpty with
    | true =>
      obtain ⟨-, hfile, -⟩ := showDir_empty sort sortType hm he
      simp [hfile, List.isEmpty_iff.mp he]
    | false =>
      obtain ⟨-, hfile, -⟩ := showDir_eq sort sortType hm he
      rw [hfile, firstFile_eq hsort sortType hnode, hm]
      constructor
      · intro q hq
        obtain ⟨x, hx, rfl⟩ := Option.map_eq_some_iff.mp hq
        have hmem := (mem_sorted_iff hsort b dir sortType x).mp (List.mem_of_find?_eq_some hx)
        exact isFileOf_child hdir (hnode.lookup hmem) (List.find?_some hx)
      · simp only [Option.map_eq_none_iff, List.find?_eq_none, Bool.false_eq_true, false_or,
          Bool.not_eq_true, mem_sorted_iff hsort b dir sortType]

end Browser

namespace Deletion

/-- The target is a file of the tree, and the dialog is about it. -/
structure Sound (b : Browser) (d : Deletion) : Prop where
  target : ∀ q, d.target = some q → IsFileOf b.root q
  dialog : d.confirmShown → d.target = some d.about ∧
    d.confirmText = question (b.nodeAt d.about).data.name
  one : d.contextShown → d.confirmShown = false

variable {b : Browser} {d : Deletion}

theorem Sound.congr {c : Browser} (h : d.Sound b) (hroot : c.root = b.root) : d.Sound c := by
  refine ⟨fun q hq => hroot ▸ h.target q hq, fun hshown => ?_, h.one⟩
  rw [Browser.nodeAt_congr hroot]
  exact h.dialog hshown

/-- Without a target the dialog is not open. -/
theorem sound_closed (b : Browser) (d : Deletion) (htarget : d.target = none)
    (hshown : d.confirmShown = false) : d.Sound b := by
  refine ⟨fun q hq => ?_, fun h => ?_, fun _ => hshown⟩
  · rw [htarget] at hq
    cases hq
  · rw [hshown] at h
    cases h

theorem sound_showContext {q : List String} (hq : IsFileOf b.root q) (d : Deletion) :
    (d.showContext q).Sound b :=
  ⟨fun _ hp => Option.some.inj hp ▸ hq, fun h => (nomatch h), fun _ => rfl⟩

theorem showConfirmation_eq {q : List String} (h : d.target = some q) :
    d.showConfirmation b = { d with
      confirmText := question (b.nodeAt q).data.name
      about := q
      contextShown := false
      confirmShown := true
      acceptEnabled := true } := by
  rw [showConfirmation, h]

/-- The dialog opens for the target. -/
theorem sound_showConfirmation (htarget : ∀ q, d.target = some q → IsFileOf b.root q)
    (hclosed : d.target = none → d.confirmShown = false) : (d.showConfirmation b).Sound b := by
  cases hq : d.target with
  | none =>
    have heq : d.showConfirmation b = d := by rw [showConfirmation, hq]
    rw [heq]
    exact sound_closed b d hq (hclosed hq)
  | some q =>
    rw [showConfirmation_eq hq]
    exact ⟨htarget, fun _ => ⟨hq, rfl⟩, fun h => (nomatch h)⟩

theorem accept_eq {q : List String} (h : d.target = some q) :
    d.accept b = { d with
      acceptEnabled := false
      pending := d.pending + 1
      sent := d.sent ++ ["gcodes/" ++ (b.nodeAt q).data.fullPath] } := by
  rw [Deletion.accept, h]

theorem Sound.accept (h : d.Sound b) : (d.accept b).Sound b := by
  cases hq : d.target with
  | none =>
    have heq : d.accept b = { d with confirmShown := false } := by rw [Deletion.accept, hq]
    rw [heq]
    exact sound_closed b _ hq rfl
  | some q =>
    rw [accept_eq hq]
    exact ⟨h.target, h.dialog, h.one⟩

theorem Sound.answered (h : d.Sound b) (ok : Bool) : (d.answered ok).Sound b := by
  cases ok with
  | true => exact sound_closed b _ rfl rfl
  | false => exact ⟨h.target, h.dialog, h.one⟩

end Deletion

namespace Screen

variable {sort : StdSort}

structure Sound (s : Screen) : Prop where
  browser : s.browser.Valid
  file : ∀ q, s.browser.curFile = some q → IsFileOf s.browser.root q
  deletion : s.deletion.Sound s.browser

theorem sound_start : Sound {} :=
  ⟨Browser.valid_start, fun _ h => (nomatch h), Deletion.sound_closed _ _ rfl rfl⟩

/-- The card of a long press or a tap stands for a file. -/
theorem Sound.isFileOf_card {s : Screen} (h : s.Sound) {i : ℕ} {n : List String}
    (hn : s.browser.cards[i]?.bind Card.node = some n) (hleaf : (s.browser.nodeAt n).isLeaf) :
    IsFileOf s.browser.root n := by
  obtain ⟨c, hc, hn⟩ := Option.bind_eq_some_iff.mp hn
  obtain ⟨m, hm, hsome⟩ := h.browser.cards c (List.mem_of_getElem? hc)
  rw [hn] at hm
  cases hm
  exact ⟨_, Browser.get?_nodeAt hsome, hleaf⟩

theorem Sound.browse (hsort : Sorts sort) {s : Screen} (h : s.Sound) (e : Files.Event) :
    (s.browse sort e).Sound := by
  have hvalid : (s.browser.step sort e).Valid := Browser.valid_step s.browser e h.browser
  unfold Screen.browse
  cases hl : s.browser.lists e with
  | true =>
    obtain ⟨⟨sortType, hstep⟩, htree, hdir⟩ := Browser.step_of_lists sort h.browser hl
    refine ⟨hvalid, fun q hq => ?_, Deletion.sound_closed _ _ rfl rfl⟩
    change (s.browser.step sort e).curFile = some q at hq
    change IsFileOf (s.browser.step sort e).root q
    rw [hstep] at hq ⊢
    rw [(Browser.showDir_frame sort _ _ sortType).1]
    exact (Browser.curFile_showDir hsort htree hdir sortType).1 q hq
  | false =>
    obtain ⟨hroot, -, hfile⟩ := Browser.step_of_not_lists sort hl
    refine ⟨hvalid, fun q hq => ?_, h.deletion.congr hroot⟩
    change (s.browser.step sort e).curFile = some q at hq
    change IsFileOf (s.browser.step sort e).root q
    rw [hfile] at hq
    rw [hroot]
    cases htap : s.browser.tapped e with
    | none =>
      rw [htap] at hq
      exact h.file q hq
    | some n =>
      rw [htap] at hq
      cases hq
      cases e with
      | tap i =>
        obtain ⟨hn, hleaf⟩ := Option.filter_eq_some_iff.mp htap
        exact h.isFileOf_card hn hleaf
      | _ => cases htap

theorem sound_step (hsort : Sorts sort) {s : Screen} (h : s.Sound) (e : Event) :
    (s.step sort e).Sound := by
  cases e with
  | browse e => exact h.browse hsort e
  | longPress i =>
    simp only [step]
    cases hn : s.browser.cards[i]?.bind Card.node with
    | none => exact h
    | some n =>
      dsimp only
      split_ifs with hleaf
      · exact ⟨h.browser, h.file, Deletion.sound_showContext (h.isFileOf_card hn hleaf) _⟩
      · exact h
  | menu =>
    simp only [step]
    split_ifs with hshown
    · exact ⟨h.browser, h.file,
        Deletion.sound_showConfirmation h.deletion.target fun _ => h.deletion.one hshown⟩
    · exact h
  | outside =>
    simp only [step]
    split_ifs with hshown
    · exact ⟨h.browser, h.file, Deletion.sound_closed _ _ rfl (h.deletion.one hshown)⟩
    · exact h
  | trash =>
    simp only [step]
    cases hq : s.browser.curFile with
    | none => exact h
    | some q =>
      have hdialog : (({ s.deletion with target := some q } : Deletion).showConfirmation
          s.browser).Sound s.browser :=
        Deletion.sound_showConfirmation (fun p hp => Option.some.inj hp ▸ h.file q hq)
          fun hnone => absurd hnone (Option.some_ne_none q)
      exact ⟨h.browser, h.file, hdialog⟩
  | cancel =>
    simp only [step]
    split_ifs
    · exact ⟨h.browser, h.file, Deletion.sound_closed _ _ rfl rfl⟩
    · exact h
  | accept =>
    simp only [step]
    split_ifs
    · exact ⟨h.browser, h.file, h.deletion.accept⟩
    · exact h
  | deleted ok =>
    simp only [step]
    split_ifs with hp hok
    · exact h
    · have hvalid : (s.browser.step sort .refresh).Valid := Browser.valid_step _ .refresh h.browser
      exact ⟨hvalid, h.file,
        (h.deletion.answered ok).congr rfl⟩
    · exact ⟨h.browser, h.file, h.deletion.answered ok⟩
  | extra =>
    refine ⟨h.browser, h.file, h.deletion.target, fun hshown => absurd hshown Bool.false_ne_true,
      fun _ => rfl⟩
  | metadata i j =>
    simp only [step]
    cases s.details.requests[i]? with
    | none => exact h
    | some r => exact ⟨h.browser, h.file, h.deletion⟩
  | print status =>
    simp only [step, handlePrint]
    cases s.browser.curFile with
    | none => exact h
    | some q =>
      dsimp only
      split_ifs
      all_goals exact ⟨h.browser, h.file, h.deletion⟩
  | promptCancel =>
    simp only [step]
    split_ifs
    · exact ⟨h.browser, h.file, h.deletion⟩
    · exact h

/-- A request to delete is sent by the accept button of the dialog, for the file of the tree
that the dialog was opened for and names. -/
def DeletesNamed (sort : StdSort) (s : Screen) (e : Event) : Prop :=
  (s.step sort e).deletion.sent = s.deletion.sent ∨
    e = .accept ∧ s.deletion.confirmShown ∧ ∃ n,
      s.browser.root.get? s.deletion.about = some n ∧ n.isLeaf ∧
        s.deletion.confirmText = Deletion.question n.data.name ∧
        (s.step sort e).deletion.sent =
          s.deletion.sent ++ ["gcodes/" ++ joinPath s.deletion.about]

/-- Only the accept button sends anything. -/
theorem sent_step (s : Screen) {e : Event} (he : e ≠ .accept) :
    (s.step sort e).deletion.sent = s.deletion.sent := by
  by_cases hbrowse : ∃ f, e = .browse f
  · obtain ⟨f, rfl⟩ := hbrowse
    simp only [step, browse]
    split_ifs <;> rfl
  · push Not at hbrowse
    exact (framed_step sort s hbrowse).sent he

theorem deletesNamed_of_sound {s : Screen} (h : s.Sound) (e : Event) : s.DeletesNamed sort e := by
  by_cases he : e = .accept
  · subst he
    by_cases hready : s.deletion.confirmShown && s.deletion.acceptEnabled
    · have hshown : s.deletion.confirmShown := (Bool.and_eq_true_iff.mp hready).1
      obtain ⟨htarget, htext⟩ := h.deletion.dialog hshown
      obtain ⟨n, hn, hleaf⟩ := h.deletion.target _ htarget
      have hnode : s.browser.nodeAt s.deletion.about = n := by rw [Browser.nodeAt, hn]; rfl
      obtain ⟨l, hl⟩ := h.browser.tree
      obtain ⟨files, hpaths, hbuild⟩ := Listing.tree_eq_build l
      have hpath : n.data.fullPath = joinPath s.deletion.about :=
        fullPath_of_get? hpaths (by rw [← hbuild, ← hl, hn])
      refine Or.inr ⟨rfl, hshown, n, hn, hleaf, hnode ▸ htext, ?_⟩
      simp only [step]
      rw [if_pos hready, Deletion.accept_eq htarget, hnode, hpath]
    · exact Or.inl (by simp only [step]; rw [if_neg hready])
  · exact Or.inl (sent_step s he)

/-- In every run a file is deleted only when the dialog that is shown names it. -/
theorem deletes_named (sort : StdSort) (hsort : Sorts sort) (es : List Event) :
    EachStep (step sort) (DeletesNamed sort) {} es :=
  (eachStep_of_invariant (I := Sound) (fun _ e h => sound_step hsort h e) sound_start es).mono
    fun _ e h => deletesNamed_of_sound h e

/-- A file in the root. -/
def oneFile : Listing where
  files := [⟨"cube.gcode", 1⟩]
  paths := by
    rw [List.forall_mem_singleton]
    exact ⟨["cube.gcode"], by decide, by simp [IsName], rfl⟩

theorem deletes_named_cube : Sorts insertionSort ∧
    EachStep (step insertionSort) (DeletesNamed insertionSort) {}
      [.browse .refresh, .browse (.reply (some oneFile)), .longPress 0, .menu, .accept] :=
  ⟨sorts_insertionSort, deletes_named insertionSort sorts_insertionSort _⟩

end Screen

end PowerScreen.Files
