import PowerScreen.Files.Deletion

/-! # The file in the detail card

The selected file is shown once its metadata is there. A request for it may fail, and where
no file is selected nothing takes the old one down.
-/
namespace PowerScreen.Files
open Library Library.Run

namespace Screen

variable (sort : StdSort)

def selectedPath (b : Browser) : Option String :=
  b.curFile.map fun q => (b.nodeAt q).data.fullPath

/-- With no request outstanding the detail card shows the file that would be printed. -/
def ShowsSelected (s : Screen) : Prop :=
  s.details.requests = [] → s.details.shown.map Prod.fst = selectedPath s.browser

/-- A listing that asks for nothing selects a file with a card, or what is shown fits. -/
def ListingShows (s : Screen) (e : Files.Event) : Prop :=
  let b := s.browser.step sort e
  s.details.requests = [] → (s.detailsBefore e).wanted b = [] →
    (∃ q, b.curFile = some q ∧ b.hasCard q ∧ (b.nodeAt q).isLeaf) ∨
      s.details.shown.map Prod.fst = selectedPath b

/-- The metadata that the detail card asked for, of the file that is selected. -/
def Answers (b : Browser) (r : Request) (j : Json) : Prop :=
  r.detail ∧ j.contains "result" ∧ b.curFile ≠ none ∧ Details.cardOf b r.path = b.curFile

/-- The last reply has the metadata of the selected file, or what is shown fits. -/
def ReplyShows (s : Screen) (i : ℕ) (j : Json) : Prop :=
  ∀ r, s.details.requests[i]? = some r → s.details.requests.eraseIdx i = [] →
    Answers s.browser r j ∨ s.details.shown.map Prod.fst = selectedPath s.browser

def KeepsDetail (s : Screen) : Event → Prop
  | .browse e => s.browser.lists e → s.ListingShows sort e
  | .metadata i j => s.ReplyShows i j
  | _ => True

theorem shown_showFileDetail (b : Browser) (d : Details) {q : List String}
    (hleaf : (b.nodeAt q).isLeaf) (h : (d.showFileDetail b q).requests = []) :
    (d.showFileDetail b q).shown.map Prod.fst = some (b.nodeAt q).data.fullPath := by
  unfold Details.showFileDetail at h ⊢
  dsimp only at h ⊢
  rw [if_pos hleaf] at h ⊢
  cases hm : d.metadata q with
  | some j => rfl
  | none =>
    rw [hm] at h
    simp at h

theorem showFileDetail_of_folder (b : Browser) (d : Details) {q : List String}
    (hleaf : ¬ (b.nodeAt q).isLeaf) : d.showFileDetail b q = d := by
  unfold Details.showFileDetail
  dsimp only
  rw [if_neg hleaf]

variable {sort}

/-- Where a listing does not select a file with a card, the detail card stays. -/
theorem listed_shows_iff (b : Browser) (d : Details) :
    ((d.listed b).requests = [] → (d.listed b).shown.map Prod.fst = selectedPath b) ↔
      (d.requests = [] → d.wanted b = [] →
        (∃ q, b.curFile = some q ∧ b.hasCard q ∧ (b.nodeAt q).isLeaf) ∨
          d.shown.map Prod.fst = selectedPath b) := by
  by_cases hfile : ∃ q, b.curFile = some q ∧ b.hasCard q ∧ (b.nodeAt q).isLeaf
  · refine iff_of_true (fun h => ?_) fun _ _ => Or.inl hfile
    obtain ⟨q, hq, hcard, hleaf⟩ := hfile
    unfold Details.listed at h ⊢
    simp only [hq, hcard, if_true] at h ⊢
    rw [shown_showFileDetail b _ hleaf h, selectedPath, hq, Option.map_some]
  · have hlisted : d.listed b = { d with requests := d.requests ++ d.wanted b } := by
      unfold Details.listed
      cases hq : b.curFile with
      | none => rfl
      | some q =>
        dsimp only
        split_ifs with hcard
        · exact showFileDetail_of_folder b _ fun hleaf => hfile ⟨q, hq, hcard, hleaf⟩
        · rfl
    rw [hlisted]
    simp only [List.append_eq_nil_iff, hfile, false_or, and_imp]

theorem detailsBefore_frame (s : Screen) (e : Files.Event) :
    (s.detailsBefore e).requests = s.details.requests ∧
      (s.detailsBefore e).shown = s.details.shown := by
  cases e <;> exact ⟨rfl, rfl⟩

theorem selectedPath_congr {b c : Browser} (hroot : c.root = b.root)
    (hfile : c.curFile = b.curFile) : selectedPath c = selectedPath b := by
  rw [selectedPath, selectedPath, hfile]
  exact Option.map_congr fun q _ => by rw [Browser.nodeAt_congr hroot]

theorem shows_browse_iff {s : Screen} (h : s.ShowsSelected) (e : Files.Event) :
    (s.browse sort e).ShowsSelected ↔ (s.browser.lists e → s.ListingShows sort e) := by
  cases hl : s.browser.lists e with
  | true =>
    have hlisted := listed_shows_iff (s.browser.step sort e) (s.detailsBefore e)
    obtain ⟨hrequests, hshown⟩ := s.detailsBefore_frame e
    rw [hrequests, hshown] at hlisted
    have hbrowse : (s.browse sort e).ShowsSelected ↔
        (((s.detailsBefore e).listed (s.browser.step sort e)).requests = [] →
          ((s.detailsBefore e).listed (s.browser.step sort e)).shown.map Prod.fst =
            selectedPath (s.browser.step sort e)) := by
      rw [browse, if_pos hl]
      exact Iff.rfl
    rw [hbrowse, hlisted, imp_iff_right rfl]
    exact Iff.rfl
  | false =>
    refine iff_of_true ?_ (by simp)
    obtain ⟨hroot, -, hfile⟩ := Browser.step_of_not_lists sort hl
    rw [browse, if_neg (by simp [hl])]
    cases htap : s.browser.tapped e with
    | none =>
      rw [htap] at hfile
      exact fun hrequests => (h hrequests).trans (selectedPath_congr hroot hfile).symm
    | some n =>
      rw [htap] at hfile
      have hleaf : ((s.browser.step sort e).nodeAt n).isLeaf := by
        rw [Browser.nodeAt_congr hroot]
        cases e with
        | tap i => exact (Option.filter_eq_some_iff.mp htap).2
        | _ => cases htap
      intro hrequests
      have hpath : selectedPath (s.browser.step sort e) =
          some ((s.browser.step sort e).nodeAt n).data.fullPath := by
        rw [selectedPath, hfile]
        rfl
      exact (shown_showFileDetail _ _ hleaf hrequests).trans hpath.symm

theorem answered_of_answers {b : Browser} (d : Details) {r : Request} {j : Json}
    (h : Answers b r j) : (d.answered b r j).requests = d.requests ∧
      (d.answered b r j).shown.map Prod.fst = selectedPath b := by
  obtain ⟨hdetail, hresult, hfile, hcard⟩ := h
  obtain ⟨n, hn⟩ := Option.ne_none_iff_exists'.mp hfile
  unfold Details.answered
  rw [if_pos hresult, hcard, hn]
  simp [hdetail, hn, selectedPath]

theorem answered_of_not_answers {b : Browser} (d : Details) {r : Request} {j : Json}
    (h : ¬ Answers b r j) : (d.answered b r j).requests = d.requests ∧
      (d.answered b r j).shown = d.shown := by
  unfold Details.answered
  split_ifs with hresult
  · cases hcard : Details.cardOf b r.path with
    | none => exact ⟨rfl, rfl⟩
    | some n =>
      dsimp only
      split_ifs with hdetail
      · simp only [Bool.and_eq_true, decide_eq_true_eq] at hdetail
        exact absurd ⟨hdetail.1, hresult, by simp [hdetail.2], hcard.trans hdetail.2.symm⟩ h
      · exact ⟨rfl, rfl⟩
  · exact ⟨rfl, rfl⟩

/-- A reply that does not have the metadata of the selected file leaves the detail card. -/
theorem shows_metadata_iff {s : Screen} (h : s.ShowsSelected) (i : ℕ) (j : Json) :
    (s.step sort (.metadata i j)).ShowsSelected ↔ s.ReplyShows i j := by
  cases hr : s.details.requests[i]? with
  | none =>
    have hstep : s.step sort (.metadata i j) = s := by simp only [step, hr]
    rw [hstep, ReplyShows, hr]
    exact iff_of_true h fun r hr => absurd hr.symm (Option.some_ne_none r)
  | some r =>
    have hstep : s.step sort (.metadata i j) = { s with
        details := ({ s.details with
          requests := s.details.requests.eraseIdx i } : Details).answered s.browser r j } := by
      simp only [step, hr]
    rw [hstep, ReplyShows, hr, ShowsSelected]
    simp only [Option.some.injEq, forall_eq']
    by_cases hanswers : Answers s.browser r j
    · obtain ⟨-, hshown⟩ := answered_of_answers (b := s.browser)
        { s.details with requests := s.details.requests.eraseIdx i } hanswers
      exact iff_of_true (fun _ => hshown) fun _ => Or.inl hanswers
    · obtain ⟨hrequests, hshown⟩ := answered_of_not_answers (b := s.browser)
        { s.details with requests := s.details.requests.eraseIdx i } hanswers
      rw [hrequests, hshown]
      simp only [hanswers, false_or]

theorem shows_step_iff (s : Screen) (e : Event) (h : s.ShowsSelected) :
    (s.step sort e).ShowsSelected ↔ s.KeepsDetail sort e := by
  by_cases hbrowse : ∃ f, e = .browse f
  · obtain ⟨f, rfl⟩ := hbrowse
    exact shows_browse_iff h f
  by_cases hmetadata : ∃ i j, e = .metadata i j
  · obtain ⟨i, j, rfl⟩ := hmetadata
    exact shows_metadata_iff h i j
  push Not at hbrowse hmetadata
  have hkeeps : s.KeepsDetail sort e := by
    cases e with
    | browse f => exact absurd rfl (hbrowse f)
    | metadata i j => exact absurd rfl (hmetadata i j)
    | _ => trivial
  refine iff_of_true (fun hrequests => ?_) hkeeps
  rw [(framed_step sort s hbrowse).details hmetadata] at hrequests ⊢
  rw [h hrequests]
  rcases (framed_step sort s hbrowse).browser with heq | heq
  · rw [heq]
  · rw [heq]
    exact (selectedPath_congr rfl rfl).symm

/-- A reply with the print time. -/
def metadataOf (seconds : ℤ) : Json :=
  .obj [("result", .obj [("estimated_time", .num (.int seconds))])]

instance (s : Screen) : Decidable s.ShowsSelected :=
  inferInstanceAs (Decidable (_ → _))

end Screen

end PowerScreen.Files
