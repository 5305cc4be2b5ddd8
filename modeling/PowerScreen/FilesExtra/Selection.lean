import PowerScreen.FilesExtra.View
import PowerScreen.Library.Run

/-! # The item that was tapped

A reply that moves the selected item, one between a tap and its handling that moves the tapped
item, and the answer to a deletion that comes after another choice leave the selection at another
item.
-/
namespace PowerScreen.FilesExtra
open Library Library.Run

variable (sort : List Video → List Video)

/-- The view, the taps that are not handled yet, with the items that the rows showed, and the item
of the tap handled last. -/
structure Session where
  view : View
  pending : List (ℕ × Key)
  chosen : Option Key

def Session.start : Session := ⟨View.new, [], none⟩

inductive Event where
  | show (mode : Mode)
  | hide
  | tap (row : ℕ)
  /-- A tap that waits is handled. -/
  | handle (n : ℕ)
  | jobsReply (j : Json)
  | videosReply (j : Json)
  | deleteReply (path : String) (j : Json)

/-- A video that is deleted is no longer chosen. -/
def afterDelete (path : String) (j : Json) (chosen : Option Key) : Option Key :=
  if !j.contains "error" ∧ chosen = some (.video path) then none else chosen

def step (s : Session) : Event → Session
  | .show mode => { s with view := s.view.show mode, chosen := none }
  | .hide => { s with view := s.view.hide }
  | .tap row =>
    if s.view.shown then
      { s with pending := s.pending ++ (s.view.rows[row]?.map fun k => (row, k)).toList }
    else s
  | .handle n =>
    match s.pending[n]? with
    | none => s
    | some tap =>
      { view := s.view.handleRow tap.1, pending := s.pending.eraseIdx n, chosen := some tap.2 }
  | .jobsReply j => { s with view := s.view.handleJobs j }
  | .videosReply j => { s with view := s.view.handleVideos sort j }
  | .deleteReply path j =>
    { s with view := s.view.handleDeleted, chosen := afterDelete path j s.chosen }

/-- While the view is shown, an item that was chosen and is in the list is the selected one, and
all actions are on it. -/
structure Follows (s : Session) : Prop where
  selected : s.view.shown → ∀ k, s.chosen = some k → k ∈ s.view.keys → s.view.selectedKey = some k
  acts : s.view.shown → ∀ k, s.chosen = some k → k ∈ s.view.keys →
    ∀ printing button a l, s.view.handleAction printing button = some a → a.target = some l → l = k

/-- A reply has the chosen item where the selection is, a tap is handled while its item is where it
was tapped, and a deletion ends while the deleted item is chosen; each where the item is in the
list at all. -/
def Kept (s : Session) : Event → Prop
  | .jobsReply j => s.view.shown → s.view.mode = .history → ∀ k, s.chosen = some k →
      k ∈ (readJobs j).1.map HistoryJob.key →
        keyAt ((readJobs j).1.map HistoryJob.key) s.view.selected = some k
  | .videosReply j => s.view.shown → s.view.mode = .timelapse → ∀ k, s.chosen = some k →
      k ∈ (readVideos sort j).1.map Video.key →
        keyAt ((readVideos sort j).1.map Video.key) s.view.selected = some k
  | .handle n => s.view.shown → ∀ i k, s.pending[n]? = some (i, k) → k ∈ s.view.keys →
      s.view.keys[i]? = some k
  | .deleteReply path j => s.view.shown → ∀ k, s.chosen = some k → k ∈ s.view.keys →
      !j.contains "error" ∧ k = .video path
  | _ => True

/-- The actions follow the selection. -/
theorem follows_iff (s : Session) : Follows s ↔ (s.view.shown → ∀ k, s.chosen = some k →
    k ∈ s.view.keys → s.view.selectedKey = some k) := by
  refine ⟨Follows.selected, fun h => ⟨h, ?_⟩⟩
  intro hshown k hchosen hk printing button a l ha hl
  exact Option.some_inj.mp ((target_handleAction ha hl).symm.trans (h hshown k hchosen hk))

@[simp] theorem shown_handleJobs (j : Json) (v : View) : (v.handleJobs j).shown = v.shown := by
  rw [View.handleJobs]
  split_ifs <;> rfl

@[simp] theorem selected_handleJobs (j : Json) (v : View) :
    (v.handleJobs j).selected = v.selected := by
  rw [View.handleJobs]
  split_ifs <;> rfl

theorem keys_handleJobs (j : Json) (v : View) : (v.handleJobs j).keys =
    if v.mode = .history then (readJobs j).1.map HistoryJob.key else v.keys := by
  have hkeys : (v.handleJobs j).keys = { v with jobs := (readJobs j).1 }.keys := by
    rw [View.handleJobs]
    split_ifs <;> rfl
  rw [hkeys, View.keys, View.keys]
  cases v.mode <;> rfl

@[simp] theorem shown_handleVideos (j : Json) (v : View) :
    (v.handleVideos sort j).shown = v.shown := by
  rw [View.handleVideos]
  split_ifs <;> rfl

@[simp] theorem selected_handleVideos (j : Json) (v : View) :
    (v.handleVideos sort j).selected = v.selected := by
  rw [View.handleVideos]
  split_ifs <;> rfl

theorem keys_handleVideos (j : Json) (v : View) : (v.handleVideos sort j).keys =
    if v.mode = .timelapse then (readVideos sort j).1.map Video.key else v.keys := by
  have hkeys : (v.handleVideos sort j).keys = { v with videos := (readVideos sort j).1 }.keys := by
    rw [View.handleVideos]
    split_ifs <;> rfl
  rw [hkeys, View.keys, View.keys]
  cases v.mode <;> rfl

theorem follows_jobsReply_iff {s : Session} (h : Follows s) (j : Json) :
    Follows (step sort s (.jobsReply j)) ↔ Kept sort s (.jobsReply j) := by
  rw [follows_iff, Kept]
  simp only [step, shown_handleJobs, View.selectedKey, selected_handleJobs, keys_handleJobs]
  refine imp_congr_right fun hshown => ?_
  by_cases hmode : s.view.mode = .history
  · simp only [hmode, if_true, true_imp_iff]
  · simp only [hmode, if_false, false_imp_iff, iff_true]
    exact h.selected hshown

theorem follows_videosReply_iff {s : Session} (h : Follows s) (j : Json) :
    Follows (step sort s (.videosReply j)) ↔ Kept sort s (.videosReply j) := by
  rw [follows_iff, Kept]
  simp only [step, shown_handleVideos, View.selectedKey, selected_handleVideos, keys_handleVideos]
  refine imp_congr_right fun hshown => ?_
  by_cases hmode : s.view.mode = .timelapse
  · simp only [hmode, if_true, true_imp_iff]
  · simp only [hmode, if_false, false_imp_iff, iff_true]
    exact h.selected hshown

theorem follows_handle_iff {s : Session} (h : Follows s) (n : ℕ) :
    Follows (step sort s (.handle n)) ↔ Kept sort s (.handle n) := by
  rw [Kept]
  cases hn : s.pending[n]? with
  | none =>
    have hsame : step sort s (.handle n) = s := by rw [step, hn]
    rw [hsame]
    refine iff_of_true h fun _ i k hk => ?_
    cases hk
  | some tap =>
    have hstep : step sort s (.handle n) =
        { view := s.view.handleRow tap.1, pending := s.pending.eraseIdx n, chosen := some tap.2 } := by
      rw [step, hn]
    have hselected : (s.view.handleRow tap.1).selectedKey = s.view.keys[tap.1]? := by
      have hkeys : (s.view.handleRow tap.1).keys = s.view.keys := rfl
      rw [View.selectedKey, hkeys, keyAt]
      exact if_pos (Int.natCast_nonneg tap.1)
    rw [follows_iff, hstep]
    refine imp_congr_right fun hshown => ?_
    constructor
    · intro hall i k htap hk
      cases htap
      exact hselected.symm.trans (hall k rfl hk)
    · intro hall k hchosen hk
      cases hchosen
      exact hselected.trans (hall tap.1 tap.2 rfl hk)

theorem follows_deleteReply_iff (s : Session) (path : String) (j : Json) :
    Follows (step sort s (.deleteReply path j)) ↔ Kept sort s (.deleteReply path j) := by
  have hnone : s.view.handleDeleted.selectedKey = none := rfl
  rw [follows_iff, Kept]
  simp only [step, hnone]
  refine imp_congr_right fun hshown => forall_congr' fun k => ?_
  rw [afterDelete]
  constructor
  · intro hall hchosen hk
    by_cases hdeleted : !j.contains "error" ∧ s.chosen = some (.video path)
    · exact ⟨hdeleted.1, Option.some_inj.mp (hchosen.symm.trans hdeleted.2)⟩
    · rw [if_neg hdeleted] at hall
      cases hall hchosen hk
  · intro hall hchosen hk
    split_ifs at hchosen with hdeleted
    obtain ⟨hok, rfl⟩ := hall hchosen hk
    exact absurd ⟨hok, hchosen⟩ hdeleted

theorem follows_step_iff {s : Session} (e : Event) (h : Follows s) :
    Follows (step sort s e) ↔ Kept sort s e := by
  cases e with
  | «show» mode =>
    refine iff_of_true ((follows_iff _).mpr fun _ k hchosen => ?_) trivial
    cases hchosen
  | hide =>
    refine iff_of_true ((follows_iff _).mpr fun hshown => ?_) trivial
    cases hshown
  | tap row =>
    refine iff_of_true ?_ trivial
    rw [step]
    split_ifs
    · exact ⟨h.selected, h.acts⟩
    · exact h
  | handle n => exact follows_handle_iff sort h n
  | jobsReply j => exact follows_jobsReply_iff sort h j
  | videosReply j => exact follows_videosReply_iff sort h j
  | deleteReply path j => exact follows_deleteReply_iff sort s path j

/-- For every sequence of taps, their handling and replies. -/
theorem follows_throughout_iff (es : List Event) :
    Throughout (step sort) Follows Session.start es ↔
      EachStep (step sort) (Kept sort) Session.start es := by
  refine throughout_iff_eachStep (fun s e h => follows_step_iff sort e h) ?_ es
  refine (follows_iff _).mpr fun hshown => ?_
  cases hshown

def jobsOf (names : List String) : Json :=
  .obj [("result", .obj [("jobs", .arr (names.map fun name => .obj [("filename", .str name)]))])]

/-- A print that ends puts itself before the selected one. -/
theorem new_job_takes_selection : ¬ Follows (run (step id) Session.start
    [.show .history, .jobsReply (jobsOf ["a"]), .tap 0, .handle 0, .jobsReply (jobsOf ["b", "a"])]) := by
  intro h
  exact absurd (h.selected rfl (.job "a" 0) (by decide) (by decide)) (by decide)

end PowerScreen.FilesExtra
