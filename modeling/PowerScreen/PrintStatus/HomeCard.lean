import PowerScreen.PrintStatus.Screen

/-! # The print card of the Home

The Home shows the temperature chart or a card with the print. The card is active while a
print runs; becoming active or inactive brings the card or the chart to the front, and the
user can switch between the two at any time.
-/
namespace PowerScreen.PrintStatus
open Library Library.Run

/-- The two states of a print that can be paused, resumed or stopped. -/
def isRunning (status : String) : Bool := status = "printing" || status = "paused"

def statusText (status : String) : String :=
  if status = "printing" then "Print in progress"
  else if status = "paused" then "Paused"
  else if status = "complete" then "Print complete"
  else if status = "cancelled" then "Print cancelled"
  else if status = "error" then "Print error"
  else "Ready"

/-- The material is told while the print runs. -/
def subtitleOf (status material : String) : String :=
  if material ≠ "" ∧ isRunning status then statusText status ++ " - " ++ material
  else statusText status

def badgeOf (status : String) : String :=
  if status = "printing" then "Printing"
  else if status = "paused" then "Paused"
  else if status = "complete" then "Complete"
  else if status = "cancelled" ∨ status = "error" then
    if status = "error" then "Error" else "Cancelled"
  else "Idle"

structure MiniPrintStatus where
  status : String := "n/a"
  active : Bool := false
  subtitle : String := "Ready"
  badge : String := "Idle"
  pauseDisabled : Bool := true
  stopDisabled : Bool := true
  pauseLabel : String := "Pause"

namespace MiniPrintStatus

def refreshSubtitle (material : String) (c : MiniPrintStatus) : MiniPrintStatus :=
  { c with subtitle := subtitleOf c.status material }

def updateStatus (material status : String) (c : MiniPrintStatus) : MiniPrintStatus :=
  { ({ c with status := status } : MiniPrintStatus).refreshSubtitle material with
    badge := badgeOf status
    pauseDisabled := !isRunning status
    stopDisabled := !isRunning status
    pauseLabel := if status = "paused" then "Resume" else "Pause" }

end MiniPrintStatus

structure Home where
  screen : Screen
  card : MiniPrintStatus := {}
  /-- The badge over the chart. -/
  chartBadge : String := "Idle"
  /-- The card is in front of the chart. -/
  printView : Bool := false
  /-- What the state callback was called with. -/
  calls : List Bool := []
  /-- The question of the Stop button is open. -/
  asking : Bool := false
  sent : List String := []

namespace Home

variable (A : Arith)

/-- The callback of the card brings one of the two views to the front. -/
def setActive (h : Home) (active : Bool) : Home :=
  if h.card.active = active then h
  else { h with card := { h.card with active := active }
                printView := active
                calls := h.calls ++ [active] }

def showCard (h : Home) : Home := h.setActive true

def hideCard (h : Home) : Home := h.setActive false

/-- The callback for the status sets the badge over the chart. -/
def updateStatus (h : Home) (status : String) : Home :=
  { h with card := h.card.updateStatus h.screen.panel.material status
           chartBadge := badgeOf status }

def updateMaterial (h : Home) : Home :=
  { h with card := h.card.refreshSubtitle h.screen.panel.material }

def resetCard (h : Home) : Home := h.updateStatus "n/a"

def populateCard (h : Home) : Option Home :=
  h.screen.panel.fileName.map fun name => name.elim h fun _ => h.showCard

/-- A new name, or a new connection. -/
def renamedCard (h : Home) (r : Report) : Option Home :=
  if renames r then h.resetCard.populateCard else some h

/-- The start of a connection hides a card without a state, and does not show one. -/
def initStatus (h : Home) : Option String → Home
  | none => h.hideCard
  | some status => (if isRunning status then h else h.hideCard).updateStatus status

def consumeStatus (h : Home) : Option String → Home
  | none => h
  | some status => (if isRunning status then h.showCard else h.hideCard).updateStatus status

/-- The state of the print a report tells; the first of a connection is read in the store. -/
def told (s : State) : Report → Option (Option String)
  | .subscribed .. => Json.optional Json.str? s.printState
  | .update st t => Json.optional Json.str? (valueOf (.update st t) "print_stats" "state")

def takeStatus (h : Home) : Report → Option String → Home
  | .subscribed .., status => h.initStatus status
  | .update .., status => h.consumeStatus status

/-- What a report does to the card, once the screen has taken it over. -/
def reportCard (h : Home) (r : Report) : Option Home := do
  let h ← h.renamedCard r
  return h.takeStatus r (← told h.screen.panel.state r)

inductive Event where
  | screen (e : Screen.Event)
  | viewToggle (print : Bool)
  | pause
  | stop
  /-- The question is answered. -/
  | answer (confirm : Bool)

/-- What the card sees of an event, once the screen has handled it. -/
def follow (h : Home) (waiting : List ℕ) : Screen.Event → Option Home
  | .report r => h.reportCard r
  | .metadata i j =>
    if i ∈ waiting ∧ ((readMetadata A j).bind (·.material)).isSome then some h.updateMaterial
    else some h
  | _ => some h

def crash (h : Home) : Home := { h with screen := { h.screen with running := false } }

def step (h : Home) (e : Event) : Home :=
  if h.screen.running then
    match e with
    | .screen e =>
      let h' : Home := { h with screen := h.screen.step A e }
      if h'.screen.running then (h'.follow A h.screen.panel.waiting e).getD h.crash else h'
    | .viewToggle print => { h with printView := print }
    | .pause =>
      if h.card.pauseDisabled then h
      else if h.card.status = "paused" then { h with sent := h.sent ++ ["printer.print.resume"] }
      else { h with sent := h.sent ++ ["printer.print.pause"] }
    | .stop => if h.card.stopDisabled then h else { h with asking := true }
    | .answer confirm =>
      if h.asking then
        { h with asking := false
                 sent := if confirm then h.sent ++ ["printer.print.cancel"] else h.sent }
      else h
  else h

/-- What the card shows is what its status calls for. -/
structure Shows (h : Home) : Prop where
  subtitle : h.card.subtitle = subtitleOf h.card.status h.screen.panel.material
  badge : h.card.badge = badgeOf h.card.status
  chartBadge : h.chartBadge = h.card.badge
  pauseDisabled : h.card.pauseDisabled = !isRunning h.card.status
  stopDisabled : h.card.stopDisabled = !isRunning h.card.status
  pauseLabel : h.card.pauseLabel = if h.card.status = "paused" then "Resume" else "Pause"

@[simp] theorem setActive_screen (h : Home) (b : Bool) : (h.setActive b).screen = h.screen := by
  unfold setActive; split_ifs <;> rfl

@[simp] theorem setActive_status (h : Home) (b : Bool) :
    (h.setActive b).card.status = h.card.status := by
  unfold setActive; split_ifs <;> rfl

@[simp] theorem setActive_active (h : Home) (b : Bool) : (h.setActive b).card.active = b := by
  unfold setActive; split_ifs with hb
  · exact hb
  · rfl

theorem Shows.setActive {h : Home} (hs : h.Shows) (b : Bool) : (h.setActive b).Shows := by
  unfold Home.setActive
  split_ifs
  · exact hs
  · exact ⟨hs.subtitle, hs.badge, hs.chartBadge, hs.pauseDisabled, hs.stopDisabled, hs.pauseLabel⟩

theorem shows_updateStatus (h : Home) (status : String) : (h.updateStatus status).Shows :=
  ⟨rfl, rfl, rfl, rfl, rfl, rfl⟩

/-- The status is the last one reported, if the state of the print has been reported since
the last new name and the last connection. -/
def Tracks (h : Home) : Prop :=
  h.card.status = "n/a" ∨ h.screen.panel.state.printState = .null ∨
    h.screen.panel.state.printState = .str h.card.status

/-- Only a print that runs, or one of which nothing has been told yet, keeps the card active. -/
def ActiveOnly (h : Home) : Prop :=
  h.card.active → isRunning h.card.status ∨ h.card.status = "n/a"

structure Good (h : Home) : Prop where
  shows : h.Shows
  tracks : h.Tracks
  activeOnly : h.ActiveOnly

/-- The card before the state of the print is looked at. -/
theorem renamedCard_spec {h h' : Home} {r : Report} (hr : h.renamedCard r = some h') :
    h'.screen = h.screen ∧ (renames r = false → h' = h) ∧
      (renames r = true → h'.card.status = "n/a" ∧ h'.Shows) := by
  unfold renamedCard at hr
  split_ifs at hr with hren
  · obtain ⟨name, -, rfl⟩ := Option.map_eq_some_iff.mp hr
    have hshows := shows_updateStatus h "n/a"
    cases name with
    | none => exact ⟨rfl, fun hn => by simp [hren] at hn, fun _ => ⟨rfl, hshows⟩⟩
    | some name =>
      exact ⟨setActive_screen _ _, fun hn => by simp [hren] at hn,
        fun _ => ⟨setActive_status _ _, hshows.setActive true⟩⟩
  · cases hr
    exact ⟨rfl, fun _ => rfl, fun hn => absurd hn (by simpa using hren)⟩

theorem initStatus_some (h : Home) (s : String) : h.initStatus (some s) =
    if isRunning s then h.updateStatus s else h.hideCard.updateStatus s := by
  unfold initStatus
  exact apply_ite (fun h : Home => h.updateStatus s) _ _ _

theorem consumeStatus_some (h : Home) (s : String) : h.consumeStatus (some s) =
    (h.setActive (isRunning s)).updateStatus s := by
  cases hrun : isRunning s <;> simp [consumeStatus, hrun, showCard, hideCard]

theorem initStatus_spec (h : Home) (st : Option String) :
    (h.initStatus st).screen = h.screen ∧
      (h.initStatus st).card.status = st.getD h.card.status ∧
      (h.Shows → (h.initStatus st).Shows) ∧
      ((h.initStatus st).card.active → ∃ s ∈ st, isRunning s) := by
  cases st with
  | none =>
    refine ⟨setActive_screen _ _, setActive_status _ _, fun hs => hs.setActive false, fun ha => ?_⟩
    rw [initStatus, hideCard, setActive_active] at ha
    cases ha
  | some s =>
    rw [initStatus_some]
    split_ifs with hrun
    · exact ⟨rfl, rfl, fun _ => shows_updateStatus _ _, fun _ => ⟨s, rfl, hrun⟩⟩
    · refine ⟨setActive_screen _ _, rfl, fun _ => shows_updateStatus _ _, fun ha => ?_⟩
      have hoff : h.hideCard.card.active = false := setActive_active h false
      exact absurd (hoff.symm.trans ha) Bool.false_ne_true

theorem consumeStatus_spec (h : Home) (st : Option String) :
    (h.consumeStatus st).screen = h.screen ∧
      (h.consumeStatus st).card.status = st.getD h.card.status ∧
      (h.Shows → (h.consumeStatus st).Shows) ∧
      (h.consumeStatus st).card.active = st.elim h.card.active isRunning := by
  cases st with
  | none => exact ⟨rfl, rfl, id, rfl⟩
  | some s =>
    rw [consumeStatus_some]
    exact ⟨setActive_screen _ _, rfl, fun _ => shows_updateStatus _ _, setActive_active _ _⟩

theorem optional_str?_eq_some {j : Json} {st : Option String}
    (h : Json.optional Json.str? j = some st) :
    (st = none → j = .null) ∧ ∀ x ∈ st, j = .str x := by
  cases j with
  | null =>
    cases h
    exact ⟨fun _ => rfl, fun x hx => by cases hx⟩
  | str y =>
    cases h
    exact ⟨fun hn => (by cases hn), fun x hx => by cases hx; rfl⟩
  | _ => cases h

/-- The store that has taken a report over holds what it tells. -/
theorem printState_of_told {s : State} {r : Report} {st : Option String}
    (h : told (received s r) r = some st) :
    (st = none → (received s r).printState = .null ∨ (received s r).printState = s.printState) ∧
      ∀ x ∈ st, (received s r).printState = .str x := by
  cases r with
  | subscribed st' id t =>
    obtain ⟨hnone, hsome⟩ := optional_str?_eq_some h
    exact ⟨fun hn => Or.inl (hnone hn), hsome⟩
  | update st' t =>
    have hstore : (received s (.update st' t)).printState = _ := State.printState_update s st' t
    obtain ⟨hnone, hsome⟩ := optional_str?_eq_some h
    rw [valueOf] at hnone hsome
    cases hfield : st'.field? "print_stats" "state" with
    | none =>
      rw [hfield] at hstore hsome
      exact ⟨fun _ => Or.inr hstore, fun x hx => by cases hsome x hx⟩
    | some v =>
      rw [hfield, Option.getD_some] at hnone hsome
      rw [hfield] at hstore
      constructor
      · intro hn
        rw [hnone hn] at hstore
        exact Or.inl hstore
      · intro x hx
        rw [hsome x hx] at hstore
        rw [hstore]
        exact Json.mergePatch_of_not_object s.printState rfl

/-- However a state is taken over, the card ends in it. -/
theorem takeStatus_spec (h : Home) (r : Report) (st : Option String) :
    (h.takeStatus r st).screen = h.screen ∧
      (h.takeStatus r st).card.status = st.getD h.card.status ∧
      (h.Shows → (h.takeStatus r st).Shows) ∧
      ((h.takeStatus r st).card.active →
        (∃ x ∈ st, isRunning x) ∨ st = none ∧ h.card.active) := by
  cases r with
  | subscribed st' id t =>
    obtain ⟨hscreen, hstatus, hshows, hactive⟩ := initStatus_spec h st
    exact ⟨hscreen, hstatus, hshows, fun ha => Or.inl (hactive ha)⟩
  | update st' t =>
    obtain ⟨hscreen, hstatus, hshows, hactive⟩ := consumeStatus_spec h st
    refine ⟨hscreen, hstatus, hshows, fun ha => ?_⟩
    have ha' : st.elim h.card.active isRunning = true := hactive ▸ ha
    cases st with
    | none => exact Or.inr ⟨rfl, ha'⟩
    | some x => exact Or.inl ⟨x, rfl, ha'⟩

/-- A report leaves the card as the reports call for. -/
theorem good_reportCard {h h' : Home} {r : Report} {s : State}
    (hstate : h.screen.panel.state = received s r) (hshows : renames r = false → h.Shows)
    (htracks : h.card.status = "n/a" ∨ s.printState = .null ∨ s.printState = .str h.card.status)
    (hactive : h.ActiveOnly) (hr : h.reportCard r = some h') : h'.Good ∧ h'.screen = h.screen := by
  obtain ⟨h₁, hren, hr⟩ := Option.bind_eq_some_iff.mp hr
  obtain ⟨st, htold, hr⟩ := Option.bind_eq_some_iff.mp hr
  cases hr
  obtain ⟨hscreen₁, hsame, hnew⟩ := renamedCard_spec hren
  rw [hscreen₁, hstate] at htold
  obtain ⟨hnone, hsome⟩ := printState_of_told htold
  obtain ⟨hscreen, hstatus, hshows', hactive'⟩ := takeStatus_spec h₁ r st
  have h₁shows : h₁.Shows ∧ (h₁.card.status = "n/a" ∨ h₁ = h) := by
    cases hrename : renames r with
    | true => exact ⟨(hnew hrename).2, Or.inl (hnew hrename).1⟩
    | false => exact ⟨(hsame hrename) ▸ hshows hrename, Or.inr (hsame hrename)⟩
  refine ⟨⟨hshows' h₁shows.1, ?_, fun ha => ?_⟩, hscreen.trans hscreen₁⟩
  · rw [Tracks, hscreen, hscreen₁, hstate, hstatus]
    cases st with
    | some x => exact Or.inr (Or.inr (hsome x rfl))
    | none =>
      rcases h₁shows.2 with hna | rfl
      · exact Or.inl hna
      · rcases htracks with hna | hnull | hstr
        · exact Or.inl hna
        · exact Or.inr (Or.inl ((hnone rfl).elim id (·.trans hnull)))
        · exact Or.inr ((hnone rfl).imp_right (·.trans hstr))
  · rw [hstatus]
    rcases hactive' ha with ⟨x, rfl, hx⟩ | ⟨rfl, ha₁⟩
    · exact Or.inl hx
    · rcases h₁shows.2 with hna | rfl
      · exact Or.inr hna
      · exact hactive ha₁

end Home

end PowerScreen.PrintStatus
