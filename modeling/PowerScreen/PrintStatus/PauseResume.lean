import PowerScreen.PrintStatus.Layers

/-! # Pause and Resume

A tap sends a request and disables its button. Nobody waits for the answer: the buttons are
enabled and switched by the reports alone, by `is_paused` where a notification has it, and
by the stored print state where a print or a connection starts.
-/
namespace PowerScreen.PrintStatus
open Library Library.Run

/-- The `is_paused` that a report carries. -/
def reportedPaused (r : Report) : Option Bool :=
  ((r.status.field? "pause_resume" "is_paused").getD .null).bool?

/-- The stored print state says that the print is paused. -/
def statePaused (s : State) : Bool := s.printState = .str "paused"

/-- One button is shown, Resume exactly while paused, and it is enabled. -/
structure Actions.Ready (a : Actions) (paused : Bool) : Prop where
  one : a.pauseHidden = !a.resumeHidden
  resume : a.resumeHidden = !paused
  enabled : (if a.resumeHidden then a.pauseDisabled else a.resumeDisabled) = false

/-- The screen with notes on its reports and taps. -/
structure Tracked where
  screen : Screen
  /-- The `is_paused` last reported. -/
  lastPaused : Bool := false
  /-- The buttons have been set anew since the last tap. -/
  sinceTap : Bool := true
  /-- They were last set to what was reported of `is_paused`. -/
  agreed : Bool := true

variable (A : Arith)

namespace Tracked

def noteReport (w : Tracked) (r : Report) : Tracked :=
  let paused := (reportedPaused r).getD w.lastPaused
  let direct := decide (valueOf r "pause_resume" "is_paused" ≠ .null)
  { w with
    lastPaused := paused
    sinceTap := direct || renames r || w.sinceTap
    agreed := if direct then true
      else if renames r then statePaused (received w.screen.panel.state r) == paused
      else w.agreed }

def step (w : Tracked) (e : Screen.Event) : Tracked :=
  let noted := match e with
    | .report r => w.noteReport r
    | .pause =>
      { w with
        sinceTap :=
          w.sinceTap && (w.screen.actions.pauseHidden || w.screen.actions.pauseDisabled) }
    | .resume =>
      { w with
        sinceTap :=
          w.sinceTap && (w.screen.actions.resumeHidden || w.screen.actions.resumeDisabled) }
    | _ => w
  { noted with screen := w.screen.step A e }

/-- Forgetting the notes leaves the screen's run. -/
theorem screen_run (w : Tracked) (es : List Screen.Event) :
    (run (step A) w es).screen = run (Screen.step A) w.screen es :=
  run_map (fun v e => show (step A v e).screen = _ from rfl) w es

def start (s : State) : Tracked := { screen := Screen.start s }

/-- With no request outstanding the right button can be tapped. -/
def NotStuck (w : Tracked) : Prop :=
  w.screen.running → w.screen.outstanding = 0 → w.screen.actions.Ready w.lastPaused

/-- The last answer comes after a report has set the buttons to the reported `is_paused`,
and where a print or a connection starts in between the stored print state agrees. -/
def Settles (w : Tracked) : Screen.Event → Prop
  | .report r => (w.step A (.report r)).screen.running → w.screen.outstanding = 0 →
      renames r → valueOf r "pause_resume" "is_paused" = .null →
        statePaused (received w.screen.panel.state r) = (reportedPaused r).getD w.lastPaused
  | .answered _ => w.screen.running → w.screen.outstanding = 1 → w.sinceTap ∧ w.agreed
  | _ => True

/-- What the notes say of the buttons. -/
structure Noted (w : Tracked) : Prop where
  one : w.screen.actions.pauseHidden = !w.screen.actions.resumeHidden
  agreed : w.agreed = (w.screen.actions.resumeHidden == !w.lastPaused)
  sinceTap : w.sinceTap = !(if w.screen.actions.resumeHidden then w.screen.actions.pauseDisabled
    else w.screen.actions.resumeDisabled)

end Tracked

variable {A}

theorem optional_str {j : Json} {status : Option String}
    (h : Json.optional Json.str? j = some status) (t : String) :
    j = .str t ↔ status = some t := by
  cases j with
  | null =>
    cases h
    simp
  | str u =>
    cases h
    simp
  | _ => cases h

/-- How a report sets the buttons. -/
theorem actions_spec {s : State} {a a' : Actions} {r : Report} (h : a.report s r = some a') :
    (∃ paused, valueOf r "pause_resume" "is_paused" = .bool paused ∧
        a' = Actions.updatePauseResume paused) ∨
      valueOf r "pause_resume" "is_paused" = .null ∧
        a' = if renames r then Actions.updatePauseResume (statePaused s) else a := by
  obtain ⟨b, hb, h⟩ := Option.bind_eq_some_iff.mp h
  obtain ⟨isPaused, hpaused, h⟩ := Option.bind_eq_some_iff.mp h
  cases h
  cases hvalue : valueOf r "pause_resume" "is_paused" with
  | bool paused =>
    rw [hvalue] at hpaused
    cases hpaused
    exact Or.inl ⟨paused, rfl, rfl⟩
  | null =>
    rw [hvalue] at hpaused
    cases hpaused
    refine Or.inr ⟨rfl, ?_⟩
    rw [Actions.renamed] at hb
    split_ifs at hb ⊢ with hren
    · obtain ⟨status, hstatus, rfl⟩ := Option.map_eq_some_iff.mp hb
      have hpaused : statePaused s = decide (status = some "paused") :=
        decide_eq_decide.mpr (optional_str hstatus _)
      rw [hpaused]
      rfl
    · cases hb
      rfl
  | _ =>
    rw [hvalue] at hpaused
    cases hpaused

namespace Tracked

theorem ready_iff {w : Tracked} (hw : w.Noted) :
    w.screen.actions.Ready w.lastPaused ↔ w.sinceTap ∧ w.agreed := by
  rw [hw.agreed, hw.sinceTap, Bool.not_eq_true', beq_iff_eq]
  exact ⟨fun h => ⟨h.enabled, h.resume⟩, fun h => ⟨hw.one, h.2, h.1⟩⟩

theorem noted_start (s : State) : (start s).Noted := ⟨rfl, rfl, rfl⟩

theorem ready_update (paused paused' : Bool) :
    (Actions.updatePauseResume paused).Ready paused' ↔ paused = paused' := by
  constructor
  · intro h
    exact Bool.not_inj h.resume
  · rintro rfl
    exact ⟨by simp [Actions.updatePauseResume], rfl, by simp [Actions.updatePauseResume]⟩

theorem reportedPaused_of_value {r : Report} {paused : Bool}
    (h : valueOf r "pause_resume" "is_paused" = .bool paused) :
    reportedPaused r = some paused := by
  cases r with
  | subscribed st id t => cases h
  | update st t =>
    change (st.field? "pause_resume" "is_paused").getD .null = .bool paused at h
    rw [reportedPaused, Report.status, h]
    rfl

theorem reportedPaused_of_null {r : Report} (hren : renames r = false)
    (h : valueOf r "pause_resume" "is_paused" = .null) : reportedPaused r = none := by
  cases r with
  | subscribed st id t => cases hren
  | update st t =>
    change (st.field? "pause_resume" "is_paused").getD .null = .null at h
    rw [reportedPaused, Report.status, h]
    rfl

/-- A report that is handled to its end. -/
theorem step_report_of_consume {w : Tracked} {r : Report} {s' : Screen}
    (hrun : w.screen.running) (h : w.screen.consume A r = some s') :
    w.step A (.report r) = { w.noteReport r with screen := s' } := by
  have hstep : w.screen.step A (.report r) = s' := by
    rw [Screen.step_report hrun, h, Screen.goOn, Option.getD_some]
  rw [← hstep]
  rfl

theorem noted_report {w : Tracked} (hw : w.Noted) {r : Report} {s' : Screen}
    (hrun : w.screen.running) (h : w.screen.consume A r = some s') :
    (w.step A (.report r)).Noted := by
  rw [step_report_of_consume hrun h]
  obtain ⟨-, -, hactions, -⟩ := Screen.consume_spec h
  rcases actions_spec hactions with ⟨paused, hvalue, ha⟩ | ⟨hvalue, ha⟩
  · have hreported := reportedPaused_of_value hvalue
    refine ⟨?_, ?_, ?_⟩ <;> simp [ha, noteReport, hvalue, hreported, Actions.updatePauseResume]
  · cases hren : renames r with
    | true =>
      rw [hren, if_pos rfl] at ha
      refine ⟨?_, ?_, ?_⟩ <;> simp [ha, noteReport, hvalue, hren, Actions.updatePauseResume]
    | false =>
      rw [hren, if_neg (by simp)] at ha
      have hreported := reportedPaused_of_null hren hvalue
      refine ⟨?_, ?_, ?_⟩ <;> simp [ha, noteReport, hvalue, hren, hreported]
      · exact hw.one
      · exact hw.agreed
      · exact hw.sinceTap

theorem noted_of_actions {w v : Tracked} (hw : w.Noted)
    (hactions : v.screen.actions = w.screen.actions) (hpaused : v.lastPaused = w.lastPaused)
    (htap : v.sinceTap = w.sinceTap) (hagreed : v.agreed = w.agreed) : v.Noted := by
  refine ⟨?_, ?_, ?_⟩
  · rw [hactions, hw.one]
  · rw [hagreed, hactions, hpaused, hw.agreed]
  · rw [htap, hactions, hw.sinceTap]

theorem noted_step {w : Tracked} (hw : w.screen.running → w.Noted) (e : Screen.Event) :
    (w.step A e).screen.running → (w.step A e).Noted := by
  intro hrun'
  have hrun : w.screen.running := Screen.running_of_step hrun'
  have hnoted := hw hrun
  cases e with
  | connected =>
    refine noted_of_actions hnoted ?_ rfl rfl rfl
    simp [step, Screen.step, hrun]
  | report r =>
    cases hconsume : w.screen.consume A r with
    | none =>
      change (w.screen.step A (.report r)).running at hrun'
      rw [Screen.step_report hrun, hconsume] at hrun'
      cases hrun'
    | some s' => exact noted_report hnoted hrun hconsume
  | metadata i j =>
    refine noted_of_actions hnoted ?_ rfl rfl rfl
    simp only [step, Screen.step, hrun, if_true]
    split_ifs with hi
    · cases hm : w.screen.handleMetadata A i j with
      | none => rfl
      | some s' => exact (Screen.handleMetadata_spec hm).2.2.1
    · rfl
  | answered ok =>
    refine noted_of_actions hnoted ?_ rfl rfl rfl
    simp [step, Screen.step, hrun]
  | pause =>
    obtain ⟨hone, hagreed, htap⟩ := hnoted
    simp only [step, Screen.step, hrun, if_true]
    cases hready : (w.screen.actions.pauseHidden || w.screen.actions.pauseDisabled) with
    | true => exact ⟨hone, hagreed, by simpa using htap⟩
    | false =>
      rw [Bool.or_eq_false_iff] at hready
      have hresume : w.screen.actions.resumeHidden = true := by
        rw [hready.1] at hone
        simpa using hone.symm
      exact ⟨hone, hagreed, by simp [hresume]⟩
  | resume =>
    obtain ⟨hone, hagreed, htap⟩ := hnoted
    simp only [step, Screen.step, hrun, if_true]
    cases hready : (w.screen.actions.resumeHidden || w.screen.actions.resumeDisabled) with
    | true => exact ⟨hone, hagreed, by simpa using htap⟩
    | false =>
      rw [Bool.or_eq_false_iff] at hready
      exact ⟨hone, hagreed, by simp [hready.1]⟩

/-- A report leaves the right button exactly if a start it tells of has the print state
that fits. -/
theorem notStuck_report_iff {w : Tracked} (hw : w.NotStuck) {r : Report} {s' : Screen}
    (hrun : w.screen.running) (h : w.screen.consume A r = some s') :
    (w.step A (.report r)).NotStuck ↔ w.Settles A (.report r) := by
  obtain ⟨-, -, hactions, hout, hrunning⟩ := Screen.consume_spec h
  have hrun' : (w.step A (.report r)).screen.running := by
    rw [step_report_of_consume hrun h]
    exact hrunning.trans hrun
  rw [Settles, imp_iff_right hrun', step_report_of_consume hrun h]
  simp only [NotStuck, noteReport, hout, hrunning, imp_iff_right hrun]
  rcases actions_spec hactions with ⟨paused, hvalue, ha⟩ | ⟨hvalue, ha⟩
  · rw [ha, reportedPaused_of_value hvalue, hvalue]
    simp [ready_update]
  · cases hren : renames r with
    | true => simp [ha, hren, hvalue, ready_update]
    | false =>
      rw [ha, hren, reportedPaused_of_null hren hvalue]
      simpa using hw hrun

theorem notStuck_step_iff {w : Tracked} (hnoted : w.screen.running → w.Noted) (hw : w.NotStuck)
    (e : Screen.Event) : (w.step A e).NotStuck ↔ w.Settles A e := by
  by_cases hrun : w.screen.running
  · cases e with
    | connected =>
      refine iff_of_true (fun _ hout => ?_) trivial
      simp only [step, Screen.step, hrun, if_true] at hout ⊢
      exact hw hrun hout
    | report r =>
      cases hconsume : w.screen.consume A r with
      | none =>
        have hstop : ¬ (w.step A (.report r)).screen.running := by
          simp only [step, Screen.step_report hrun, hconsume]
          exact Bool.false_ne_true
        exact iff_of_true (fun h => absurd h hstop) fun h => absurd h hstop
      | some s' => exact notStuck_report_iff hw hrun hconsume
    | metadata i j =>
      refine iff_of_true (fun hrun' hout => ?_) trivial
      simp only [step, Screen.step, hrun, if_true] at hrun' hout ⊢
      split_ifs at hrun' hout ⊢ with hi
      · cases hm : w.screen.handleMetadata A i j with
        | none =>
          rw [hm] at hrun'
          cases hrun'
        | some s' =>
          obtain ⟨-, -, hactions, hsame⟩ := Screen.handleMetadata_spec hm
          rw [hm] at hout
          simp only [Screen.goOn, Option.getD_some] at hout ⊢
          rw [hactions]
          exact hw hrun (hsame ▸ hout)
      · exact hw hrun hout
    | answered ok =>
      have hready := ready_iff (hnoted hrun)
      simp only [Settles, NotStuck, step, Screen.step, hrun, if_true, forall_true_left]
      rcases Nat.lt_trichotomy w.screen.outstanding 1 with hlt | heq | hgt
      · exact iff_of_true (fun _ => hw hrun (Nat.lt_one_iff.mp hlt)) fun h => absurd h hlt.ne
      · simpa [heq] using hready
      · exact iff_of_true (fun h => by omega) fun h => absurd h hgt.ne'
    | pause | resume =>
      refine iff_of_true (fun _ hout => ?_) trivial
      simp only [step, Screen.step, hrun, if_true] at hout ⊢
      split_ifs at hout ⊢
      exact hw hrun hout
  · have hstop : ¬ (w.step A e).screen.running := fun h => hrun (Screen.running_of_step h)
    refine iff_of_true (fun h => absurd h hstop) ?_
    cases e with
    | report r => exact fun h => absurd h hstop
    | answered ok => exact fun h => absurd h hrun
    | _ => trivial

variable (A)

/-- The buttons never get stuck in a run exactly if every last answer comes after a report
that has set them to the reported `is_paused`, and every start finds a print state that
fits it. -/
theorem never_stuck_iff (s : State) (es : List Screen.Event) :
    Throughout (step A) NotStuck (start s) es ↔ EachStep (step A) (Settles A) (start s) es := by
  have hnoted :
      EachStep (step A) (fun (w : Tracked) _ => w.screen.running → w.Noted) (start s) es :=
    eachStep_of_invariant (I := fun w : Tracked => w.screen.running → w.Noted)
      (fun _ e hw => noted_step hw e) (fun _ => noted_start s) es
  exact throughout_iff_eachStep_of (P := NotStuck)
    (fun _ e hnoted hw => notStuck_step_iff hnoted hw e) (fun _ _ => ⟨rfl, rfl, rfl⟩) hnoted

/-- The printer refuses to pause: the button stays disabled. -/
theorem stuck_after_refusal : ¬ Throughout (step Job.exactArith) NotStuck
    (start ⟨[], by decide⟩) [.pause, .answered false] := by
  intro h
  have hready := (h.2.2 (by decide) (by decide)).enabled
  exact absurd hready (by decide)

end Tracked

end PowerScreen.PrintStatus
