import PowerScreen.PrintStatus.HomeCard
import PowerScreen.PrintStatus.Metadata

/-! # The Home over whole runs

In every state of a run the card shows what its status calls for, and the status is one the
printer has told; the two views change places only when the card becomes active or inactive,
or at the user's wish.
-/
namespace PowerScreen.PrintStatus
open Library Library.Run

variable {A : Arith}

namespace Screen

theorem handleMetadata_material {s s' : Screen} {i : ℕ} {j : Json}
    (h : s.handleMetadata A i j = some s') :
    s'.panel.material = (((readMetadata A j).bind (·.material)).getD s.panel.material) := by
  obtain ⟨p, hp, rfl⟩ := Option.map_eq_some_iff.mp h
  obtain ⟨m, hm, hp⟩ := Option.bind_eq_some_iff.mp hp
  obtain ⟨q, hq, hp⟩ := Option.bind_eq_some_iff.mp hp
  cases hp
  rw [hm, Option.bind_some, ← (takeEstimate_spec A hq).2.1]

/-- An event that ends the program leaves the panel as it is. -/
theorem panel_of_not_running {s : Screen} (hrun : s.running) {e : Event}
    (h : ¬ (s.step A e).running) : (s.step A e).panel = s.panel := by
  have hgoOn : ∀ next : Option Screen, (∀ s' ∈ next, s'.running) → ¬ (s.goOn next).running →
      (s.goOn next).panel = s.panel := by
    intro next hnext hstop
    cases next with
    | none => rfl
    | some s' => exact absurd (hnext s' rfl) hstop
  unfold step at h ⊢
  rw [if_pos hrun] at h ⊢
  cases e with
  | report r =>
    refine hgoOn _ (fun s' hs' => ?_) h
    exact (consume_spec hs').2.2.2.2.trans hrun
  | metadata i j =>
    dsimp only at h ⊢
    split_ifs at h ⊢
    · refine hgoOn _ (fun s' hs' => ?_) h
      obtain ⟨p, -, rfl⟩ := Option.map_eq_some_iff.mp hs'
      exact hrun
    · exact absurd hrun h
  | connected => exact absurd hrun h
  | answered ok => exact absurd hrun h
  | pause =>
    dsimp only at h ⊢
    split_ifs at h ⊢ <;> exact absurd hrun h
  | resume =>
    dsimp only at h ⊢
    split_ifs at h ⊢ <;> exact absurd hrun h

end Screen

namespace Home

theorem Good.of_panel {h h' : Home} (hg : h.Good) (hcard : h'.card = h.card)
    (hbadge : h'.chartBadge = h.chartBadge)
    (hmaterial : h'.screen.panel.material = h.screen.panel.material)
    (hstate : h'.screen.panel.state = h.screen.panel.state ∨
      h'.screen.panel.state.printState = .null) : h'.Good := by
  obtain ⟨hshows, htracks, hactive⟩ := hg
  refine ⟨?_, ?_, ?_⟩
  · exact ⟨by rw [hcard, hmaterial, hshows.subtitle], by rw [hcard, hshows.badge],
      by rw [hcard, hbadge, hshows.chartBadge], by rw [hcard, hshows.pauseDisabled],
      by rw [hcard, hshows.stopDisabled], by rw [hcard, hshows.pauseLabel]⟩
  · rw [Tracks, hcard]
    rcases hstate with hsame | hnull
    · rw [hsame]
      exact htracks
    · exact Or.inr (Or.inl hnull)
  · rw [ActiveOnly, hcard]
    exact hactive

theorem good_crash {h : Home} (hg : h.Good) : h.crash.Good := hg.of_panel rfl rfl rfl (Or.inl rfl)

theorem good_report {h : Home} (hg : h.Good) {r : Report} {s' : Screen}
    (hs' : h.screen.consume A r = some s') :
    ((({ h with screen := s' } : Home).reportCard r).getD h.crash).Good := by
  obtain ⟨hstate, -, -, hmaterial, -⟩ := report_spec A (Screen.consume_spec hs').1
  cases hr : ({ h with screen := s' } : Home).reportCard r with
  | none => exact good_crash hg
  | some h' =>
    refine (good_reportCard (h := { h with screen := s' }) hstate (fun hren => ?_) hg.tracks
      hg.activeOnly hr).1
    obtain ⟨hsub, hbadge, hchart, hpause, hstop, hlabel⟩ := hg.shows
    exact ⟨by simp only [hmaterial, hren, Bool.false_eq_true, if_false, hsub], hbadge, hchart,
      hpause, hstop, hlabel⟩

theorem good_metadata {h : Home} (hg : h.Good) {i : ℕ} {j : Json} {s' : Screen}
    (hs' : h.screen.handleMetadata A i j = some s') :
    (if ((readMetadata A j).bind (·.material)).isSome
      then ({ h with screen := s' } : Home).updateMaterial else { h with screen := s' }).Good := by
  have hstate := (Screen.handleMetadata_spec hs').1
  have hmaterial := Screen.handleMetadata_material hs'
  split_ifs with hsome
  · obtain ⟨hshows, htracks, hactive⟩ := hg
    refine ⟨⟨rfl, hshows.badge, hshows.chartBadge, hshows.pauseDisabled, hshows.stopDisabled,
      hshows.pauseLabel⟩, ?_, hactive⟩
    have hsame : s'.panel.state.printState = h.screen.panel.state.printState := by rw [hstate]
    unfold Tracks at htracks ⊢
    rw [← hsame] at htracks
    exact htracks
  · have hnone : (readMetadata A j).bind (·.material) = none := by simpa using hsome
    refine hg.of_panel rfl rfl ?_ (Or.inl hstate)
    rw [hnone, Option.getD_none] at hmaterial
    exact hmaterial

theorem good_screen {h : Home} (hg : h.Good) (hrun : h.screen.running) (e : Screen.Event) :
    (h.step A (.screen e)).Good := by
  rw [step, if_pos hrun]
  dsimp only
  split_ifs with hnext
  · cases e with
    | report r =>
      rw [Screen.step_report hrun] at hnext ⊢
      cases hs' : h.screen.consume A r with
      | none =>
        rw [hs'] at hnext
        cases hnext
      | some s' => exact good_report hg hs'
    | metadata i j =>
      rw [Screen.step, if_pos hrun] at hnext ⊢
      dsimp only [follow] at hnext ⊢
      by_cases hi : i ∈ h.screen.panel.waiting
      · simp only [hi, if_true, true_and] at hnext ⊢
        cases hs' : h.screen.handleMetadata A i j with
        | none =>
          rw [hs'] at hnext
          cases hnext
        | some s' =>
          have hgood := good_metadata hg hs'
          split_ifs at hgood ⊢
          · exact hgood
          · exact hgood
      · simp only [hi, if_false, false_and]
        exact hg
    | connected =>
      rw [Screen.step, if_pos hrun]
      exact hg.of_panel rfl rfl rfl (Or.inr rfl)
    | answered ok =>
      rw [Screen.step, if_pos hrun]
      exact hg.of_panel rfl rfl rfl (Or.inl rfl)
    | pause =>
      rw [Screen.step, if_pos hrun]
      dsimp only [follow]
      split_ifs <;> exact hg.of_panel rfl rfl rfl (Or.inl rfl)
    | resume =>
      rw [Screen.step, if_pos hrun]
      dsimp only [follow]
      split_ifs <;> exact hg.of_panel rfl rfl rfl (Or.inl rfl)
  · have hpanel := Screen.panel_of_not_running (A := A) hrun hnext
    exact hg.of_panel rfl rfl (by rw [hpanel]) (Or.inl (by rw [hpanel]))

theorem good_step {h : Home} (hg : h.Good) (e : Event) : (h.step A e).Good := by
  by_cases hrun : h.screen.running
  · cases e with
    | screen e => exact good_screen hg hrun e
    | viewToggle print =>
      rw [step, if_pos hrun]
      exact hg.of_panel rfl rfl rfl (Or.inl rfl)
    | _ =>
      rw [step, if_pos hrun]
      split_ifs <;> exact hg.of_panel rfl rfl rfl (Or.inl rfl)
  · have hstep : h.step A e = h := if_neg hrun
    rwa [hstep]

/-- What the constructors build, with a store that may hold something already. -/
def start (s : State) : Home := { screen := Screen.start s }

theorem good_start (s : State) : (start s).Good where
  shows := ⟨rfl, rfl, rfl, rfl, rfl, rfl⟩
  tracks := Or.inl rfl
  activeOnly ha := absurd ha Bool.false_ne_true

theorem good_run (s : State) (es : List Event) : (run (step A) (start s) es).Good :=
  run_of_step (P := Home.Good) (fun _ e hg => good_step hg e) (good_start s) es

theorem step_pause {h : Home} (hrun : h.screen.running) : h.step A .pause =
    if h.card.pauseDisabled then h
    else if h.card.status = "paused" then { h with sent := h.sent ++ ["printer.print.resume"] }
    else { h with sent := h.sent ++ ["printer.print.pause"] } := if_pos hrun

/-- The label of the button names the request a tap sends, and the request is one the print
that the printer has told of can take. -/
theorem tap_pause_of_run (s : State) (es : List Event)
    (hrun : (run (step A) (start s) es).screen.running) :
    ((run (step A) (start s) es).card.pauseDisabled ∧
      ((run (step A) (start s) es).step A .pause).sent = (run (step A) (start s) es).sent) ∨
    ((run (step A) (start s) es).card.pauseLabel = "Resume" ∧
      (run (step A) (start s) es).screen.panel.state.printState ∈ [.null, .str "paused"] ∧
      ((run (step A) (start s) es).step A .pause).sent =
        (run (step A) (start s) es).sent ++ ["printer.print.resume"]) ∨
    ((run (step A) (start s) es).card.pauseLabel = "Pause" ∧
      (run (step A) (start s) es).screen.panel.state.printState ∈ [.null, .str "printing"] ∧
      ((run (step A) (start s) es).step A .pause).sent =
        (run (step A) (start s) es).sent ++ ["printer.print.pause"]) := by
  obtain ⟨hshows, htracks, -⟩ := good_run (A := A) s es
  generalize run (step A) (start s) es = h at *
  rw [step_pause hrun]
  by_cases hdisabled : h.card.pauseDisabled
  · exact Or.inl ⟨hdisabled, by rw [if_pos hdisabled]⟩
  have hrunning : isRunning h.card.status := by
    have hnot := hshows.pauseDisabled
    rw [Bool.not_eq_true] at hdisabled
    rw [hdisabled] at hnot
    simpa using hnot.symm
  have htold : h.screen.panel.state.printState ∈ [.null, .str h.card.status] := by
    rcases htracks with hna | hnull | hstr
    · rw [hna] at hrunning
      exact absurd hrunning (by decide)
    · exact hnull ▸ List.mem_cons_self
    · exact hstr ▸ List.mem_cons_of_mem _ List.mem_cons_self
  rw [if_neg hdisabled]
  by_cases hpaused : h.card.status = "paused"
  · refine Or.inr (Or.inl ⟨?_, hpaused ▸ htold, by rw [if_pos hpaused]⟩)
    rw [hshows.pauseLabel, if_pos hpaused]
  · have hprinting : h.card.status = "printing" := by
      simpa [isRunning, hpaused] using hrunning
    refine Or.inr (Or.inr ⟨?_, hprinting ▸ htold, by rw [if_neg hpaused]⟩)
    rw [hshows.pauseLabel, if_neg hpaused]

/-- The print has been paused at the printer. -/
def paused : Report :=
  .update ⟨[("print_stats", [("state", .str "paused")])], List.pairwise_singleton _ _,
    fun o ho => by
      rw [List.mem_singleton.mp ho]
      exact Json.sorted_obj_iff.mpr ⟨List.pairwise_singleton _ _, by simp [Json.Sorted]⟩⟩ 1

theorem tap_pause_of_run_paused :
    (((start ⟨[], by decide⟩).step Job.exactArith (.screen (.report paused))).step Job.exactArith
      .pause).sent = ["printer.print.resume"] := by
  rcases tap_pause_of_run (A := Job.exactArith) ⟨[], by decide⟩ [.screen (.report paused)]
    (by decide) with ⟨hdisabled, -⟩ | ⟨-, -, hsent⟩ | ⟨hlabel, -⟩
  · exact absurd hdisabled (by decide)
  · exact hsent
  · exact absurd hlabel (by decide)

/-- The state callback was called with `true` and `false` in turn, the last time with what the
card is now. -/
structure Alternates (h : Home) : Prop where
  calls : ∀ i b, h.calls[i]? = some b → b = decide (i % 2 = 0)
  active : h.card.active = decide (h.calls.length % 2 = 1)

theorem Alternates.setActive {h : Home} (ha : h.Alternates) (b : Bool) :
    (h.setActive b).Alternates := by
  unfold Home.setActive
  split_ifs with hb
  · exact ha
  · have hnew : b = decide (h.calls.length % 2 = 0) := by
      have hold := ha.active
      rcases Nat.mod_two_eq_zero_or_one h.calls.length with hmod | hmod <;>
        cases b <;> simp_all
    constructor
    · intro i c hi
      rcases Nat.lt_or_ge i h.calls.length with hlt | hge
      · rw [List.getElem?_append_left hlt] at hi
        exact ha.calls i c hi
      · rw [List.getElem?_append_right hge, List.getElem?_singleton] at hi
        split_ifs at hi with hlast
        cases hi
        have hi : i = h.calls.length := by omega
        rw [hi, hnew]
    · rw [List.length_append, List.length_singleton]
      change b = _
      rw [hnew]
      exact decide_eq_decide.mpr (by omega)

/-- Calls are only added; with a new one the view is the one of the last. -/
structure Turns (h h' : Home) : Prop where
  calls : h.calls <+: h'.calls
  active : h'.calls = h.calls → h'.card.active = h.card.active
  view : h'.printView = if h'.calls = h.calls then h.printView else h'.card.active
  alternates : h.Alternates → h'.Alternates

theorem Turns.of_eq {h h' : Home} (hcalls : h'.calls = h.calls)
    (hactive : h'.card.active = h.card.active) (hview : h'.printView = h.printView) :
    h.Turns h' where
  calls := hcalls ▸ List.prefix_rfl
  active _ := hactive
  view := by rw [if_pos hcalls, hview]
  alternates ha := ⟨hcalls ▸ ha.calls, by rw [hactive, hcalls, ha.active]⟩

theorem Turns.refl (h : Home) : h.Turns h := .of_eq rfl rfl rfl

theorem Turns.trans {h₁ h₂ h₃ : Home} (h : h₁.Turns h₂) (h' : h₂.Turns h₃) : h₁.Turns h₃ := by
  have hboth : h₃.calls = h₁.calls → h₃.calls = h₂.calls ∧ h₂.calls = h₁.calls := fun heq => by
    have hle := h'.calls.length_le
    have hle' := h.calls.length_le
    rw [heq] at hle
    exact ⟨(h'.calls.eq_of_length_le (heq ▸ hle')).symm, (h.calls.eq_of_length_le hle).symm⟩
  refine ⟨h.calls.trans h'.calls, fun heq => ?_, ?_, fun ha => h'.alternates (h.alternates ha)⟩
  · obtain ⟨h₃₂, h₂₁⟩ := hboth heq
    rw [h'.active h₃₂, h.active h₂₁]
  · rw [h'.view]
    by_cases h₃₂ : h₃.calls = h₂.calls
    · rw [if_pos h₃₂, h.view, h₃₂, h'.active h₃₂]
    · rw [if_neg h₃₂, if_neg fun heq => h₃₂ (hboth heq).1]

theorem turns_setActive (h : Home) (b : Bool) : h.Turns (h.setActive b) := by
  by_cases hb : h.card.active = b
  · have hsame : h.setActive b = h := if_pos hb
    rw [hsame]
    exact .refl h
  · have hnew : h.setActive b = { h with card := { h.card with active := b }
                                         printView := b
                                         calls := h.calls ++ [b] } := if_neg hb
    have hcalls : ¬ (h.setActive b).calls = h.calls := by simp [hnew]
    refine ⟨?_, fun heq => absurd heq hcalls, ?_, fun ha => ha.setActive b⟩
    · rw [hnew]
      exact List.prefix_append _ _
    · rw [if_neg hcalls, hnew]

theorem turns_updateStatus (h : Home) (status : String) : h.Turns (h.updateStatus status) :=
  .of_eq rfl rfl rfl

theorem turns_reportCard {h h' : Home} {r : Report} (hr : h.reportCard r = some h') :
    h.Turns h' := by
  obtain ⟨h₁, hren, hr⟩ := Option.bind_eq_some_iff.mp hr
  obtain ⟨st, -, hr⟩ := Option.bind_eq_some_iff.mp hr
  cases hr
  have hrenamed : h.Turns h₁ := by
    unfold renamedCard at hren
    split_ifs at hren
    · obtain ⟨name, -, rfl⟩ := Option.map_eq_some_iff.mp hren
      cases name with
      | none => exact turns_updateStatus h "n/a"
      | some name => exact (turns_updateStatus h "n/a").trans (turns_setActive _ true)
    · cases hren
      exact .refl h
  refine hrenamed.trans ?_
  cases r with
  | subscribed st' id t =>
    cases st with
    | none => exact turns_setActive h₁ false
    | some s =>
      rw [takeStatus, initStatus_some]
      split_ifs
      · exact turns_updateStatus h₁ s
      · exact (turns_setActive h₁ false).trans (turns_updateStatus _ s)
  | update st' t =>
    cases st with
    | none => exact .refl h₁
    | some s =>
      rw [takeStatus, consumeStatus_some]
      exact (turns_setActive h₁ _).trans (turns_updateStatus _ s)

/-- Whatever is no tap on the switch of the views leaves them to the card. -/
theorem turns_step (h : Home) {e : Event} (he : ∀ print, e ≠ .viewToggle print) :
    h.Turns (h.step A e) := by
  by_cases hrun : h.screen.running
  · unfold step
    rw [if_pos hrun]
    cases e with
    | viewToggle print => exact absurd rfl (he print)
    | screen e =>
      have hscreen : h.Turns { h with screen := h.screen.step A e } := .of_eq rfl rfl rfl
      dsimp only
      split_ifs
      · cases hf : ({ h with screen := h.screen.step A e } : Home).follow A
            h.screen.panel.waiting e with
        | none => exact .of_eq rfl rfl rfl
        | some h' =>
          refine hscreen.trans ?_
          cases e with
          | report r => exact turns_reportCard hf
          | metadata i j =>
            dsimp only [follow] at hf
            split_ifs at hf <;> cases hf
            · exact .of_eq rfl rfl rfl
            · exact .refl _
          | _ =>
            cases hf
            exact .refl _
      · exact hscreen
    | _ =>
      dsimp only
      split_ifs <;> exact .of_eq rfl rfl rfl
  · have hstep : h.step A e = h := if_neg hrun
    rw [hstep]
    exact .refl h

theorem step_viewToggle {h : Home} (hrun : h.screen.running) (print : Bool) :
    h.step A (.viewToggle print) = { h with printView := print } := if_pos hrun

theorem alternates_step {h : Home} (ha : h.Alternates) (e : Event) :
    (h.step A e).Alternates := by
  cases e with
  | viewToggle print =>
    by_cases hrun : h.screen.running
    · rw [step_viewToggle hrun]
      exact ⟨ha.calls, ha.active⟩
    · have hstep : h.step A (.viewToggle print) = h := if_neg hrun
      rwa [hstep]
  | _ => exact (turns_step h (fun _ he => Event.noConfusion he)).alternates ha

/-- The views of the Home in every run. -/
theorem view_of_run (s : State) (es : List Event) :
    (run (step A) (start s) es).Alternates ∧
      (∀ e, (∀ print, e ≠ .viewToggle print) →
        ((run (step A) (start s) es).step A e).printView =
          if ((run (step A) (start s) es).step A e).calls = (run (step A) (start s) es).calls
          then (run (step A) (start s) es).printView
          else ((run (step A) (start s) es).step A e).card.active) ∧
      ((run (step A) (start s) es).screen.running → ∀ print,
        ((run (step A) (start s) es).step A (.viewToggle print)).printView = print) := by
  refine ⟨run_of_step (P := Home.Alternates) (fun _ e ha => alternates_step ha e) ?_ es,
    fun e he => (turns_step _ he).view, fun hrun print => ?_⟩
  · exact ⟨fun i b hi => (by cases hi), rfl⟩
  · rw [step_viewToggle hrun]

end Home

end PowerScreen.PrintStatus
