import PowerScreen.SysInfo.Answers

/-! # The channel of the shown answer

From every stage of a check the thread and the timer bring its answer to the screen; so an
answer for another channel is shown in the end, unless the channel changes once more.
-/
namespace PowerScreen.SysInfo.Checker
open Library Library.Run Update

theorem linked_start (entry : Json) : Linked { updateChannel := entry } := rfl

theorem tracked_start (entry : Json) : Tracked { updateChannel := entry } := by
  have htext : ¬ ("" = CheckResult.updateAvailable.text ∨ "" = CheckResult.upToDate.text) := by
    decide
  exact ⟨fun t ht => absurd ht List.not_mem_nil, fun _ h => absurd h htext⟩

theorem SafeOn.step {c : Checker} (h : SafeOn c) {e : CheckEvent} (he : Onward e) :
    SafeOn (step c e) :=
  fun es hes => h (e :: es) (List.forall_mem_cons.mpr ⟨he, hes⟩)

theorem SafeOn.last {c : Checker} (hl : Linked c) (h : SafeOn c) (hnil : c.threads = []) :
    Last c := by
  have hrun : c.checkRunning = false := by
    by_contra hrun
    rw [Linked, if_pos (Bool.eq_true_of_not_eq_false hrun), hnil] at hl
    exact absurd hl (by simp)
  have hsettled : Settled c.pollUpdate := by
    cases hdone : c.checkDone <;> simp [pollUpdate, Settled, hdone, hrun, hnil]
  have hcurrent : Current c.pollUpdate := h [.poll] (by simp [Onward])
  exact (shown_pollUpdate c).mp (hcurrent hsettled)

theorem SafeOn.announced {c : Checker} (h : SafeOn c) (ht : c.threads = [.announced]) : Last c := by
  have hclear : c.clear 0 = { c with checkRunning := false, threads := [] } := by
    simp [clear, ht]
  have hsafe : SafeOn (c.clear 0) := h.step (e := .clear 0) trivial
  rw [hclear] at hsafe
  exact hsafe.last (c := { c with checkRunning := false, threads := [] }) rfl rfl

theorem SafeOn.stored {c : Checker} (h : SafeOn c) (ht : c.threads = [.stored]) : Stored c := by
  have hannounce : c.announce 0 = { c with checkDone := true, threads := [.announced] } := by
    simp [announce, advance, ht]
  have hsafe : SafeOn (c.announce 0) := h.step (e := .announce 0) trivial
  rw [hannounce] at hsafe
  exact hsafe.announced (c := { c with checkDone := true, threads := [.announced] }) rfl

theorem SafeOn.answered {c : Checker} (h : SafeOn c) {channel : Option Channel} {r : CheckResult}
    (ht : c.threads = [.answered channel r]) (hr : r.isAnswer) : channel = some c.channel := by
  have hstore : c.storeResult 0 =
      { c with result := r, resultFor := channel, threads := [.stored] } := by
    simp [storeResult, advance, ht]
  have hsafe : SafeOn (c.storeResult 0) := h.step (e := .storeResult 0) trivial
  rw [hstore] at hsafe
  exact hsafe.stored (c := { c with result := r, resultFor := channel, threads := [.stored] }) rfl hr

theorem SafeOn.asking {c : Checker} (h : SafeOn c) {channel : Channel}
    (ht : c.threads = [.asking channel]) : channel = c.channel := by
  have hanswer : c.answer 0 (some "UP_TO_DATE:") =
      { c with threads := [.answered (some channel) .upToDate] } := by
    have hresult : checkResult "UP_TO_DATE:" = .upToDate := by decide
    simp [answer, advance, ht, hresult]
  have hsafe : SafeOn (c.answer 0 (some "UP_TO_DATE:")) :=
    h.step (e := .answer 0 (some "UP_TO_DATE:")) trivial
  rw [hanswer] at hsafe
  exact Option.some.inj
    (hsafe.answered (c := { c with threads := [.answered (some channel) .upToDate] }) rfl rfl)

theorem tracked_of_safeOn {c : Checker} (hl : Linked c) (h : SafeOn c) : Tracked c := by
  refine ⟨fun t ht => ?_, h.last hl⟩
  obtain ⟨i, hi⟩ := List.mem_iff_getElem?.mp ht
  have hthreads := (hl.single hi).1
  cases t with
  | created => trivial
  | asking channel => exact h.asking hthreads
  | answered channel r => exact h.answered hthreads
  | stored => exact h.stored hthreads
  | announced => exact h.announced hthreads

theorem inTurn_of_onward {e : CheckEvent} (h : Onward e) (c : Checker) : InTurn c e := by
  cases e with
  | choose selected => exact h.elim
  | _ => trivial

theorem safeOn_iff {c : Checker} (hl : Linked c) : SafeOn c ↔ Tracked c := by
  refine ⟨tracked_of_safeOn hl, fun h es hes => ?_⟩
  have hrun : Linked (run step c es) ∧ Tracked (run step c es) :=
    run_of_forall (I := fun d => Linked d ∧ Tracked d) (fun d e he hd =>
      ⟨linked_step d e hd.1, tracked_step hd.1 hd.2 e (inTurn_of_onward he d)⟩) ⟨hl, h⟩ hes
  exact hrun.2.current

/-- An answer that fits two channels is not due. -/
theorem not_due_of_fits {c : Checker} {t : CheckThread} {channel : Channel}
    (hne : channel ≠ c.channel) (h : Fits c t)
    (h' : Fits (c.setChannel channel).checkForUpdate t) : ¬ Due c t := by
  have htwo : ∀ o : Option Channel, o = some c.channel →
      o = some (c.setChannel channel).channel → False := fun o ho ho' => by
    rw [channel_setChannel] at ho'
    exact hne (Option.some.inj (ho'.symm.trans ho))
  cases t with
  | created => exact id
  | asking old => exact fun _ => htwo (some old) (congrArg some h) (congrArg some h')
  | answered old r => exact fun hr => htwo old (h hr) (h' hr)
  | stored => exact fun hr => htwo c.resultFor (h hr) (h' hr)
  | announced =>
    rintro ⟨hdone, hr⟩
    have hlast : Stored c := by
      have hlast : Last c := h
      rwa [Last, if_pos hdone] at hlast
    have hlast' : Stored (c.setChannel channel).checkForUpdate := by
      have hlast : Last (c.setChannel channel).checkForUpdate := h'
      rwa [Last, if_pos (show (c.setChannel channel).checkForUpdate.checkDone = true from hdone)]
        at hlast
    exact htwo c.resultFor (hlast hr) (hlast' hr)

theorem inTurn_of_tracked {c : Checker} (hl : Linked c) (h : Tracked c) {e : CheckEvent}
    (h' : Tracked (step c e)) : InTurn c e := by
  cases e with
  | choose selected =>
    intro hchange t ht
    have hstep : step c (.choose selected) =
        (c.setChannel (selectedChannel selected)).checkForUpdate := if_pos hchange
    obtain ⟨i, hi⟩ := List.mem_iff_getElem?.mp ht
    have hrun : (c.setChannel (selectedChannel selected)).checkRunning = true := (hl.single hi).2.2
    have hthreads : (step c (.choose selected)).threads = c.threads := by
      rw [hstep]
      exact if_pos hrun
    exact not_due_of_fits hchange (h.fits t ht) (hstep ▸ h'.fits t (hthreads ▸ ht))
  | _ => trivial

/-- In every run, from everywhere in it what is shown at rest is for the configured channel,
exactly when the channel is changed only while no answer for the old one is due. -/
theorem shown_throughout_iff (entry : Json) (es : List CheckEvent) :
    Throughout step SafeOn { updateChannel := entry } es ↔
      EachStep step InTurn { updateChannel := entry } es := by
  refine throughout_iff_eachStep_of (B := fun c _ => Linked c) (fun c e hl hsafe => ?_)
    ((safeOn_iff (linked_start entry)).mpr (tracked_start entry))
    (eachStep_of_invariant linked_step (linked_start entry) es)
  have htracked := (safeOn_iff hl).mp hsafe
  rw [safeOn_iff (linked_step c e hl)]
  exact ⟨inTurn_of_tracked hl htracked, tracked_step hl htracked e⟩

/-- The channel is changed while the check of the old one is under way. -/
theorem answer_for_old_channel :
    ¬ (run step {} [.check, .begin 0, .choose 1, .answer 0 (some "UP_TO_DATE:v2-nightly"),
      .storeResult 0, .announce 0, .clear 0, .poll]).Current := by
  decide

end PowerScreen.SysInfo.Checker
