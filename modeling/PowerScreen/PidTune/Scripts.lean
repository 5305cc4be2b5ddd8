import PowerScreen.PidTune.Guard

/-! # Scripts of the PID tune

Every cautious step keeps the flags and the dialog true to the printer, and from a panel
where one of them is not a few taps lead to a script that is not right.
-/
namespace PowerScreen.PidTune.Panel
open Library Library.Run

theorem Guarded.idle {p : Panel} (hp : Linked p) (h : Guarded p) (hrun : p.running)
    (hd : p.dialog ≠ none) : p.pending = [] := by
  obtain ⟨hopen, htuning⟩ := hp.dialog hd
  by_contra hne
  exact Bool.noConfusion (htuning.symm.trans (h.tuning hrun hopen hne))

theorem guarded_step {p : Panel} (hp : Linked p) (h : Guarded p) (e : Event)
    (hc : Cautious p e) : Guarded (step p e) := by
  unfold step
  by_cases hrun : p.running
  · rw [if_pos hrun]
    cases e with
    | report r =>
      obtain ⟨b, heq, hflag⟩ := report_spec p hp.disabled r
      have hidle : p.isOpen → b = false → (p.report r).busy = false := fun hopen hb => by
        by_contra hbusy
        have hbusy := Bool.eq_true_of_not_eq_false hbusy
        have hcaution := (hc hrun hbusy).2
        cases r with
        | subscribed st id t =>
          exact Bool.noConfusion (hb.symm.trans (hflag.trans (hcaution hopen)))
        | update st t =>
          obtain ⟨hprinting, hbefore⟩ := hflag hb hbusy
          exact Bool.noConfusion ((h.printing hrun hopen hprinting).symm.trans hbefore)
      dsimp only
      rw [heq]
      refine ⟨h.right, fun _ d hd hscript => ?_, fun _ => hidle, h.tuning⟩
      by_contra hbusy
      exact hscript ((hc hrun (Bool.eq_true_of_not_eq_false hbusy)).1 d hd)
    | opened =>
      dsimp only
      split_ifs with hnone
      · have hpending := hc hrun (Option.isNone_iff_eq_none.mp hnone)
        refine ⟨h.right, fun _ => h.dialog hrun, fun _ _ hb => hb, fun _ _ hne => ?_⟩
        exact absurd hpending hne
      · exact h
    | closed =>
      dsimp only
      split_ifs with hnone
      · exact ⟨h.right, h.dialog, fun _ ho => Bool.noConfusion ho, fun _ ho => Bool.noConfusion ho⟩
      · exact h
    | choose hh i =>
      dsimp only
      split_ifs
      · exact ⟨h.right, h.dialog, h.printing, h.tuning⟩
      · exact h
    | start hh =>
      dsimp only
      split_ifs with henabled
      · simp only [reachable, hp.disabled, Bool.and_eq_true, Bool.not_eq_true',
          Bool.or_eq_false_iff] at henabled
        exact ⟨h.right, fun _ _ _ _ => h.printing hrun henabled.1.1 henabled.2.1, h.printing, h.tuning⟩
      · exact h
    | confirm =>
      dsimp only
      rcases confirm_cases p with ⟨-, heq⟩ | ⟨d, hd, ⟨-, heq⟩ | ⟨script, hscript, heq⟩⟩
      · rwa [heq]
      · rw [heq]
        exact ⟨h.right, fun hr => Bool.noConfusion hr, fun hr => Bool.noConfusion hr,
          fun hr => Bool.noConfusion hr⟩
      · have hidle := h.idle hp hrun (by simp [hd])
        have hbusy := h.dialog hrun d hd (by simp [hscript])
        rw [heq]
        refine ⟨fun m hm => ?_, fun _ _ hd' => absurd hd' (by simp), h.printing, fun _ _ _ => rfl⟩
        rcases List.mem_append.mp hm with hm | hm
        · exact h.right m hm
        · rw [List.mem_singleton.mp hm]
          exact ⟨hbusy, by rw [hidle]; rfl⟩
    | cancel => exact ⟨h.right, fun _ _ hd => absurd hd (by simp), h.printing, h.tuning⟩
    | reply i =>
      dsimp only [reply]
      split_ifs with hi
      · refine ⟨h.right, h.dialog, h.printing, fun _ _ hne => ?_⟩
        have hone := hp.single h.right
        have hlen := List.length_eraseIdx_of_lt hi
        have hnil : p.pending.eraseIdx i = [] := List.eq_nil_of_length_eq_zero (by omega)
        exact absurd hnil hne
      · exact h
  · rw [if_neg hrun]
    exact h

/-- A step out of the cautious ones leaves a panel that is not guarded. -/
theorem cautious_of_guarded {p : Panel} (hp : Linked p) {e : Event}
    (h : Guarded (step p e)) : Cautious p e := by
  cases e with
  | report r =>
    intro hrun hbusy
    obtain ⟨b, heq, hflag⟩ := report_spec p hp.disabled r
    have hstep : step p (.report r) = p.report r := if_pos hrun
    rw [hstep, heq] at h
    refine ⟨fun d hd => ?_, ?_⟩
    · by_contra hscript
      exact Bool.noConfusion ((h.dialog hrun d hd hscript).symm.trans hbusy)
    · cases r with
      | update st t => trivial
      | subscribed st id t =>
        intro hopen
        by_contra hprinting
        have hb : b = false := hflag.trans (Bool.eq_false_of_not_eq_true hprinting)
        exact Bool.noConfusion ((h.printing hrun hopen hb).symm.trans hbusy)
  | opened =>
    intro hrun hnone
    have hstep : step p .opened = p.foreground := by
      rw [step, if_pos hrun]
      exact if_pos (Option.isNone_iff_eq_none.mpr hnone)
    rw [hstep] at h
    by_contra hne
    exact Bool.noConfusion (h.tuning hrun rfl hne)
  | _ => trivial

theorem cautious_of_quiet {e : Event} (h : Quiet e) (p : Panel) : Cautious p e := by
  cases e with
  | report r =>
    cases r with
    | subscribed st id t => exact h.elim
    | update st t =>
      intro _ hbusy
      have hst : st = .ofPrintState "standby" := h
      rw [busy_update, hst, Status.field?_ofPrintState] at hbusy
      exact Bool.noConfusion hbusy
  | opened => exact h.elim
  | _ => trivial

theorem guarded_run {p : Panel} (hp : Linked p) (h : Guarded p) {es : List Event}
    (hes : ∀ e ∈ es, Quiet e) : Guarded (run step p es) := by
  refine (run_of_forall (I := fun p => Linked p ∧ Guarded p) (Q := Quiet) ?_ ⟨hp, h⟩ hes).2
  intro p e he hp
  exact ⟨linked_step p e hp.1, guarded_step hp.1 hp.2 e (cautious_of_quiet he p)⟩

theorem right_of_confirm {p : Panel} (hrun : p.running) {d : Dialog} (hd : p.dialog = some d)
    (hscript : d.script p.state ≠ none) (h : (step p .confirm).AllRight) :
    p.busy = false ∧ p.pending = [] := by
  have hstep : step p .confirm = p.confirm := if_pos hrun
  rcases confirm_cases p with ⟨hnone, -⟩ | ⟨d', hd', ⟨hnone, -⟩ | ⟨script, -, heq⟩⟩
  · exact absurd (hnone.symm.trans hd) (by simp)
  · rw [Option.some.inj (hd'.symm.trans hd)] at hnone
    exact absurd hnone hscript
  · rw [hstep, heq] at h
    obtain ⟨hbusy, hlen⟩ := h _ (List.mem_append_right _ (List.mem_singleton_self _))
    exact ⟨hbusy, List.eq_nil_of_length_eq_zero hlen⟩

/-- A button that can be tapped leads to a script for the bed. -/
theorem right_of_start {p : Panel} (hrun : p.running) (hopen : p.isOpen) (hd : p.dialog = none)
    (henabled : p.startDisabled = false) (h : (run step p [.start .bed, .confirm]).AllRight) :
    p.busy = false ∧ p.pending = [] := by
  have hstart : step p (.start .bed) = p.startTune .bed := by
    rw [step, if_pos hrun]
    exact if_pos (by simp [reachable, hopen, hd, henabled])
  rw [run_cons, hstart] at h
  exact right_of_confirm (p := p.startTune .bed) hrun rfl (by simp [Dialog.script, startDialog]) h

theorem reply_keeps (p : Panel) (i : ℕ) : (p.reply i).running = p.running ∧
    (p.reply i).isOpen = p.isOpen ∧ (p.reply i).dialog = p.dialog ∧ (p.reply i).busy = p.busy := by
  unfold reply
  split_ifs <;> exact ⟨rfl, rfl, rfl, rfl⟩

theorem startDisabled_reply {p : Panel} (hp : Linked p) (hprinting : p.printing = false) :
    (p.reply 0).startDisabled = false := by
  unfold reply
  split_ifs with hpending
  · exact hprinting
  · have htuning : p.tuning = false := by
      by_contra h
      exact hpending (List.length_pos_of_ne_nil (hp.tuning (Bool.eq_true_of_not_eq_false h)))
    rw [hp.disabled, hprinting, htuning]
    rfl

/-- Once the script is replied to, only the flag of the print can disable Start. -/
theorem busy_of_safe {p : Panel} (hp : Linked p) (hrun : p.running) (hopen : p.isOpen)
    (hd : p.dialog = none) (hprinting : p.printing = false)
    (h : (run step p [.reply 0, .start .bed, .confirm]).AllRight) : p.busy = false := by
  have hreply : step p (.reply 0) = p.reply 0 := if_pos hrun
  obtain ⟨hrun', hopen', hd', hbusy⟩ := reply_keeps p 0
  rw [run_cons, hreply] at h
  rw [← hbusy]
  exact (right_of_start (hrun'.trans hrun) (hopen'.trans hopen) (hd'.trans hd)
    (startDisabled_reply hp hprinting) h).1

def ready : Event := .report (.update (.ofPrintState "standby") 0)

theorem step_ready {p : Panel} (hrun : p.running) : step p ready =
    { p with
      state := (p.state.receive (.update (.ofPrintState "standby") 0)).getD p.state
      printing := false, startDisabled := p.tuning } := by
  have hstep : step p ready = p.report (.update (.ofPrintState "standby") 0) := if_pos hrun
  rw [hstep, report, consume_notification, Status.field?_ofPrintState]
  rfl

/-- Once the printer is ready, only the flag of a tune can disable Start. -/
theorem pending_of_safe {p : Panel} (hrun : p.running) (hopen : p.isOpen) (hd : p.dialog = none)
    (htuning : p.tuning = false) (h : (run step p [ready, .start .bed, .confirm]).AllRight) :
    p.pending = [] := by
  rw [run_cons, step_ready hrun] at h
  exact (right_of_start (p := { p with
    state := (p.state.receive (.update (.ofPrintState "standby") 0)).getD p.state
    printing := false, startDisabled := p.tuning }) hrun hopen hd htuning h).2

theorem SafeOn.cancel {p : Panel} (h : SafeOn p) : SafeOn (step p .cancel) :=
  fun es hes => h (.cancel :: es) (List.forall_mem_cons.mpr ⟨trivial, hes⟩)

theorem safeOn_iff {p : Panel} (hp : Linked p) : SafeOn p ↔ Guarded p := by
  constructor
  · intro hsafe
    have hcancel : p.running → step p .cancel = { p with dialog := none } := fun hrun => if_pos hrun
    refine ⟨hsafe [] (by simp), fun hrun d hd hscript => ?_, fun hrun hopen hprinting => ?_,
      fun hrun hopen hne => ?_⟩
    · exact (right_of_confirm hrun hd hscript (hsafe [.confirm] (by simp [Quiet]))).1
    · have hright := hsafe.cancel [.reply 0, .start .bed, .confirm] (by simp [Quiet])
      rw [hcancel hrun] at hright
      exact busy_of_safe (p := { p with dialog := none }) (hcancel hrun ▸ linked_step p .cancel hp)
        hrun hopen rfl hprinting hright
    · by_contra htuning
      have hright := hsafe.cancel [ready, .start .bed, .confirm] (by simp [Quiet, ready])
      rw [hcancel hrun] at hright
      exact hne (pending_of_safe (p := { p with dialog := none }) hrun hopen rfl
        (Bool.eq_false_of_not_eq_true htuning) hright)
  · intro h es hes
    exact (guarded_run hp h hes).right

/-- In every run, from everywhere in it every script is right exactly when reports and
openings are cautious. -/
theorem tune_throughout_iff (s : State) (es : List Event) :
    Throughout step SafeOn { state := s } es ↔ EachStep step Cautious { state := s } es := by
  refine throughout_iff_eachStep_of (B := fun p _ => Linked p) (fun p e hp hsafe => ?_)
    ((safeOn_iff (linked_start s)).mpr (guarded_start s))
    (eachStep_of_invariant linked_step (linked_start s) es)
  rw [safeOn_iff (linked_step p e hp)]
  exact ⟨cautious_of_guarded hp, guarded_step hp ((safeOn_iff hp).mp hsafe) e⟩

/-- The dialog is open when another client starts a print; its Start homes and heats. -/
theorem tune_over_running_print :
    ¬ (run step { state := ⟨[], by decide⟩ } [.report (.update (.ofPrintState "standby") 0),
      .opened, .start .hotend, .report (.update (.ofPrintState "printing") 1),
      .confirm]).AllRight := by
  decide

/-- The panel is opened again during a tune, and Start is there again. -/
example :
    ¬ (run step { state := ⟨[], by decide⟩ } [.opened, .start .bed, .confirm, .closed, .opened,
      .start .bed, .confirm]).AllRight := by
  decide

end PowerScreen.PidTune.Panel
