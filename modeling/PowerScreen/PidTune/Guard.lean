import PowerScreen.PidTune.Panel

/-! # The guard of the PID tune

A script is right when no print is known to run and no earlier script waits for its reply.
The buttons are disabled by what the flags say; what can part the flags from the printer is
a reply to the subscription, which sets none of them, and opening the panel during a tune.
While the dialog is open the flags are not looked at any more.
-/
namespace PowerScreen.PidTune
open Library Library.Run

def Sent.Right (m : Sent) : Prop := printingOrPaused m.printState = false ∧ m.unanswered = 0

instance (m : Sent) : Decidable m.Right := inferInstanceAs (Decidable (_ ∧ _))

/-- Taps on the panel and its dialog, replies, and a report that the printer is ready. -/
def Quiet : Event → Prop
  | .start _ | .choose _ _ | .confirm | .cancel | .reply _ => True
  | .report (.update st _) => st = .ofPrintState "standby"
  | _ => False

namespace Panel

def AllRight (p : Panel) : Prop := ∀ m ∈ p.sent, m.Right

instance (p : Panel) : Decidable p.AllRight := inferInstanceAs (Decidable (∀ m ∈ p.sent, m.Right))

/-- Whatever is tapped and replied from here on, and if the printer becomes ready, every
script is right. -/
def SafeOn (p : Panel) : Prop := ∀ es, (∀ e ∈ es, Quiet e) → (run step p es).AllRight

/-- A print is reported only while no dialog is open that can be confirmed, and by the reply
to a subscription only while the panel is closed or says so already; and the panel is opened
only while no script waits for its reply. -/
def Cautious (p : Panel) : Event → Prop
  | .report r => p.running → (p.report r).busy →
      (∀ d, p.dialog = some d → d.script (p.report r).state = none) ∧
        match r with
        | .subscribed _ _ _ => p.isOpen → p.printing
        | .update _ _ => True
  | .opened => p.running → p.dialog = none → p.pending = []
  | _ => True

/-- What holds in every run. -/
structure Linked (p : Panel) : Prop where
  disabled : p.startDisabled = (p.printing || p.tuning)
  tuning : p.tuning → p.pending ≠ []
  dialog : p.dialog ≠ none → p.isOpen ∧ p.tuning = false
  single : p.AllRight → p.pending.length ≤ 1

/-- The flags and the open dialog are true to the printer. -/
structure Guarded (p : Panel) : Prop where
  right : p.AllRight
  dialog : p.running → ∀ d, p.dialog = some d → d.script p.state ≠ none → p.busy = false
  printing : p.running → p.isOpen → p.printing = false → p.busy = false
  tuning : p.running → p.isOpen → p.pending ≠ [] → p.tuning

theorem consume_notification (p : Panel) (st : Status) (t : ℚ) :
    p.consume (st.notification t).json = match st.field? "print_stats" "state" with
      | some (.str v) => p.setPrinting (printingOrPaused (.str v))
      | _ => p := by
  rw [consume, st.getAt_notification_printState t]
  cases st.field? "print_stats" "state" with
  | none => rfl
  | some v => cases v <;> rfl

theorem printingOrPaused_mergePatch (t v : Json) :
    printingOrPaused (Json.mergePatch t v) = printingOrPaused v := by
  cases v with
  | obj ms => rfl
  | _ => rw [Json.mergePatch_of_not_object t rfl]

theorem state_report (p : Panel) (r : Report) :
    (p.report r).state = (p.state.receive r).getD p.state := by
  cases r with
  | subscribed st id t => rfl
  | update st t =>
    rw [report, consume_notification]
    split <;> rfl

/-- After a notification the printer is as it reports, if it does. -/
theorem busy_update (p : Panel) (st : Status) (t : ℚ) : (p.report (.update st t)).busy =
    match st.field? "print_stats" "state" with
      | none => p.busy
      | some v => printingOrPaused v := by
  rw [busy, state_report, State.printState_update]
  cases st.field? "print_stats" "state" with
  | none => rfl
  | some v =>
    dsimp only
    split_ifs with hnull
    · rw [hnull]
    · exact printingOrPaused_mergePatch _ v

/-- A report changes the stored state and one flag; a notification leaves that flag behind a
running print only if it was so before. -/
theorem report_spec (p : Panel) (hp : p.startDisabled = (p.printing || p.tuning)) (r : Report) :
    ∃ b, p.report r = { p with
          state := (p.report r).state, printing := b, startDisabled := b || p.tuning } ∧
      match r with
      | .subscribed _ _ _ => b = p.printing
      | .update _ _ => b = false → (p.report r).busy → p.printing = false ∧ p.busy := by
  cases r with
  | subscribed st id t =>
    refine ⟨p.printing, ?_, rfl⟩
    rw [← hp]
    rfl
  | update st t =>
    have hreport : p.report (.update st t) = _ :=
      consume_notification { p with state := (p.state.receive (.update st t)).getD p.state } st t
    have hstate := state_report p (.update st t)
    have hbusy := busy_update p st t
    rw [hstate]
    cases hfield : st.field? "print_stats" "state" with
    | none =>
      rw [hfield] at hreport hbusy
      exact ⟨p.printing, by rw [hreport, ← hp], fun hb h => ⟨hb, hbusy.symm.trans h⟩⟩
    | some v =>
      rw [hfield] at hreport hbusy
      cases v with
      | str st => exact ⟨printingOrPaused (.str st), hreport,
          fun hb h => Bool.noConfusion (hb.symm.trans (hbusy.symm.trans h))⟩
      | _ => exact ⟨p.printing, by rw [hreport, ← hp], fun _ h => Bool.noConfusion (hbusy.symm.trans h)⟩

theorem linked_start (s : State) : Linked { state := s } where
  disabled := rfl
  tuning h := Bool.noConfusion h
  dialog h := absurd rfl h
  single _ := Nat.zero_le 1

theorem guarded_start (s : State) : Guarded { state := s } where
  right _ hm := absurd hm List.not_mem_nil
  dialog _ d h := absurd h (by simp)
  printing _ h := Bool.noConfusion h
  tuning _ h := Bool.noConfusion h

/-- What the Start of a dialog does. -/
theorem confirm_cases (p : Panel) :
    (p.dialog = none ∧ p.confirm = p) ∨ ∃ d, p.dialog = some d ∧
      ((d.script p.state = none ∧ p.confirm = { p with dialog := none, running := false }) ∨
        ∃ script, d.script p.state = some script ∧ p.confirm =
          { p with
            dialog := none, tuning := true, startDisabled := true
            pending := p.pending ++ [script]
            sent := p.sent ++ [⟨request script, p.state.printState, p.pending.length⟩] }) := by
  unfold confirm
  cases hd : p.dialog with
  | none => exact Or.inl ⟨rfl, rfl⟩
  | some d =>
    refine Or.inr ⟨d, rfl, ?_⟩
    cases hs : d.script p.state with
    | none => exact Or.inl ⟨rfl, by simp [hs]⟩
    | some script => exact Or.inr ⟨script, rfl, by simp [hs, setTuning]⟩

theorem linked_step (p : Panel) (e : Event) (h : Linked p) : Linked (step p e) := by
  unfold step
  by_cases hrun : p.running
  · rw [if_pos hrun]
    cases e with
    | report r =>
      obtain ⟨b, heq, -⟩ := report_spec p h.disabled r
      dsimp only
      rw [heq]
      exact ⟨rfl, h.tuning, h.dialog, h.single⟩
    | opened =>
      dsimp only
      split_ifs with hnone
      · exact ⟨(Bool.or_false _).symm, fun ht => Bool.noConfusion ht, fun _ => ⟨rfl, rfl⟩, h.single⟩
      · exact h
    | closed =>
      dsimp only
      split_ifs with hnone
      · exact ⟨h.disabled, h.tuning, fun hd => absurd (Option.isNone_iff_eq_none.mp hnone) hd, h.single⟩
      · exact h
    | choose hh i =>
      dsimp only
      split_ifs
      · exact ⟨h.disabled, h.tuning, h.dialog, h.single⟩
      · exact h
    | start hh =>
      dsimp only
      split_ifs with henabled
      · simp only [reachable, h.disabled, Bool.and_eq_true, Bool.not_eq_true',
          Bool.or_eq_false_iff] at henabled
        exact ⟨h.disabled, h.tuning, fun _ => ⟨henabled.1.1, henabled.2.2⟩, h.single⟩
      · exact h
    | confirm =>
      dsimp only
      rcases confirm_cases p with ⟨-, heq⟩ | ⟨d, -, ⟨-, heq⟩ | ⟨script, -, heq⟩⟩
      · rwa [heq]
      · rw [heq]
        exact ⟨h.disabled, h.tuning, fun hd => absurd rfl hd, h.single⟩
      · rw [heq]
        refine ⟨(Bool.or_true _).symm, fun _ => by simp, fun hd => absurd rfl hd, fun hright => ?_⟩
        -- the new script is right, so none was waiting before it
        have hnew := (hright _ (List.mem_append_right _ (List.mem_singleton_self _))).2
        simpa using hnew
    | cancel => exact ⟨h.disabled, h.tuning, fun hd => absurd rfl hd, h.single⟩
    | reply i =>
      dsimp only [reply]
      split_ifs with hi
      · refine ⟨(Bool.or_false _).symm, fun ht => Bool.noConfusion ht,
          fun hd => ⟨(h.dialog hd).1, rfl⟩, fun hright => ?_⟩
        exact (List.length_eraseIdx_le _ _).trans (h.single hright)
      · exact h
  · rw [if_neg hrun]
    exact h

end Panel

end PowerScreen.PidTune
