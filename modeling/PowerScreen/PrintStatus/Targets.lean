import PowerScreen.PrintStatus.Layers

/-! # The target shown next to a temperature

The panel shows the target it has cached. Notifications set it and every reset clears it,
while the store keeps the target last reported.
-/
namespace PowerScreen.PrintStatus
open Library Library.Run

/-- The screen with a note for each heater whether a notification has reported a target
since the last reset. -/
structure Watched where
  screen : Screen
  told : Heater → Bool := fun _ => false

variable (A : Arith)

/-- A report with a target, or after one without a reset in between. -/
def tellsTarget (r : Report) (told : Heater → Bool) (h : Heater) : Bool :=
  valueOf r h.name "target" ≠ .null || (told h && !renames r)

namespace Watched

def step (w : Watched) (e : Screen.Event) : Watched where
  screen := w.screen.step A e
  told := match e with
    | .report r => tellsTarget r w.told
    | _ => w.told

/-- Forgetting the notes leaves the screen's run. -/
theorem screen_run (w : Watched) (es : List Screen.Event) :
    (run (step A) w es).screen = run (Screen.step A) w.screen es :=
  run_map (fun v e => show (step A v e).screen = _ from rfl) w es

def start (s : State) : Watched := { screen := Screen.start s }

/-- The target last reported to the store. -/
def targetOf (s : State) (h : Heater) : Option Library.Num := arith? (s.field h.name "target")

/-- A label shows the temperature, and the stored target if that is positive. -/
def ShowsHeater (s : Screen) (h : Heater) (temperature : Json) : Prop :=
  intOf A temperature = some (some (s.gauge h).shown.1) ∧
    ∀ n, targetOf s.panel.state h = some n → 0 < n.toRat →
      (s.gauge h).shown.2 = some (A.int n)

/-- So do the labels of the heaters whose temperature a report carries. -/
def FollowsPrinter (w : Watched) : Screen.Event → Prop
  | .report r => (w.step A (.report r)).screen.running →
      ∀ h : Heater, valueOf r h.name "temperature" ≠ .null →
        ShowsHeater A (w.step A (.report r)).screen h (valueOf r h.name "temperature")
  | _ => True

/-- Where a report has a temperature and the stored target is positive, the target has been
reported since the last reset and does not round down to zero. -/
def TargetTold (w : Watched) : Screen.Event → Prop
  | .report r => (w.step A (.report r)).screen.running →
      ∀ h : Heater, valueOf r h.name "temperature" ≠ .null →
        ∀ n, targetOf (received w.screen.panel.state r) h = some n → 0 < n.toRat →
          tellsTarget r w.told h ∧ 0 < A.int n
  | _ => True

/-- The cached target is the stored one if a notification has reported it, else it is
cleared. -/
def Cached (w : Watched) : Prop := w.screen.running → ∀ h : Heater,
  (w.told h → ∀ n, targetOf w.screen.panel.state h = some n →
      (w.screen.gauge h).target = A.int n) ∧
    (w.told h = false → (w.screen.gauge h).target = -1)

end Watched

variable {A}

/-- What a report makes of the cached target. -/
def Gauge.targetAfter (g : Gauge) (r : Report) (target : Option ℤ) : ℤ :=
  target.getD (if renames r then -1 else g.target)

theorem gauge_spec {h : Heater} {g g' : Gauge} {r : Report} (hr : g.report A h r = some g') :
    ∃ target temperature, intOf A (valueOf r h.name "target") = some target ∧
      intOf A (valueOf r h.name "temperature") = some temperature ∧
      g'.target = g.targetAfter r target ∧
      g'.shown = temperature.elim g.shown fun t =>
        (t, if 0 < g.targetAfter r target then some (g.targetAfter r target) else none) := by
  obtain ⟨target, htarget, hr⟩ := Option.bind_eq_some_iff.mp hr
  obtain ⟨temperature, htemperature, hr⟩ := Option.bind_eq_some_iff.mp hr
  cases hr
  refine ⟨target, temperature, htarget, htemperature, ?_, ?_⟩
  all_goals
    cases hren : renames r <;> cases target <;> cases temperature <;>
      simp [Gauge.targetAfter, Gauge.clear, Gauge.setTarget, Gauge.showTemperature, hren]

theorem intOf_eq_none_iff (j : Json) : intOf A j = some none ↔ j = .null := by
  unfold intOf Json.optional
  split_ifs with h <;> simp [h]

theorem intOf_eq_some_iff (j : Json) (t : ℤ) :
    intOf A j = some (some t) ↔ ∃ n, arith? j = some n ∧ A.int n = t := by
  unfold intOf Json.optional
  split_ifs with h
  · simp [h, arith?]
  · simp

/-- A target that a report carries is stored as it is. -/
theorem targetOf_received (s : State) {r : Report} {h : Heater} {n : Library.Num}
    (hr : arith? (valueOf r h.name "target") = some n) :
    Watched.targetOf (received s r) h = some n := by
  cases r with
  | subscribed st id t => cases hr
  | update st t =>
    rw [Watched.targetOf, received, s.receive_eq, Option.getD_some, Report.status,
      field_mergeEntry]
    change arith? ((st.field? h.name "target").getD .null) = some n at hr
    cases hv : st.field? h.name "target" with
    | none =>
      rw [hv] at hr
      cases hr
    | some v =>
      rw [hv, Option.getD_some] at hr
      cases v with
      | num m => simpa [Json.mergePatch] using hr
      | bool b => simpa [Json.mergePatch] using hr
      | _ => cases hr

theorem targetOf_of_null {s : State} {r : Report} (hren : renames r = false) {h : Heater}
    (hr : valueOf r h.name "target" = .null) {n : Library.Num}
    (hn : Watched.targetOf (received s r) h = some n) : Watched.targetOf s h = some n := by
  cases r with
  | subscribed st id t => cases hren
  | update st t =>
    rw [Watched.targetOf, received, s.receive_eq, Option.getD_some, Report.status,
      field_mergeEntry] at hn
    change (st.field? h.name "target").getD .null = .null at hr
    cases hv : st.field? h.name "target" with
    | none => rwa [hv] at hn
    | some v =>
      rw [hv, Option.getD_some] at hr
      rw [hv, hr] at hn
      cases hn

namespace Watched

theorem targetOf_reset (s : State) (h : Heater) : targetOf s.reset h = none := by
  cases h <;> rfl

theorem cached_report {w : Watched} (hw : w.Cached A) (r : Report) :
    (w.step A (.report r)).Cached A := by
  intro hrun h
  have hrun' := Screen.running_of_step hrun
  have hstep := Screen.step_report (A := A) hrun' r
  change (w.screen.step A (.report r)).running at hrun
  simp only [step]
  cases hconsume : w.screen.consume A r with
  | none =>
    rw [hstep, hconsume] at hrun
    cases hrun
  | some s' =>
    obtain ⟨hpanel, hgauge, -⟩ := Screen.consume_spec hconsume
    obtain ⟨target, -, htarget, -, hafter, -⟩ := gauge_spec (hgauge h)
    rw [hstep, hconsume, Screen.goOn, Option.getD_some, (report_spec A hpanel).1, hafter]
    cases target with
    | some t =>
      obtain ⟨m, hm, hint⟩ := (intOf_eq_some_iff _ _).mp htarget
      have hne : valueOf r h.name "target" ≠ .null := by
        intro hnull
        rw [hnull] at hm
        cases hm
      refine ⟨fun _ n hn => ?_, fun htells => absurd htells (by simp [tellsTarget, hne])⟩
      rw [targetOf_received _ hm] at hn
      cases hn
      exact hint.symm
    | none =>
      have hnull := (intOf_eq_none_iff _).mp htarget
      have htells : tellsTarget r w.told h = (w.told h && !renames r) := by
        simp [tellsTarget, hnull]
      obtain ⟨htold, hcleared⟩ := hw hrun' h
      rw [htells]
      cases hren : renames r with
      | true => simp [Gauge.targetAfter, hren]
      | false =>
        simp only [Gauge.targetAfter, hren, Option.getD_none, Bool.not_false, Bool.and_true,
          Bool.false_eq_true, if_false]
        exact ⟨fun h n hn => htold h n (targetOf_of_null hren hnull hn), hcleared⟩

theorem cached_step {w : Watched} (hw : w.Cached A) (e : Screen.Event) : (w.step A e).Cached A := by
  by_cases he : ∃ r, e = .report r
  · obtain ⟨r, rfl⟩ := he
    exact cached_report hw r
  · push Not at he
    intro hrun h
    obtain ⟨hgauge, hstate⟩ := w.screen.gauge_step (A := A) he
    have htold : (w.step A e).told = w.told := by
      cases e with
      | report r => exact absurd rfl (he r)
      | _ => rfl
    obtain ⟨hold, hcleared⟩ := hw (Screen.running_of_step hrun) h
    rw [htold]
    simp only [step, hgauge]
    refine ⟨fun h n hn => ?_, hcleared⟩
    rcases hstate with hstate | hstate
    · exact hold h n (hstate ▸ hn)
    · rw [hstate, targetOf_reset] at hn
      cases hn

theorem followsPrinter_iff {w : Watched} (hw : w.Cached A) (e : Screen.Event) :
    w.FollowsPrinter A e ↔ w.TargetTold A e := by
  cases e with
  | report r =>
    refine forall_congr' fun hrun => forall_congr' fun h => forall_congr' fun htemp => ?_
    obtain ⟨htold, hcleared⟩ := cached_report hw r hrun h
    have hstep := Screen.step_report (A := A) (Screen.running_of_step hrun) r
    change (w.screen.step A (.report r)).running at hrun
    simp only [step] at htold hcleared ⊢
    cases hconsume : w.screen.consume A r with
    | none =>
      rw [hstep, hconsume] at hrun
      cases hrun
    | some s' =>
      obtain ⟨hpanel, hgauge, -⟩ := Screen.consume_spec hconsume
      obtain ⟨target, temperature, -, htemperature, hafter, hshown⟩ := gauge_spec (hgauge h)
      rw [hstep, hconsume, Screen.goOn, Option.getD_some] at htold hcleared ⊢
      rw [(report_spec A hpanel).1] at htold
      rw [ShowsHeater, (report_spec A hpanel).1]
      cases temperature with
      | none => exact absurd ((intOf_eq_none_iff _).mp htemperature) htemp
      | some t =>
        rw [hshown, ← hafter, Option.elim_some, and_iff_right htemperature]
        refine forall_congr' fun n => forall_congr' fun hn => forall_congr' fun _ => ?_
        cases htells : tellsTarget r w.told h with
        | true =>
          rw [htold htells n hn]
          by_cases hpos : 0 < A.int n <;> simp [hpos]
        | false => simp [hcleared htells]
  | _ => exact Iff.rfl

theorem cached_start (s : State) : (start s).Cached A :=
  fun _ h => ⟨fun htold => (nomatch htold), fun _ => (by cases h <;> rfl)⟩

variable (A)

/-- The labels follow the printer over a run exactly if no temperature is reported while a
positive target has not been, since the last reset. -/
theorem targets_followed_iff (s : State) (es : List Screen.Event) :
    EachStep (step A) (FollowsPrinter A) (start s) es ↔
      EachStep (step A) (TargetTold A) (start s) es :=
  eachStep_iff_of_invariant (I := Cached A) (fun _ e hw => followsPrinter_iff hw e)
    (fun _ e hw _ => cached_step hw e) (cached_start s) es

/-- The extruder has reached the target set before the screen connected. -/
def heated : Status where
  objects := [("extruder", [("target", .num (.int 210)), ("temperature", .num (.int 209))])]
  keys := List.pairwise_singleton _ _
  fields := by decide

def warmer : Status where
  objects := [("extruder", [("temperature", .num (.int 210))])]
  keys := List.pairwise_singleton _ _
  fields := by decide

/-- Klipper does not repeat a target, so it is not shown. -/
theorem target_not_shown : ¬ EachStep (step Job.exactArith) (FollowsPrinter Job.exactArith)
    (start ⟨[], by decide⟩) [.report (.subscribed heated 7 0), .report (.update warmer 1)] := by
  rintro ⟨-, h, -⟩
  have hshown := (h (by decide) .extruder (by decide)).2 (.int 210)
    (by decide) (by decide)
  exact absurd hshown (by decide)

end Watched

end PowerScreen.PrintStatus
