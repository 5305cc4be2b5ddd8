import PowerScreen.PrintStatus.Panel

/-! # The whole print status screen

Besides what is kept of the file the screen has a temperature label for each heater, with
the target it has cached, and the buttons Pause and Resume. All of them go through the
reports of the printer together.
-/
namespace PowerScreen.PrintStatus
open Library Library.Run

inductive Heater where
  | extruder
  | heaterBed
deriving DecidableEq

def Heater.name : Heater → String
  | extruder => "extruder"
  | heaterBed => "heater_bed"

/-- A temperature label shows a target while the one cached is positive. -/
structure Gauge where
  target : ℤ := -1
  shown : ℤ × Option ℤ

/-- Pause and Resume. -/
structure Actions where
  pauseHidden : Bool
  pauseDisabled : Bool
  resumeHidden : Bool
  resumeDisabled : Bool
deriving DecidableEq

structure Screen where
  panel : Panel
  extruder : Gauge := { shown := (20, none) }
  bed : Gauge := { shown := (21, none) }
  actions : Actions := ⟨false, false, true, false⟩
  /-- Requests to pause or to resume that have no reply yet. -/
  outstanding : ℕ := 0
  /-- Cleared by an exception, which ends the program. -/
  running : Bool := true

/-- The value of a field in a notification, null where it has none. -/
def valueOf (r : Report) (o f : String) : Json :=
  match r with
  | .subscribed .. => .null
  | .update st _ => (st.field? o f).getD .null

variable (A : Arith)

def intOf (j : Json) : Option (Option ℤ) := Json.optional (fun v => (arith? v).map A.int) j

namespace Gauge

def clear (g : Gauge) : Gauge := { g with target := -1 }

def setTarget (g : Gauge) (target : ℤ) : Gauge := { g with target := target }

def showTemperature (g : Gauge) (temperature : ℤ) : Gauge :=
  { g with shown := (temperature, if 0 < g.target then some g.target else none) }

/-- A reset comes first, then the target, then the temperature. -/
def report (h : Heater) (g : Gauge) (r : Report) : Option Gauge := do
  let g := if renames r then g.clear else g
  let target ← intOf A (valueOf r h.name "target")
  let temperature ← intOf A (valueOf r h.name "temperature")
  let g := target.elim g g.setTarget
  return temperature.elim g g.showTemperature

end Gauge

namespace Actions

/-- Both buttons are enabled anew. -/
def updatePauseResume (paused : Bool) : Actions := ⟨paused, false, !paused, false⟩

/-- The stored print state decides which button is shown. -/
def populate (s : State) : Option Actions :=
  (Json.optional Json.str? s.printState).map fun status => updatePauseResume (status = some "paused")

def renamed (s : State) (a : Actions) (r : Report) : Option Actions :=
  if renames r then populate s else some a

def report (s : State) (a : Actions) (r : Report) : Option Actions := do
  let a ← a.renamed s r
  let isPaused ← Json.optional Json.bool? (valueOf r "pause_resume" "is_paused")
  return isPaused.elim a updatePauseResume

end Actions

namespace Screen

inductive Event where
  | connected
  | report (r : Report)
  | metadata (i : ℕ) (j : Json)
  | pause
  | resume
  /-- The printer answers a request to pause or to resume; no callback was given for it. -/
  | answered (ok : Bool)

def gauge (s : Screen) : Heater → Gauge
  | .extruder => s.extruder
  | .heaterBed => s.bed

def consume (s : Screen) (r : Report) : Option Screen := do
  let panel ← s.panel.report A r
  let extruder ← s.extruder.report A .extruder r
  let bed ← s.bed.report A .heaterBed r
  let actions ← s.actions.report (received s.panel.state r) r
  return { s with panel := panel, extruder := extruder, bed := bed, actions := actions }

def handleMetadata (s : Screen) (i : ℕ) (j : Json) : Option Screen :=
  (s.panel.handleMetadata A j).map fun p =>
    { s with panel := { p with waiting := p.waiting.erase i } }

def goOn (s : Screen) (next : Option Screen) : Screen := next.getD { s with running := false }

def step (s : Screen) (e : Event) : Screen :=
  if s.running then
    match e with
    | .connected => { s with panel := { s.panel with state := s.panel.state.reset } }
    | .report r => s.goOn (s.consume A r)
    | .metadata i j => if i ∈ s.panel.waiting then s.goOn (s.handleMetadata A i j) else s
    | .pause =>
      if s.actions.pauseHidden || s.actions.pauseDisabled then s
      else
        { s with
          actions := { s.actions with pauseDisabled := true }
          outstanding := s.outstanding + 1 }
    | .resume =>
      if s.actions.resumeHidden || s.actions.resumeDisabled then s
      else
        { s with
          actions := { s.actions with resumeDisabled := true }
          outstanding := s.outstanding + 1 }
    | .answered _ => { s with outstanding := s.outstanding - 1 }
  else s

/-- What the constructor builds, with a store that may hold something already. -/
def start (s : State) : Screen := { panel := { state := s } }

variable {A}

theorem consume_spec {s s' : Screen} {r : Report} (h : s.consume A r = some s') :
    s.panel.report A r = some s'.panel ∧ (∀ k, (s.gauge k).report A k r = some (s'.gauge k)) ∧
      s.actions.report (received s.panel.state r) r = some s'.actions ∧
      s'.outstanding = s.outstanding ∧ s'.running = s.running := by
  obtain ⟨panel, hpanel, h⟩ := Option.bind_eq_some_iff.mp h
  obtain ⟨extruder, hextruder, h⟩ := Option.bind_eq_some_iff.mp h
  obtain ⟨bed, hbed, h⟩ := Option.bind_eq_some_iff.mp h
  obtain ⟨actions, hactions, h⟩ := Option.bind_eq_some_iff.mp h
  cases h
  refine ⟨hpanel, fun k => ?_, hactions, rfl, rfl⟩
  cases k with
  | extruder => exact hextruder
  | heaterBed => exact hbed

/-- A report is handled to its end, or the program ends. -/
theorem step_report {s : Screen} (hrun : s.running) (r : Report) :
    s.step A (.report r) = s.goOn (s.consume A r) := if_pos hrun

theorem running_of_step {s : Screen} {e : Event} (h : (s.step A e).running) : s.running := by
  by_contra hstop
  have hstep : s.step A e = s := if_neg hstop
  exact hstop (hstep ▸ h)

theorem takeEstimate_state {p q : Panel} {estimate : Option UInt32}
    (h : p.takeEstimate A estimate = some q) : q.state = p.state := by
  cases estimate with
  | none =>
    cases h
    rfl
  | some e =>
    obtain ⟨passed, -, rfl⟩ := Option.map_eq_some_iff.mp h
    cases passed <;> rfl

theorem handleMetadata_spec {s s' : Screen} {i : ℕ} {j : Json}
    (h : s.handleMetadata A i j = some s') : s'.panel.state = s.panel.state ∧
      (∀ k, s'.gauge k = s.gauge k) ∧ s'.actions = s.actions ∧
      s'.outstanding = s.outstanding := by
  obtain ⟨p, hp, rfl⟩ := Option.map_eq_some_iff.mp h
  obtain ⟨m, -, hp⟩ := Option.bind_eq_some_iff.mp hp
  obtain ⟨q, hq, hp⟩ := Option.bind_eq_some_iff.mp hp
  cases hp
  have hstate : q.state = s.panel.state := takeEstimate_state hq
  exact ⟨hstate, fun k => by cases k <;> rfl, rfl, rfl⟩

/-- Only a report changes the temperature labels; a new connection empties the store. -/
theorem gauge_step (s : Screen) {e : Event} (he : ∀ r, e ≠ .report r) :
    (∀ k, (s.step A e).gauge k = s.gauge k) ∧
      ((s.step A e).panel.state = s.panel.state ∨
        (s.step A e).panel.state = s.panel.state.reset) := by
  by_cases hrun : s.running
  · cases e with
    | connected =>
      rw [step, if_pos hrun]
      exact ⟨fun k => by cases k <;> rfl, Or.inr rfl⟩
    | report r => exact absurd rfl (he r)
    | metadata i j =>
      rw [step, if_pos hrun]
      by_cases hi : i ∈ s.panel.waiting
      · rw [if_pos hi]
        cases hm : s.handleMetadata A i j with
        | none => exact ⟨fun k => by cases k <;> rfl, Or.inl rfl⟩
        | some s' => exact ⟨(handleMetadata_spec hm).2.1, Or.inl (handleMetadata_spec hm).1⟩
      · rw [if_neg hi]
        exact ⟨fun _ => rfl, Or.inl rfl⟩
    | answered ok =>
      rw [step, if_pos hrun]
      exact ⟨fun k => by cases k <;> rfl, Or.inl rfl⟩
    | _ =>
      rw [step, if_pos hrun]
      split_ifs
      all_goals exact ⟨fun k => by cases k <;> rfl, Or.inl rfl⟩
  · have hstep : s.step A e = s := if_neg hrun
    rw [hstep]
    exact ⟨fun _ => rfl, Or.inl rfl⟩

end Screen

end PowerScreen.PrintStatus
