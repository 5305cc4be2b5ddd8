import Mathlib.Tactic

/-! # The cards of the Fine Tune panel

Pressure advance, speed and flow each have a card with a value and the buttons +, - and
Reset. A tap sends an absolute value that is computed from the one last reported.
-/
namespace PowerScreen.FineTune

inductive Metric where
  | pressureAdvance
  | speed
  | flow
deriving DecidableEq

inductive Button where
  | up
  | down
  | reset
deriving DecidableEq

/-- The scripts that the cards send. -/
inductive Script where
  | setPressureAdvance (advance : ℚ)
  | m220 (percent : ℤ)
  | m221 (percent : ℤ)
deriving DecidableEq

namespace Script

def metric : Script → Metric
  | setPressureAdvance _ => .pressureAdvance
  | m220 _ => .speed
  | m221 _ => .flow

/-- The value commanded, on the scale of the card. -/
def value : Script → ℚ
  | setPressureAdvance advance => advance
  | m220 percent => percent
  | m221 percent => percent

/-- What the status reports once the script has been run. -/
def effect : Script → ℚ
  | setPressureAdvance advance => advance
  | m220 percent => percent / 100
  | m221 percent => percent / 100

end Script

namespace Metric

/-- The cards of speed and flow show percent of the factor reported. -/
def scale : Metric → ℚ
  | pressureAdvance => 1
  | speed => 100
  | flow => 100

def minimum : Metric → ℚ
  | pressureAdvance => 0
  | speed => 1
  | flow => 1

end Metric

def zoffsetStep : Fin 4 → ℚ := ![1 / 100, 1 / 40, 1 / 20, 1 / 10]

def multiplierStep : Fin 4 → ℤ := ![1, 5, 10, 25]

/-- The conversion of a double drops what is behind the point. -/
def truncate (q : ℚ) : ℤ := if 0 ≤ q then ⌊q⌋ else ⌈q⌉

def newPercent (factor : ℚ) (direction : ℤ) : ℤ := max (truncate (factor * 100 + direction)) 1

/-- The two selectors, the configured pressure advance and what the status last reported;
`none` stands for null. -/
structure Panel where
  zoffsetIdx : Fin 4
  multiplierIdx : Fin 4
  configured : Option ℚ
  reported : Metric → Option ℚ

namespace Panel

def handlePa (p : Panel) (btn : Button) : Option Script :=
  if btn = .reset then p.configured.map .setPressureAdvance
  else
    (p.reported .pressureAdvance).map fun curPa =>
      let step := zoffsetStep p.zoffsetIdx
      let newPa := curPa + if btn = .up then step else -step
      .setPressureAdvance (if newPa < 0 then 0 else newPa)

/-- The cards of speed and flow differ in what is reported and what is sent. -/
def handleFactor (p : Panel) (m : Metric) (script : ℤ → Script) (btn : Button) : Option Script :=
  if btn = .reset then some (script 100)
  else
    (p.reported m).map fun factor =>
      let step := multiplierStep p.multiplierIdx
      script (newPercent factor (if btn = .up then step else -step))

def handleSpeed (p : Panel) : Button → Option Script := p.handleFactor .speed .m220

def handleFlow (p : Panel) : Button → Option Script := p.handleFactor .flow .m221

def handle (p : Panel) : Metric → Button → Option Script
  | .pressureAdvance => p.handlePa
  | .speed => p.handleSpeed
  | .flow => p.handleFlow

/-- The step that a card's buttons make. -/
def step (p : Panel) : Metric → ℚ
  | .pressureAdvance => zoffsetStep p.zoffsetIdx
  | .speed => multiplierStep p.multiplierIdx
  | .flow => multiplierStep p.multiplierIdx

def signedStep (p : Panel) (m : Metric) (btn : Button) : ℚ :=
  if btn = .up then p.step m else -p.step m

def resetValue (p : Panel) : Metric → Option ℚ
  | .pressureAdvance => p.configured
  | .speed => some 100
  | .flow => some 100

end Panel

/-- The value that a card commands where `r` is reported. -/
def Metric.next (m : Metric) (r d : ℚ) : ℚ :=
  match m with
  | .pressureAdvance => max 0 (r + d)
  | .speed => (max (truncate (r * 100 + d)) 1 : ℤ)
  | .flow => (max (truncate (r * 100 + d)) 1 : ℤ)

theorem metric_of_handlePa {p : Panel} {btn : Button} {c : Script} (h : p.handlePa btn = some c) :
    c.metric = .pressureAdvance := by
  unfold Panel.handlePa at h
  split_ifs at h
  all_goals
    obtain ⟨v, -, rfl⟩ := Option.map_eq_some_iff.mp h
    rfl

theorem metric_of_handleFactor {p : Panel} {m : Metric} (script : ℤ → Script)
    (hscript : ∀ n, (script n).metric = m) {btn : Button} {c : Script}
    (h : p.handleFactor m script btn = some c) : c.metric = m := by
  unfold Panel.handleFactor at h
  by_cases hreset : btn = .reset
  · rw [if_pos hreset] at h
    exact Option.some.inj h ▸ hscript 100
  · rw [if_neg hreset] at h
    obtain ⟨v, -, rfl⟩ := Option.map_eq_some_iff.mp h
    exact hscript _

theorem metric_of_handle {p : Panel} {m : Metric} {btn : Button} {c : Script}
    (h : p.handle m btn = some c) : c.metric = m := by
  cases m with
  | pressureAdvance => exact metric_of_handlePa h
  | speed => exact metric_of_handleFactor .m220 (fun _ => rfl) h
  | flow => exact metric_of_handleFactor .m221 (fun _ => rfl) h

theorem value_reset (p : Panel) (m : Metric) :
    (p.handle m .reset).map Script.value = p.resetValue m := by
  cases m with
  | pressureAdvance =>
    rw [Panel.handle, Panel.handlePa, if_pos rfl, Option.map_map]
    exact Option.map_id'
  | speed => rfl
  | flow => rfl

theorem value_handlePa (p : Panel) {btn : Button} (h : btn ≠ .reset) :
    (p.handlePa btn).map Script.value = (p.reported .pressureAdvance).map
      fun r => max 0 (r + p.signedStep .pressureAdvance btn) := by
  rw [Panel.handlePa, if_neg h, Option.map_map]
  congr 1
  funext r
  exact (max_def_lt' _ _).symm

theorem value_handleFactor (p : Panel) {m : Metric} {script : ℤ → Script}
    (hscript : ∀ n, (script n).value = n) (hstep : p.step m = multiplierStep p.multiplierIdx)
    {btn : Button} (h : btn ≠ .reset) :
    (p.handleFactor m script btn).map Script.value = (p.reported m).map
      fun r => ((max (truncate (r * 100 + p.signedStep m btn)) 1 : ℤ) : ℚ) := by
  rw [Panel.handleFactor, if_neg h, Option.map_map]
  congr 1
  funext r
  have hsigned : p.signedStep m btn = ((if btn = .up then multiplierStep p.multiplierIdx
      else -multiplierStep p.multiplierIdx : ℤ) : ℚ) := by
    rw [Panel.signedStep, hstep]
    split_ifs <;> push_cast <;> rfl
  rw [Function.comp_apply, hscript, newPercent, hsigned]

theorem value_step (p : Panel) (m : Metric) {btn : Button} (h : btn ≠ .reset) :
    (p.handle m btn).map Script.value =
      (p.reported m).map fun r => m.next r (p.signedStep m btn) := by
  cases m with
  | pressureAdvance => exact value_handlePa p h
  | speed => exact value_handleFactor p (fun _ => rfl) rfl h
  | flow => exact value_handleFactor p (fun _ => rfl) rfl h

end PowerScreen.FineTune
