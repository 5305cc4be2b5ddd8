import PowerScreen.TmcTune.Line

/-! # Saving the motor driver tuning and reading it back

A name comes through when it has no separator and fits the buffer of the panel; the
threshold when the panel reads the option it was stored under.
-/
namespace PowerScreen.TmcTune
open Library

/-- A threshold is stored under the name the panel reads, or is the one it assumes. -/
def ThresholdRead (c : Container) : Prop := c.hasSg → c.sgRange.1 = 0 ∨ c.threshold = 1

/-- The name can be carried by the line. -/
def NameCarried (name : String) : Prop := Separated name ∧ name.toList.length ≤ 127

/-- The line is executed, and the panel shows the same from the new configuration. -/
def ReadsBack (gcmdGet : String → String → Option String) (motors : List String)
    (config : List (String × Json)) (key : String) (c : Container) : Prop :=
  ∃ config', cmdPowerscreenSaveConfig config (gcmdGet c.getConfigMacro) = some config' ∧
    key ∈ configuredSteppers config' ∧
    ∃ d, container motors config' key = some d ∧ d.shown = c.shown

section ReadBack

variable {gcmdGet : String → String → Option String} {motors : List String}
  {config : List (String × Json)} {key : String} {c₀ c : Container}

/-- The container of a driver after the user has chosen a motor, a goal and a threshold
in the range of the driver. -/
structure Chosen (motors : List String) (config : List (String × Json)) (key : String)
    (c : Container) : Prop where
  configured : key ∈ configuredSteppers config
  shown : ∃ c₀, container motors config key = some c₀ ∧
    c = { c₀ with motorIdx := c.motorIdx, goalIdx := c.goalIdx, threshold := c.threshold }
  motor : ∃ motor ∈ motors, c.motorText = afterSpace motor ∧ c.motorText ≠ "Not Configured"
  goal : c.goalIdx < 4
  threshold : c.hasSg → c.sgRange.1 ≤ c.threshold ∧ c.threshold ≤ c.sgRange.2

namespace Chosen

theorem fields (h : Chosen motors config key c) : c.name = afterSpace key ∧ c.motors = motors := by
  obtain ⟨c₀, hinit, hc⟩ := h.shown
  obtain ⟨hname, hmotors, -⟩ := container_fields hinit
  rw [hc]
  exact ⟨hname, hmotors⟩

theorem range (h : Chosen motors config key c) (hsg : c.hasSg) :
    c.sgRange = (0, 255) ∨ c.sgRange = (-64, 63) := by
  obtain ⟨c₀, hinit, hc⟩ := h.shown
  obtain ⟨-, -, hrange, stall, -, hhas⟩ := container_fields hinit
  have hsg₀ : c₀.hasSg := by
    rw [hc] at hsg
    exact hsg
  rw [hhas, Bool.and_eq_true] at hsg₀
  obtain ⟨r, hr⟩ := Option.isSome_iff_exists.mp hsg₀.2
  rw [hc, show _ = c₀.sgRange from rfl, hrange, hr]
  exact sgRange_cases hr

theorem written (h : Chosen motors config key c) (d : List (String × String)) :
    container motors (written config (afterSpace key) d) key =
      (tuned motors c.sgRange (some (sectionJson d))).map fun shown =>
        { c with
          motorIdx := shown.1, goalIdx := shown.2.1, threshold := inRange c.sgRange shown.2.2 } := by
  obtain ⟨c₀, hinit, hc⟩ := h.shown
  rw [container_written hinit, hc]

/-- What is shown afterwards, when the line carries the name. -/
theorem shown_written (h : Chosen motors config key c) (hcarry : NameCarried c.motorText) :
    ∃ e, container motors (TmcTune.written config (afterSpace key) (pairsList c)) key = some e ∧
      e.motorText = c.motorText ∧ e.goalText = c.goalText ∧ e.hasSg = c.hasSg ∧
      e.threshold = inRange c.sgRange
        (if c.hasSg ∧ c.sgRange.1 = 0 then c.threshold else defaultThreshold c.sgRange) := by
  have hint : c.hasSg → -2 ^ 15 ≤ c.threshold ∧ c.threshold < 2 ^ 15 := by
    intro hsg
    have hbound := h.threshold hsg
    rcases h.range hsg with hr | hr <;> rw [hr] at hbound <;> omega
  rw [h.written, tuned_pairsList h.goal (selectedStr_eq_self hcarry.2) hint]
  refine ⟨_, rfl, ?_, rfl, rfl, rfl⟩
  obtain ⟨motor, hmem, htext, -⟩ := h.motor
  have hmotors := h.fields.2
  refine motorText_motorIdx_of_mem (by rw [hmotors]) ?_
  rw [hmotors, htext]
  exact List.mem_map.mpr ⟨motor, hmem, rfl⟩

/-- The threshold that comes out is the chosen one. -/
theorem threshold_iff (h : Chosen motors config key c) :
    (c.hasSg → inRange c.sgRange (if c.hasSg ∧ c.sgRange.1 = 0 then c.threshold
      else defaultThreshold c.sgRange) = c.threshold) ↔ ThresholdRead c := by
  refine imp_congr_right fun hsg => ?_
  have hbound := h.threshold hsg
  rcases h.range hsg with hr | hr
  · rw [hr] at hbound
    rw [hr, if_pos ⟨hsg, rfl⟩]
    refine iff_of_true ?_ (Or.inl rfl)
    rw [inRange, min_eq_left hbound.2, max_eq_right hbound.1]
  · rw [hr, if_neg (by simp)]
    simp [inRange, defaultThreshold, eq_comm]

theorem cmd (h : Chosen motors config key c) (hget : PassesQuoted gcmdGet)
    (hstepper : Plain (afterSpace key)) (hmotor : Plain c.motorText) :
    cmdPowerscreenSaveConfig config (gcmdGet c.getConfigMacro) =
      (pairsOf c.keyValues).map (TmcTune.written config (afterSpace key)) := by
  obtain ⟨motor, -, -, hnamed⟩ := h.motor
  have hname := h.fields.1
  rw [cmd_getConfigMacro hget h.goal (hname ▸ hstepper) hmotor hnamed, hname]

theorem pairsOf (h : Chosen motors config key c) (hcarry : Separated c.motorText) :
    pairsOf c.keyValues = some (pairsList c) :=
  pairsOf_keyValues h.goal (separated_selectedStr hcarry)

/-- A motor that is shown again was carried by the line. -/
theorem nameCarried (h : Chosen motors config key c) {d : List (String × String)} {e : Container}
    (hd : TmcTune.pairsOf c.keyValues = some d)
    (he : container motors (TmcTune.written config (afterSpace key) d) key = some e)
    (htext : e.motorText = c.motorText) : NameCarried c.motorText := by
  obtain ⟨motor, -, -, hnamed⟩ := h.motor
  have hmotors := h.fields.2
  rw [h.written] at he
  obtain ⟨shown, htuned, rfl⟩ := Option.map_eq_some_iff.mp he
  have hstored : ("motor", c.motorText) ∈ d := by
    rcases tuned_motor htuned with hzero | ⟨v, hv, hidx⟩
    · refine absurd ?_ hnamed
      rw [← htext, Container.motorText]
      simp only [hzero]
    · rcases motorText_motorIdx (c := { c with
          motorIdx := shown.1, goalIdx := shown.2.1, threshold := inRange c.sgRange shown.2.2 })
          (by rw [hmotors, ← hidx]) with hv' | hnone
      · rwa [← htext, hv']
      · exact absurd (htext.symm.trans hnone) hnamed
  have hsep : Separated c.motorText := separators_not_mem hd hstored
  rw [h.pairsOf hsep, Option.some.injEq] at hd
  rw [← hd] at hstored
  exact ⟨hsep, selectedStr_eq_self_iff.mp (eq_of_mem_pairsList hstored).symm⟩

/-- What is read back has the name and the threshold it was written with. -/
theorem of_readsBack (h : Chosen motors config key c) (hget : PassesQuoted gcmdGet)
    (hstepper : Plain (afterSpace key)) (hmotor : Plain c.motorText)
    (hback : ReadsBack gcmdGet motors config key c) :
    NameCarried c.motorText ∧ ThresholdRead c := by
  obtain ⟨config', hexec, -, e, he, hshown⟩ := hback
  rw [h.cmd hget hstepper hmotor] at hexec
  obtain ⟨d, hd, rfl⟩ := Option.map_eq_some_iff.mp hexec
  simp only [Container.shown, Prod.mk.injEq] at hshown
  have hcarry := h.nameCarried hd he hshown.1
  rw [h.pairsOf hcarry.1, Option.some.injEq] at hd
  obtain ⟨e', he', -, -, hes, het⟩ := h.shown_written hcarry
  rw [hd, he, Option.some.injEq] at he'
  refine ⟨hcarry, h.threshold_iff.mp fun hsg => ?_⟩
  simpa [he', hes, het, hsg] using hshown.2.2

end Chosen

end ReadBack

/-- The parameters of a line with two quoted values. -/
def quotedGet (line key : String) : Option String :=
  match Json.splitOn '"' line.toList with
  | [_, sect, _, pairs, _] =>
    if key = "SECTION" then some (String.ofList sect)
    else if key = "KEY_VALUE" then some (String.ofList pairs) else none
  | _ => none

theorem splitOn_quoted {a b e sect pairs : String} {first third : List Char}
    (ha : a.toList = first ++ ['"']) (hb : b.toList = '"' :: (third ++ ['"']))
    (he : e.toList = ['"']) (hfirst : '"' ∉ first) (hsect : '"' ∉ sect.toList)
    (hthird : '"' ∉ third) (hpairs : '"' ∉ pairs.toList) :
    Json.splitOn '"' (a ++ sect ++ b ++ pairs ++ e).toList =
      [first, sect.toList, third, pairs.toList, []] := by
  have hline : (a ++ sect ++ b ++ pairs ++ e).toList = first ++ '"' :: (sect.toList ++ '"' ::
      (third ++ '"' :: (pairs.toList ++ '"' :: []))) := by
    simp [String.toList_append, ha, hb, he]
  rw [hline, Json.splitOn_append hfirst, Json.splitOn_append hsect, Json.splitOn_append hthird,
    Json.splitOn_append hpairs, Json.splitOn]

theorem passesQuoted_quotedGet : PassesQuoted quotedGet := by
  intro sect pairs hsect hpairs
  have hquote : ∀ s : String, Plain s → '"' ∉ s.toList := by
    intro s h hq
    have hnot := h '"' hq
    simp at hnot
  have hsplit : Json.splitOn '"' (saveLine sect pairs).toList = _ :=
    splitOn_quoted (by decide) (by decide) (by decide)
      (show '"' ∉ "_PS_SAVE_CONFIG SECTION=".toList by decide) (hquote sect hsect)
      (show '"' ∉ " KEY_VALUE=".toList by decide) (hquote pairs hpairs)
  rw [quotedGet, quotedGet, hsplit]
  exact ⟨congrArg some String.ofList_toList, congrArg some String.ofList_toList⟩

/-- A printer that homes its x axis against a stall, before it is tuned. -/
def stallHoming (driver : String) : List (String × Json) :=
  [("stepper_x", .obj [("endstop_pin", .str "stepper_x:virtual_endstop")]),
    (driver ++ " stepper_x", .obj [])]

def sampleMotors : List String := ["motor_constants 42sth48"]

/-- The only motor, the goal `performance` and a threshold are chosen. -/
def stallContainer (driver : String) (threshold : ℤ) : Container :=
  { name := "stepper_x", motors := sampleMotors, motorIdx := 1, goalIdx := 2, hasSg := true,
    threshold, sgRange := (tmcSgRange.lookup driver).getD (0, 0) }

theorem chosen_stallContainer :
    Chosen sampleMotors (stallHoming "tmc2209") "tmc2209 stepper_x"
      (stallContainer "tmc2209" 100) ∧
    Chosen sampleMotors (stallHoming "tmc5160") "tmc5160 stepper_x"
      (stallContainer "tmc5160" 10) := by
  constructor
  · refine ⟨by decide +kernel, ⟨{ stallContainer "tmc2209" 80 with motorIdx := 0, goalIdx := 0 },
      by decide +kernel, rfl⟩, ⟨_, List.mem_singleton_self _, rfl, by decide⟩, by decide, ?_⟩
    exact fun _ => by decide
  · refine ⟨by decide +kernel, ⟨{ stallContainer "tmc5160" 1 with motorIdx := 0, goalIdx := 0 },
      by decide +kernel, rfl⟩, ⟨_, List.mem_singleton_self _, rfl, by decide⟩, by decide, ?_⟩
    exact fun _ => by decide

theorem plain_stallContainer : Plain (afterSpace "tmc2209 stepper_x") ∧
    Plain (afterSpace "tmc5160 stepper_x") ∧
    ∀ driver t, Plain (stallContainer driver t).motorText := by
  refine ⟨by decide +kernel, by decide +kernel, fun driver t => ?_⟩
  change Plain (afterSpace "motor_constants 42sth48")
  decide +kernel

end PowerScreen.TmcTune
