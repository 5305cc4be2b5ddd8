import Mathlib.Data.Fin.VecNotation
import PowerScreen.Library.Gcode
import PowerScreen.Library.Run

/-! # Manual moves

The Movement panel jogs the axes and the Filament panel extrudes and retracts. Every tap
sends one script, which sets a mode of the printer for its own move.
-/
namespace PowerScreen.Moves
open Library.Gcode Library.Run

inductive Message where
  | gcodeScript (script : List Char)
  | jsonrpc (method : String)
deriving DecidableEq

inductive Axis where
  | x
  | y
  | z
deriving DecidableEq

def Axis.letter : Axis → Char
  | x => 'X'
  | y => 'Y'
  | z => 'Z'

/-- The labels of the distance selector. -/
def distances : Fin 7 → List Char :=
  ![['.', '1'], ['.', '5'], ['1'], ['5'], ['1', '0'], ['2', '5'], ['5', '0']]

structure HomingPanel where
  distanceIdx : Fin 7 := 2

namespace HomingPanel

inductive Button where
  | homeAll
  | homeXy
  | homeZ
  | jog (axis : Axis) (up : Bool)
  | emergency
  | motoroff
  | back
deriving DecidableEq

def moveOp (p : HomingPanel) (axis : Axis) (up : Bool) : List Char :=
  ['G', '0'] ++ ' ' :: axis.letter :: (if up then '+' else '-') ::
    (distances p.distanceIdx ++ [' ', 'F', '1', '2', '0', '0'])

def handleCallback (p : HomingPanel) : Button → List Message
  | .homeAll => [.gcodeScript "G28 X Y Z".toList]
  | .homeXy => [.gcodeScript "G28 X Y".toList]
  | .homeZ => [.gcodeScript "G28 Z".toList]
  | .jog axis up => [.gcodeScript (['G', '9', '1'] ++ '\n' :: p.moveOp axis up)]
  | .emergency => [.jsonrpc "printer.emergency_stop"]
  | .motoroff => [.gcodeScript "M84".toList]
  | .back => []

end HomingPanel

/-- The labels of the selectors of the Filament panel. -/
def temperatures : Fin 7 → ℕ := ![180, 190, 200, 210, 220, 230, 240]

def lengths : Fin 7 → ℕ := ![5, 10, 15, 20, 25, 30, 35]

def speeds : Fin 7 → ℕ := ![1, 2, 5, 10, 25, 35, 50]

structure ExtruderPanel where
  tempIdx : Fin 7 := 6
  lengthIdx : Fin 7 := 1
  speedIdx : Fin 7 := 2
  loadFilamentMacro : List Char := "LOAD_FILAMENT".toList
  unloadFilamentMacro : List Char := "UNLOAD_FILAMENT".toList
  cooldownMacro : List Char := "SET_HEATER_TEMPERATURE HEATER=extruder TARGET=0".toList

namespace ExtruderPanel

inductive Button where
  | extrude
  | retract
  | unload
  | manualChange
  | load
  | cooldown
  | spoolman
  | back
deriving DecidableEq

def temp (p : ExtruderPanel) : List Char := Nat.toDigits 10 (temperatures p.tempIdx)

def len (p : ExtruderPanel) : List Char := Nat.toDigits 10 (lengths p.lengthIdx)

/-- The two buttons differ in the sign of the length. -/
def feed (p : ExtruderPanel) (sign : List Char) : List Char :=
  ['M', '1', '0', '9'] ++ ' ' :: 'S' :: p.temp ++ '\n' ::
    (['M', '8', '3'] ++ '\n' ::
      (['G', '1'] ++ ' ' :: 'E' :: (sign ++ p.len ++
        ' ' :: 'F' :: Nat.toDigits 10 (speeds p.speedIdx * 60))))

def handleCallback (p : ExtruderPanel) : Button → List Message
  | .extrude => [.gcodeScript (p.feed [])]
  | .retract => [.gcodeScript (p.feed ['-'])]
  | .unload =>
    if p.unloadFilamentMacro = "_PS_QUIT_MATERIAL".toList then
      [.gcodeScript (p.unloadFilamentMacro ++ " EXTRUDER_TEMP=".toList ++ p.temp)]
    else [.gcodeScript p.unloadFilamentMacro]
  | .manualChange => [.gcodeScript "_PS_MANUAL_CHANGE_PROMPT".toList]
  | .load =>
    if p.loadFilamentMacro = "_PS_LOAD_MATERIAL".toList then
      [.gcodeScript (p.loadFilamentMacro ++ " EXTRUDER_TEMP=".toList ++ p.temp ++
        " EXTRUDE_LEN=".toList ++ p.len)]
    else [.gcodeScript p.loadFilamentMacro]
  | .cooldown => [.gcodeScript p.cooldownMacro]
  | .spoolman => []
  | .back => []

end ExtruderPanel

/-- The two panels and the modes of the printer. -/
structure Screen where
  homing : HomingPanel
  extruder : ExtruderPanel
  modes : Modes

/-- The taps for manual moves, and the selections between them. -/
inductive Tap where
  | jog (axis : Axis) (up : Bool)
  | extrude
  | retract
  | distance (idx : Fin 7)
  | temp (idx : Fin 7)
  | length (idx : Fin 7)
  | speed (idx : Fin 7)
deriving DecidableEq

def runMessage (m : Modes) : Message → Modes
  | .gcodeScript script => m.runScript script
  | .jsonrpc _ => m

namespace Screen

def send (s : Screen) (ms : List Message) : Screen :=
  { s with modes := ms.foldl runMessage s.modes }

def step (s : Screen) : Tap → Screen
  | .jog axis up => s.send (s.homing.handleCallback (.jog axis up))
  | .extrude => s.send (s.extruder.handleCallback .extrude)
  | .retract => s.send (s.extruder.handleCallback .retract)
  | .distance idx => { s with homing := { s.homing with distanceIdx := idx } }
  | .temp idx => { s with extruder := { s.extruder with tempIdx := idx } }
  | .length idx => { s with extruder := { s.extruder with lengthIdx := idx } }
  | .speed idx => { s with extruder := { s.extruder with speedIdx := idx } }

end Screen

/-- What a tap does to the modes, whatever is selected. -/
def Tap.effect : Tap → Modes → Modes
  | .jog _ _, m => { m with absoluteCoord := false }
  | .extrude, m => { m with absoluteExtrude := false }
  | .retract, m => { m with absoluteExtrude := false }
  | _, m => m

/-- The mode that the tap's script sets is the one in force. -/
def Tap.Keeps (m : Modes) : Tap → Prop
  | .jog _ _ => m.absoluteCoord = false
  | .extrude => m.absoluteExtrude = false
  | .retract => m.absoluteExtrude = false
  | _ => True

theorem newline_not_mem_toDigits (n : ℕ) : '\n' ∉ Nat.toDigits 10 n := fun h =>
  absurd (Nat.isDigit_of_mem_toDigits (by decide) (by decide) h) (by decide)

theorem newline_not_mem_moveOp (p : HomingPanel) (axis : Axis) (up : Bool) :
    '\n' ∉ p.moveOp axis up := by
  have hdistance : ∀ i, '\n' ∉ distances i := by decide
  cases axis <;> cases up <;> simp [HomingPanel.moveOp, Axis.letter, hdistance]

/-- A jog leaves the coordinates relative. -/
theorem runScript_jog (p : HomingPanel) (axis : Axis) (up : Bool) (m : Modes) :
    m.runScript (['G', '9', '1'] ++ '\n' :: p.moveOp axis up) =
      { m with absoluteCoord := false } := by
  have hmove : ∀ m : Modes, m.runScript (p.moveOp axis up) = m := fun m => by
    rw [m.runScript_line (newline_not_mem_moveOp p axis up) (List.cons_ne_nil _ _),
      Modes.runLine, HomingPanel.moveOp, command_append_space (by decide)]
    rfl
  rw [m.runScript_line_append (by decide), hmove]
  rfl

/-- Extruding and retracting leave the extrusion relative. -/
theorem runScript_feed (p : ExtruderPanel) {sign : List Char} (hsign : '\n' ∉ sign) (m : Modes) :
    m.runScript (p.feed sign) = { m with absoluteExtrude := false } := by
  have hheat : '\n' ∉ ['M', '1', '0', '9'] ++ ' ' :: 'S' :: p.temp := by
    simp [ExtruderPanel.temp, newline_not_mem_toDigits]
  have hmove : '\n' ∉ ['G', '1'] ++ ' ' :: 'E' :: (sign ++ p.len ++
      ' ' :: 'F' :: Nat.toDigits 10 (speeds p.speedIdx * 60)) := by
    simp [ExtruderPanel.len, newline_not_mem_toDigits, hsign]
  rw [ExtruderPanel.feed, m.runScript_line_append hheat, Modes.runLine,
    command_append_space (by decide), Modes.runScript_line_append _ (by decide),
    Modes.runScript_line _ hmove (List.cons_ne_nil _ _)]
  rw [Modes.runLine, Modes.runLine, command_append_space (by decide)]
  rfl

theorem modes_step (s : Screen) (t : Tap) : (s.step t).modes = t.effect s.modes := by
  cases t with
  | jog axis up => exact runScript_jog s.homing axis up s.modes
  | extrude => exact runScript_feed s.extruder (by decide) s.modes
  | retract => exact runScript_feed s.extruder (by decide) s.modes
  | _ => rfl

/-- A run acts on the modes tap by tap. -/
theorem modes_run (s : Screen) (ts : List Tap) :
    (run Screen.step s ts).modes = run (fun m t => t.effect m) s.modes ts :=
  run_map modes_step s ts

/-- No tap sets a mode back to absolute. -/
theorem effect_run_le (m : Modes) (ts : List Tap) :
    (run (fun m t => t.effect m) m ts).absoluteCoord ≤ m.absoluteCoord ∧
      (run (fun m t => t.effect m) m ts).absoluteExtrude ≤ m.absoluteExtrude := by
  induction ts generalizing m with
  | nil => exact ⟨le_rfl, le_rfl⟩
  | cons t ts ih =>
    have ht : (t.effect m).absoluteCoord ≤ m.absoluteCoord ∧
        (t.effect m).absoluteExtrude ≤ m.absoluteExtrude := by
      cases t <;> simp [Tap.effect]
    exact ⟨(ih _).1.trans ht.1, (ih _).2.trans ht.2⟩

theorem effect_eq_iff (m : Modes) (t : Tap) : t.effect m = m ↔ t.Keeps m := by
  obtain ⟨coord, extrude⟩ := m
  cases t <;> simp [Tap.effect, Tap.Keeps, eq_comm]

theorem modes_kept_iff (s : Screen) (ts : List Tap) :
    (run Screen.step s ts).modes = s.modes ↔ ∀ t ∈ ts, t.Keeps s.modes := by
  rw [modes_run]
  generalize s.modes = m
  induction ts generalizing m with
  | nil => simp
  | cons t ts ih =>
    rw [run_cons, List.forall_mem_cons]
    constructor
    · intro h
      have hle := effect_run_le (t.effect m) ts
      rw [h] at hle
      have hback : (t.effect m).absoluteCoord ≤ m.absoluteCoord ∧
          (t.effect m).absoluteExtrude ≤ m.absoluteExtrude := effect_run_le m [t]
      have hm : t.effect m = m := by
        have hcoord := le_antisymm hback.1 hle.1
        have hextrude := le_antisymm hback.2 hle.2
        cases h' : t.effect m
        cases m
        simp_all
      rw [hm] at h
      exact ⟨(effect_eq_iff m t).mp hm, (ih m).mp h⟩
    · rintro ⟨ht, hts⟩
      rw [(effect_eq_iff m t).mpr ht]
      exact (ih m).mpr hts

/-- One jog from absolute coordinates leaves them relative. -/
theorem jog_changes_modes : ¬ ∀ (s : Screen) (ts : List Tap),
    (run Screen.step s ts).modes = s.modes := by
  intro h
  have hjog := h ⟨{}, {}, ⟨true, true⟩⟩ [.jog .x true]
  revert hjog
  decide

end PowerScreen.Moves
