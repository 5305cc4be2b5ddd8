import PowerScreen.State.PrintState
import PowerScreen.WebSocket.Client

/-! # The PID tune panel

The panel tunes the heaters of the hotend and the bed, each from a Start button with a
dialog. Two flags disable the buttons: one follows the reports of the print state, one is
set from a script's sending to its reply, and opening the panel sets both anew.
-/
namespace PowerScreen.PidTune
open Library Library.Run

inductive Heater where
  | hotend
  | bed
deriving DecidableEq

def Heater.options : Heater → List ℕ
  | .hotend => [200, 220, 240, 260]
  | .bed => [50, 60, 70, 80]

def Heater.what : Heater → String
  | .hotend => "hotend"
  | .bed => "bed"

/-- What the dialog was opened for, and what it says. -/
structure Dialog where
  heater : Heater
  target : ℕ
  message : String

def startDialog (h : Heater) (target : ℕ) : Dialog where
  heater := h
  target := target
  message := "The " ++ h.what ++ " heats to " ++ toString target ++ " °C and the PID tune runs " ++
    "for several minutes. When it finishes the result is saved and Klipper restarts."

/-- A value that is no text is an exception. -/
def isHomed (s : State) : Option Bool :=
  match s.field "toolhead" "homed_axes" with
  | .null => some false
  | .str axes => some ('x' ∈ axes.toList ∧ 'y' ∈ axes.toList ∧ 'z' ∈ axes.toList)
  | _ => none

def Dialog.script (d : Dialog) (s : State) : Option String :=
  match d.heater with
  | .hotend => (isHomed s).map fun homed => (if homed then "" else "G28\n") ++
      "G1 Z10 F600\nM106 S255\nPID_CALIBRATE HEATER=extruder TARGET=" ++ toString d.target ++
        "\nM107\nSAVE_CONFIG"
  | .bed =>
    some ("PID_CALIBRATE HEATER=heater_bed TARGET=" ++ toString d.target ++ "\nSAVE_CONFIG")

/-- A script that was sent, with the print state last reported and the number of earlier
scripts without a reply. -/
structure Sent where
  call : WebSocket.Call Unit
  printState : Json
  unanswered : ℕ

def printingOrPaused (j : Json) : Bool := j = .str "printing" || j = .str "paused"

structure Panel where
  state : State
  printing : Bool := false
  tuning : Bool := false
  /-- Both buttons are disabled alike. -/
  startDisabled : Bool := false
  /-- The chosen option of each heater. -/
  target : Heater → ℕ := fun h => match h with
    | .hotend => 220
    | .bed => 60
  isOpen : Bool := false
  dialog : Option Dialog := none
  /-- Scripts without a reply. -/
  pending : List String := []
  sent : List Sent := []
  /-- Cleared by an exception, which ends the program. -/
  running : Bool := true

inductive Event where
  | report (r : Report)
  | opened
  | closed
  | choose (h : Heater) (i : ℕ)
  | start (h : Heater)
  | confirm
  | cancel
  | reply (i : ℕ)

namespace Panel

def setPrinting (p : Panel) (b : Bool) : Panel :=
  { p with printing := b, startDisabled := b || p.tuning }

def setTuning (p : Panel) (b : Bool) : Panel :=
  { p with tuning := b, startDisabled := b || p.printing }

def busy (p : Panel) : Bool := printingOrPaused p.state.printState

def foreground (p : Panel) : Panel :=
  { (p.setPrinting p.busy).setTuning false with isOpen := true }

/-- The panel's part of a notification; a state that is no text is passed over. -/
def consume (p : Panel) (j : Json) : Panel :=
  match Json.getAt ["params", "0", "print_stats", "state"] j with
  | some (.str st) => p.setPrinting (printingOrPaused (.str st))
  | _ => p

/-- The reply to the subscription goes to the stored state alone. -/
def report (p : Panel) (r : Report) : Panel :=
  let q := { p with state := (p.state.receive r).getD p.state }
  match r with
  | .subscribed _ _ _ => q
  | .update st t => q.consume (st.notification t).json

def startTune (p : Panel) (h : Heater) : Panel := { p with dialog := some (startDialog h (p.target h)) }

def request (script : String) : WebSocket.Call Unit :=
  .paramsCb "printer.gcode.script" (.obj [("script", .str script)]) ()

/-- The Start of the dialog, which is gone before the script is made. -/
def confirm (p : Panel) : Panel :=
  match p.dialog with
  | none => p
  | some d =>
    let q := { p with dialog := none }
    match d.script p.state with
    | none => { q with running := false }
    | some script =>
      { q.setTuning true with
        pending := p.pending ++ [script]
        sent := p.sent ++ [⟨request script, p.state.printState, p.pending.length⟩] }

/-- The reply to the script, whatever it says. -/
def reply (p : Panel) (i : ℕ) : Panel :=
  if i < p.pending.length then { p.setTuning false with pending := p.pending.eraseIdx i } else p

/-- The buttons of the panel; the dialog covers the screen. -/
def reachable (p : Panel) : Bool := p.isOpen && p.dialog.isNone

def step (p : Panel) (e : Event) : Panel :=
  if p.running then
    match e with
    | .report r => p.report r
    | .opened => if p.dialog.isNone then p.foreground else p
    | .closed => if p.dialog.isNone then { p with isOpen := false } else p
    | .choose h i =>
      if p.reachable then
        { p with target := Function.update p.target h (h.options.getD i (p.target h)) }
      else p
    | .start h => if p.reachable && !p.startDisabled then p.startTune h else p
    | .confirm => p.confirm
    | .cancel => { p with dialog := none }
    | .reply i => p.reply i
  else p

end Panel

end PowerScreen.PidTune
