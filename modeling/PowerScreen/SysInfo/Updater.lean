import PowerScreen.SysInfo.PowerScript
import PowerScreen.Update.Script

/-! # The update run

The system panel runs `update.sh` on a thread that has nothing else to do than to wait for
the script and then to leave its exit code and a flag. A timer reads the status file of the
script for the steps on the screen, and ends the run by the flag, or when the restart that
the script announced is too long in coming.
-/
namespace PowerScreen.SysInfo
open Library Library.Run

/-- Where the thread of a run is: at the call of the script, behind it, or behind the
storing of the exit code. -/
inductive Stage where
  | calling
  | returned (code : ℤ)
  | stored
deriving DecidableEq

structure Thread where
  run : ℕ
  stage : Stage

structure Overlay where
  title : String := ""
  subtitle : String := ""
  phase : String := ""
  hint : String := ""
  /-- The button that closes the overlay is hidden in a run. -/
  closable : Bool := true
  hidden : Bool := true

structure Updater where
  store : State
  statusFile : Option String := none
  updateRunning : Bool := false
  updateFinished : Bool := false
  updateExitCode : ℤ := 0
  updateStep : ℤ := -1
  /-- The time the restart was announced, 0 before. -/
  restartSince : ℤ := 0
  overlay : Overlay := {}
  threads : List Thread := []
  /-- Runs begun so far; the last one set `updateRunning`. -/
  runs : ℕ := 0
  /-- The runs that set the flag and the exit code, 0 when none did. -/
  finishedBy : ℕ := 0
  exitCodeBy : ℕ := 0

inductive UpdateEvent where
  | report (r : Report)
  /-- With whether the script is found. -/
  | start (script : Bool)
  | write (content : String)
  | exit (i : ℕ) (code : ℤ)
  | storeCode (i : ℕ)
  | storeFlag (i : ℕ)
  | poll (now : ℤ) (installed : String)
  | close

def readFirstLine (file : Option String) : String :=
  String.ofList ((file.getD "").toList.takeWhile (· ≠ '\n'))

/-- What `update.sh` wrote, as a text for the screen. -/
def phaseText (status : String) : String :=
  let (phase, detail) := cutAt ':' status
  if phase = "CHECKING" then "Checking for the latest version..."
  else if phase = "DOWNLOADING" then "Downloading " ++ detail ++ "..."
  else if phase = "EXTRACTING" then "Installing " ++ detail ++ "..."
  else if phase = "RESTARTING" then "Restarting PowerScreen..."
  else if phase = "UP_TO_DATE" then "PowerScreen is already up to date (" ++ detail ++ ")."
  else if phase = "ERROR" then if detail = "" then "Update failed." else detail
  else "Preparing update..."

/-- The step on the screen, -1 for a phase that has none. -/
def phaseStep (phase : String) : ℤ :=
  if phase = "CHECKING" || phase = "DOWNLOADING" then 0
  else if phase = "EXTRACTING" then 1
  else if phase = "RESTARTING" then 2
  else -1

def stepHint (step : ℤ) : String :=
  if 2 ≤ step then "The screen will be back in a few seconds."
  else "Do not turn off the printer. The screen restarts by itself."

def startsWith (s pre : String) : Bool := pre.toList <+: s.toList

namespace Updater

def showUpdateOverlay (u : Updater) (title phase : String) (busy : Bool) : Updater :=
  { u with
    updateStep := if busy then (if u.updateStep < 0 then 0 else u.updateStep) else -1
    restartSince := if busy then u.restartSince else 0
    overlay :=
      { title := title
        subtitle := if busy then phase else ""
        phase := if busy then u.overlay.phase else phase
        hint := if busy && u.updateStep < 0 then stepHint 0 else u.overlay.hint
        closable := !busy
        hidden := false } }

/-- A thread that cannot be created leaves the run to the caller, which then has its steps
next. -/
def startUpdate (u : Updater) (script : Bool) : Updater :=
  if u.updateRunning then u
  else if isPrinting u.store then
    u.showUpdateOverlay "Update not available"
      "PowerScreen cannot be updated while a print is in progress." false
  else if !script then u.showUpdateOverlay "Update failed" "Update script not found." false
  else
    { u with
      statusFile := none, updateFinished := false, updateRunning := true, updateStep := -1
      restartSince := 0, threads := u.threads ++ [Thread.mk (u.runs + 1) .calling]
      runs := u.runs + 1 }.showUpdateOverlay "Updating PowerScreen" "Preparing update..." true

/-- The script of a thread ends. -/
def exit (u : Updater) (i : ℕ) (code : ℤ) : Updater :=
  match u.threads[i]? with
  | some ⟨r, .calling⟩ => { u with threads := u.threads.set i ⟨r, .returned code⟩ }
  | _ => u

def storeCode (u : Updater) (i : ℕ) : Updater :=
  match u.threads[i]? with
  | some ⟨r, .returned code⟩ =>
    { u with
      updateExitCode := code, exitCodeBy := r, threads := u.threads.set i ⟨r, .stored⟩ }
  | _ => u

def storeFlag (u : Updater) (i : ℕ) : Updater :=
  match u.threads[i]? with
  | some ⟨r, .stored⟩ =>
    { u with updateFinished := true, finishedBy := r, threads := u.threads.eraseIdx i }
  | _ => u

/-- The step and the subtitle by the status. -/
def showProgress (u : Updater) (status : String) (now : ℤ) (installed : String) : Updater :=
  let (phase, detail) := cutAt ':' status
  let step := phaseStep phase
  { u with
    restartSince := if phase = "RESTARTING" && u.restartSince = 0 then now else u.restartSince
    updateStep := if 0 ≤ step then step else u.updateStep
    overlay := { u.overlay with
      subtitle :=
        if detail ≠ "" && 0 ≤ step then
          (splitVersion installed).1 ++ " -> " ++ (splitVersion detail).1
        else if 0 ≤ step then "Checking for the latest version..."
        else u.overlay.subtitle
      hint := if 0 ≤ step && step ≠ u.updateStep then stepHint step else u.overlay.hint } }

/-- The restart was announced more than 30 seconds ago. -/
def overdue (u : Updater) (now : ℤ) : Bool := u.restartSince ≠ 0 && 30 < now - u.restartSince

def showOutcome (u : Updater) (status : String) : Updater :=
  if startsWith status "UP_TO_DATE" then
    u.showUpdateOverlay "No update needed" (phaseText status) false
  else if startsWith status "ERROR" then u.showUpdateOverlay "Update failed" (phaseText status) false
  else if u.updateExitCode ≠ 0 then
    u.showUpdateOverlay "Update failed" "The update script did not finish." false
  else u.showUpdateOverlay "Restart needed" "Restart PowerScreen to apply the new version." false

/-- The part of `poll_update` about the run. -/
def pollUpdate (u : Updater) (now : ℤ) (installed : String) : Updater :=
  if !u.updateRunning then u
  else
    let status := readFirstLine u.statusFile
    let u := if status = "" then u else u.showProgress status now installed
    if u.overdue now then
      { u with updateRunning := false }.showUpdateOverlay "Restart needed"
        "Restart PowerScreen to apply the new version." false
    else if !u.updateFinished then u
    else if startsWith status "RESTARTING" && u.updateExitCode = 0 then u
    else { u with updateRunning := false, restartSince := 0 }.showOutcome status

def step (u : Updater) : UpdateEvent → Updater
  | .report r => { u with store := (u.store.receive r).getD u.store }
  | .start script => u.startUpdate script
  | .write content => { u with statusFile := some content }
  | .exit i code => u.exit i code
  | .storeCode i => u.storeCode i
  | .storeFlag i => u.storeFlag i
  | .poll now installed => u.pollUpdate now installed
  | .close =>
    if u.overlay.closable then { u with overlay := { u.overlay with hidden := true } } else u

end Updater

end PowerScreen.SysInfo
