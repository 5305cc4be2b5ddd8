import PowerScreen.State.PrintState
import PowerScreen.WebSocket.Client

/-! # Starting a print

A print is started by the Print button or from the history. When the printer has
pins for the bed mesh or the purge line a dialog asks for them first, and when the
answers differ from the pins a script sets them before the print is started from
its reply. What the printer does is looked at when the flow begins only.
-/
namespace PowerScreen.PrintPanel
open Library Library.Run

inductive Mesh where
  | off
  | adaptive
  | full
deriving DecidableEq

def Mesh.command : Mesh → String
  | .off => "_BED_MESH_OFF\n"
  | .adaptive => "_ADAPTIVE_BED_MESH_ON\n"
  | .full => "_FULL_BED_MESH_ON\n"

def purgeCommand (on : Bool) : String :=
  if on then "_ADAPTIVE_PURGE_LINE_ON\n" else "_ADAPTIVE_PURGE_LINE_OFF\n"

/-- What the dialog was opened with, and what is chosen in it. -/
structure StartDialog where
  path : String
  hasMesh : Bool
  hasPurge : Bool
  currentMesh : Mesh
  currentPurge : Bool
  mesh : Mesh
  purge : Bool

/-- One line for every choice that differs, without the last line end. -/
def StartDialog.script (d : StartDialog) : String :=
  let lines := (if d.hasMesh && d.mesh ≠ d.currentMesh then d.mesh.command else "") ++
    (if d.hasPurge && d.purge ≠ d.currentPurge then purgeCommand d.purge else "")
  String.ofList lines.toList.dropLast

/-- A request to the printer, with the print state known when it was sent. -/
structure Sent where
  call : WebSocket.Call String
  printState : Json

structure Panel where
  state : State
  /-- Path of the selected file. -/
  curFile : Option String := none
  promptVisible : Bool := false
  dialog : Option StartDialog := none
  /-- The files of the prepare scripts that wait for their reply. -/
  waiting : List String := []
  /-- Cleared by an exception, which ends the program. -/
  running : Bool := true
  sent : List Sent := []

def busyState (j : Json) : Bool := j = .str "printing" || j = .str "paused"

def startRequest (path : String) : WebSocket.Call String :=
  .params "printer.print.start" (.obj [("filename", .str path)])

/-- The reply of the script continues with the file. -/
def scriptRequest (path script : String) : WebSocket.Call String :=
  .paramsCb "printer.gcode.script" (.obj [("script", .str script)]) path

inductive Event where
  | report (r : Report)
  | select (file : Option String)
  | print
  | printAgain (file : String)
  | closePrompt
  | chooseMesh (mesh : Mesh)
  | choosePurge (on : Bool)
  | cancel
  | start
  | reply (i : ℕ) (j : Json)

namespace Panel

def send (p : Panel) (call : WebSocket.Call String) : Panel :=
  { p with sent := p.sent ++ [⟨call, p.state.printState⟩] }

def startPrintNow (p : Panel) (path script : String) : Panel :=
  if script = "" then p.send (startRequest path)
  else { p.send (scriptRequest path script) with waiting := p.waiting ++ [path] }

def on (j : Json) : Bool := match j.num? with
  | some x => 1 / 2 < x.toRat
  | none => false

def beginPrintFlow (p : Panel) (path : String) : Panel :=
  let adaptive := p.state.pin "ADAPTIVE_BED_MESH"
  let full := p.state.pin "FULL_BED_MESH"
  let purge := p.state.pin "ADAPTIVE_PURGE_LINE"
  let hasMesh := adaptive.num?.isSome && full.num?.isSome
  let hasPurge := purge.num?.isSome
  let mesh := if hasMesh then
      (if on adaptive then Mesh.adaptive else if on full then .full else .off)
    else .off
  if !hasMesh && !hasPurge then p.startPrintNow path ""
  else { p with dialog := some ⟨path, hasMesh, hasPurge, mesh, hasPurge && on purge, mesh,
    hasPurge && on purge⟩ }

/-- The Print button; a state that is no text is an exception. -/
def handlePrintCallback (p : Panel) : Panel :=
  match p.curFile with
  | none => p
  | some path => match p.state.printState with
    | .null => { p with promptVisible := true }
    | .str st =>
      if st ≠ "printing" && st ≠ "paused" then p.beginPrintFlow path
      else { p with promptVisible := true }
    | _ => { p with running := false }

/-- Print again in the history, by its own test of the state. -/
def handleAction (p : Panel) (file : String) : Panel :=
  if busyState p.state.printState then p else p.beginPrintFlow file

/-- Cancel of the prompt works on a selected file only. -/
def closePrompt (p : Panel) : Panel :=
  if p.curFile.isSome then { p with promptVisible := false } else p

/-- Start of the dialog; its overlay is deleted before the requests are made. -/
def startDialogEvent (p : Panel) : Panel :=
  match p.dialog with
  | none => p
  | some d => ({ p with dialog := none } : Panel).startPrintNow d.path d.script

/-- The reply of a prepare script starts the print, whatever it says. -/
def scriptReply (p : Panel) (i : ℕ) (_j : Json) : Panel :=
  match p.waiting[i]? with
  | none => p
  | some path => ({ p with waiting := p.waiting.eraseIdx i } : Panel).send (startRequest path)

/-- The dialog and the prompt cover the screen. -/
def uncovered (p : Panel) : Bool := p.dialog.isNone && !p.promptVisible

def step (p : Panel) (e : Event) : Panel :=
  if p.running then
    match e with
    | .report r => { p with state := (p.state.receive r).getD p.state }
    | .select file => { p with curFile := file }
    | .print => if p.uncovered then p.handlePrintCallback else p
    | .printAgain file => if p.uncovered then p.handleAction file else p
    | .closePrompt => if p.promptVisible then p.closePrompt else p
    | .chooseMesh mesh => { p with dialog := p.dialog.map fun d => { d with mesh } }
    | .choosePurge on => { p with dialog := p.dialog.map fun d => { d with purge := on } }
    | .cancel => { p with dialog := none }
    | .start => p.startDialogEvent
    | .reply i j => p.scriptReply i j
  else p

/-- Every request was made while no print was known to run. -/
def Safe (p : Panel) : Prop := ∀ m ∈ p.sent, busyState m.printState = false

instance (p : Panel) : Decidable p.Safe :=
  inferInstanceAs (Decidable (∀ m ∈ p.sent, busyState m.printState = false))

/-- The two late steps, the dialog's Start and the reply of a script, happen while no
print is known to run. -/
def LateWhileIdle (p : Panel) : Event → Prop
  | .start => p.running → p.dialog.isSome → busyState p.state.printState = false
  | .reply i _ => p.running → i < p.waiting.length → busyState p.state.printState = false
  | _ => True

theorem safe_send_iff {p : Panel} (h : p.Safe) (call : WebSocket.Call String) :
    (p.send call).Safe ↔ busyState p.state.printState = false := by
  constructor
  · intro hs
    exact hs ⟨call, p.state.printState⟩ (List.mem_append_right _ List.mem_cons_self)
  · intro hb m hm
    rcases List.mem_append.mp hm with hm | hm
    · exact h m hm
    · rw [List.mem_singleton.mp hm]
      exact hb

theorem safe_startPrintNow_iff {p : Panel} (h : p.Safe) (path script : String) :
    (p.startPrintNow path script).Safe ↔ busyState p.state.printState = false := by
  unfold startPrintNow
  split_ifs
  · exact safe_send_iff h _
  · exact safe_send_iff h _

theorem safe_beginPrintFlow {p : Panel} (h : p.Safe) (hb : busyState p.state.printState = false)
    (path : String) : (p.beginPrintFlow path).Safe := by
  unfold beginPrintFlow
  dsimp only
  split_ifs
  · exact (safe_startPrintNow_iff h path "").mpr hb
  all_goals exact h

/-- Both entries test the state before the flow begins. -/
theorem safe_handlePrintCallback {p : Panel} (h : p.Safe) : p.handlePrintCallback.Safe := by
  unfold handlePrintCallback
  cases p.curFile with
  | none => exact h
  | some path =>
    cases hst : p.state.printState with
    | str st =>
      dsimp only
      split_ifs with hready
      · refine safe_beginPrintFlow h ?_ path
        simp only [Bool.and_eq_true, decide_eq_true_eq] at hready
        simp [busyState, hst, hready.1, hready.2]
      · exact h
    | _ => exact h

theorem safe_handleAction {p : Panel} (h : p.Safe) (file : String) :
    (p.handleAction file).Safe := by
  unfold handleAction
  split_ifs with hb
  · exact h
  · exact safe_beginPrintFlow h (Bool.eq_false_iff.mpr hb) file

/-- One step keeps every request safe exactly when it is not late on a running print. -/
theorem safe_step_iff {p : Panel} (h : p.Safe) (e : Event) :
    (p.step e).Safe ↔ p.LateWhileIdle e := by
  unfold step
  by_cases hrun : p.running
  · rw [if_pos hrun]
    cases e with
    | print =>
      refine iff_of_true ?_ trivial
      dsimp only
      split_ifs
      · exact safe_handlePrintCallback h
      · exact h
    | printAgain file =>
      refine iff_of_true ?_ trivial
      dsimp only
      split_ifs
      · exact safe_handleAction h file
      · exact h
    | closePrompt =>
      refine iff_of_true ?_ trivial
      dsimp only [closePrompt]
      split_ifs <;> exact h
    | start =>
      dsimp only [startDialogEvent]
      cases hd : p.dialog with
      | none => exact iff_of_true h fun _ hsome => by simp [hd] at hsome
      | some d =>
        refine (safe_startPrintNow_iff (p := { p with dialog := none }) h _ _).trans ?_
        exact ⟨fun hb _ _ => hb, fun hlate => hlate hrun (by rw [hd]; rfl)⟩
    | reply i j =>
      dsimp only [scriptReply]
      cases hw : p.waiting[i]? with
      | none =>
        refine iff_of_true h fun _ hi => ?_
        rw [List.getElem?_eq_getElem hi] at hw
        cases hw
      | some path =>
        have hi : i < p.waiting.length := (List.getElem?_eq_some_iff.mp hw).1
        refine (safe_send_iff (p := { p with waiting := p.waiting.eraseIdx i }) h _).trans ?_
        exact ⟨fun hb _ _ => hb, fun hlate => hlate hrun hi⟩
    | _ => exact iff_of_true h trivial
  · rw [if_neg hrun]
    refine iff_of_true h ?_
    cases e with
    | start => exact fun hr => absurd hr hrun
    | reply i j => exact fun hr => absurd hr hrun
    | _ => trivial

/-- In every run of the panel a request is sent over a running print never, exactly
when no dialog is answered and no script replied to while one is known to run. -/
theorem idle_throughout_iff (s : State) (es : List Event) :
    Throughout step Safe { state := s } es ↔ EachStep step LateWhileIdle { state := s } es :=
  throughout_iff_eachStep (P := Safe) (fun _ e h => safe_step_iff h e) (by simp [Safe]) es

/-- A printer with pins for the mesh, ready for a print. -/
def readyWithPins : Status where
  objects := [("output_pin ADAPTIVE_BED_MESH", [("value", .num (.int 0))]),
    ("output_pin FULL_BED_MESH", [("value", .num (.int 0))]),
    ("print_stats", [("state", .str "standby")])]
  keys := by decide
  fields := by decide

/-- While the dialog is open another client starts a print; Start starts the next. -/
theorem start_over_running_print :
    ¬ Throughout step Safe { state := ⟨[], by decide⟩ }
      [.report (.update readyWithPins 0), .select (some "a.gcode"), .print,
        .report (.update (.ofPrintState "printing") 1), .start] := by
  intro h
  have hlast : Safe _ := h.2.2.2.2.2
  exact absurd hlast (by decide +kernel)

end Panel
end PowerScreen.PrintPanel
