import PowerScreen.Library.Run
import PowerScreen.Library.WidgetTree
import PowerScreen.State.PrintState
import PowerScreen.Prompt.Line

/-! # The prompt panel

The widgets of a prompt live in two containers that stay: a flex area with texts,
groups and buttons, and a footer with buttons. The panel keeps pointers to the
open group and to the LOAD and UNLOAD buttons of a manual filament change. Using a
pointer to a deleted widget is undefined and stops the model.
-/
namespace PowerScreen.Prompt
open Library Library.Run

inductive Container where
  | flex
  | footer
deriving DecidableEq

inductive Kind where
  | label (text : Text)
  | group
  | button (label command type : Text) (disabled : Bool)
deriving DecidableEq

def Kind.setDisabled (d : Bool) : Kind → Kind
  | .button l c t _ => .button l c t d
  | k => k

inductive Status where
  | running
  /-- An exception has ended the program. -/
  | aborted
  /-- A deleted widget was used. -/
  | faulted
deriving DecidableEq

structure Panel where
  state : State
  tree : WidgetTree Container Kind := .empty
  header : Text := "HEADER".toList
  visible : Bool := false
  manual : Bool := false
  /-- Not set by the constructor. -/
  groupCont : Option ℕ
  loadBtn : Option ℕ := none
  unloadBtn : Option ℕ := none
  status : Status := .running
  sent : List Text := []

def Panel.start (state : State) (groupCont : Option ℕ) : Panel := { state, groupCont }

inductive Event where
  /-- A text of `notify_gcode_response`. -/
  | response (resp : Text)
  | update (st : PowerScreen.Status) (eventtime : ℚ)
  | press (button : ℕ)

def manualHeader : Text := "MANUAL FILAMENT CHANGE".toList
def loadLabel : Text := "LOAD".toList
def unloadLabel : Text := "UNLOAD".toList

/-- The close symbol of the font in its three bytes. -/
def closeText : Text := [Char.ofNat 0xEF, Char.ofNat 0x80, Char.ofNat 0x8D] ++ "  Close".toList

namespace Panel

def printing (p : Panel) : Bool := p.state.printState = .str "printing"

def setDisabled (p : Panel) (d : Bool) : Option ℕ → Panel
  | none => p
  | some i =>
    if (p.tree.heap i).isSome then { p with tree := p.tree.modify i (Kind.setDisabled d) }
    else { p with status := .faulted }

def refreshFilamentButtons (p : Panel) : Panel :=
  let q := p.setDisabled p.printing p.loadBtn
  if q.status = .running then q.setDisabled p.printing p.unloadBtn else q

/-- What the label of a button shows in the end. -/
def shownLabel (p : Panel) (label : Text) : Text :=
  if p.manual && label = "CLOSE".toList then closeText else label

/-- Remember the LOAD and UNLOAD buttons of a manual filament change. -/
def track (p : Panel) (label : Text) (button : ℕ) : Panel :=
  if p.manual && label = loadLabel then { p with loadBtn := some button }
  else if p.manual && label = unloadLabel then { p with unloadBtn := some button }
  else p

def clean (p : Panel) : Panel :=
  { p with tree := (p.tree.clean .footer).clean .flex, loadBtn := none, unloadBtn := none }

/-- A new button is enabled; it goes to the footer, the open group or the flex area. -/
def createButton (p : Panel) (footer : Bool) (label command type : Text) : Panel :=
  let kind := Kind.button (p.shownLabel label) command type false
  let tree := if footer then some (p.tree.create .footer kind)
    else match p.groupCont with
      | none => some (p.tree.create .flex kind)
      | some g => p.tree.createUnder g kind
  match tree with
  | none => { p with status := .faulted }
  | some tree => ({ p with tree } : Panel).track label p.tree.next

def perform (p : Panel) : Action → Panel
  | .begin header => { p.clean with
      manual := header = manualHeader
      header := if header = manualHeader then
          "Manual filament change\n#A1A1A1 Select an option to continue#".toList
        else header }
  | .text text => { p with tree := p.tree.create .flex (.label text) }
  | .groupStart => { p with tree := p.tree.create .flex .group, groupCont := some p.tree.next }
  | .groupEnd => { p with groupCont := none }
  | .button footer label command type => p.createButton footer label command type
  | .show => let q := p.refreshFilamentButtons
    if q.status = .running then { q with visible := true } else q
  | .end => { p.clean with visible := false, manual := false }
  | .unsupported => p

def handleMacroResponse (p : Panel) (resp : Text) : Panel :=
  match actionCommand resp with
  | none => p
  | some command => match parseAction command with
    | none => { p with status := .aborted }
    | some a => p.perform a

/-- The store has consumed the notification before the panel does. -/
def consume (p : Panel) (j : Doc) : Panel :=
  match Json.getAt ["params", "0", "print_stats", "state"] j.json with
  | none => { p with status := .aborted }
  | some v => if v = .null then p else p.refreshFilamentButtons

def terminal (label : Text) : Bool :=
  label ∈ ["RESUME".toList, "STOP".toList, "CLOSE".toList, "X".toList]

/-- Terminal buttons hide the prompt before their command is sent. -/
def press (p : Panel) (button : ℕ) : Panel :=
  match p.tree.heap button with
  | some ⟨_, _, .button label command _ false⟩ =>
    { p with visible := p.visible && !terminal label, sent := p.sent ++ [command] }
  | _ => p

def step (p : Panel) (e : Event) : Panel :=
  if p.status = .running then
    match e with
    | .response resp => p.handleMacroResponse resp
    | .update st t =>
      ({ p with state := (p.state.receive (.update st t)).getD p.state } : Panel).consume
        (st.notification t)
    | .press button => if p.visible then p.press button else p
  else p

theorem step_of_not_running {p : Panel} (h : p.status ≠ .running) (e : Event) : p.step e = p :=
  if_neg h

theorem step_response {p : Panel} (h : p.status = .running) (resp : Text) :
    p.step (.response resp) = p.handleMacroResponse resp := if_pos h

theorem step_press {p : Panel} (h : p.status = .running) (button : ℕ) :
    p.step (.press button) = if p.visible then p.press button else p := if_pos h

end Panel
end PowerScreen.Prompt
