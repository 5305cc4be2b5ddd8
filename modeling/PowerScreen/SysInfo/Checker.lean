import PowerScreen.SysInfo.Updater

/-! # The update check

The check for a new release runs `update.sh --check` on a thread of its own, which reads the
channel when the script starts and leaves the answer for a timer to show. While it is under
way no other check is begun.
-/
namespace PowerScreen.SysInfo
open Library Library.Run Update

inductive CheckResult where
  | noData
  | updateAvailable
  | upToDate
  | error
deriving DecidableEq

/-- The answers that are about a channel. -/
def CheckResult.isAnswer : CheckResult → Bool
  | .updateAvailable | .upToDate => true
  | _ => false

def CheckResult.text : CheckResult → String
  | .updateAvailable => "NEW UPDATE AVAILABLE!"
  | .upToDate => "UP TO DATE"
  | _ => "CHECK FAILED"

/-- What the script printed. -/
def checkResult (output : String) : CheckResult :=
  if startsWith output "UPDATE_AVAILABLE:" then .updateAvailable
  else if startsWith output "UP_TO_DATE:" then .upToDate
  else .error

/-- Where the thread of a check is. The channel is the one its script has read, and none
when there was no script to run. -/
inductive CheckThread where
  | created
  | asking (channel : Channel)
  | answered (channel : Option Channel) (result : CheckResult)
  | stored
  | announced

structure Checker where
  /-- The entry `update_channel` of the configuration. -/
  updateChannel : Json := .null
  status : String := ""
  buttonDisabled : Bool := true
  checkRunning : Bool := false
  checkDone : Bool := false
  result : CheckResult := .noData
  threads : List CheckThread := []
  /-- The channel of the result, and of the result that was shown last. -/
  resultFor : Option Channel := none
  shownFor : Option Channel := none

inductive CheckEvent where
  | check
  | choose (selected : ℕ)
  | begin (i : ℕ)
  | fail (i : ℕ)
  /-- The output of the script, none for an exception. -/
  | answer (i : ℕ) (output : Option String)
  | storeResult (i : ℕ)
  | announce (i : ℕ)
  | clear (i : ℕ)
  | poll

/-- `update_channel`, and the channel of the script: all that is not `stable` is nightly. -/
def channelOf (entry : Json) : Channel := if entry = .str "stable" then .stable else .nightly

/-- The entries of the drop-down list. -/
def selectedChannel (selected : ℕ) : Channel := if selected = 1 then .stable else .nightly

namespace Checker

def channel (c : Checker) : Channel := channelOf c.updateChannel

def checkForUpdate (c : Checker) : Checker :=
  { c with
    status := "CHECKING...", buttonDisabled := true, checkRunning := true
    threads := if c.checkRunning then c.threads else c.threads ++ [.created] }

def setChannel (c : Checker) (channel : Channel) : Checker :=
  { c with updateChannel := .str channel.text }

/-- The drop-down list of the channels. -/
def handleCallback (c : Checker) (selected : ℕ) : Checker :=
  if selectedChannel selected ≠ c.channel then
    (c.setChannel (selectedChannel selected)).checkForUpdate
  else c

/-- The next step of a thread, if it is where the step is taken. -/
def advance (c : Checker) (i : ℕ) (f : CheckThread → Option (Checker × CheckThread)) : Checker :=
  match c.threads[i]?.bind f with
  | some (d, t) => { d with threads := c.threads.set i t }
  | none => c

def beginScript (c : Checker) (i : ℕ) : Checker :=
  c.advance i fun
    | .created => some (c, .asking c.channel)
    | _ => none

def failScript (c : Checker) (i : ℕ) : Checker :=
  c.advance i fun
    | .created => some (c, .answered none .error)
    | _ => none

def answer (c : Checker) (i : ℕ) (output : Option String) : Checker :=
  c.advance i fun
    | .asking channel => some (c, .answered (some channel) ((output.map checkResult).getD .error))
    | _ => none

def storeResult (c : Checker) (i : ℕ) : Checker :=
  c.advance i fun
    | .answered channel r => some ({ c with result := r, resultFor := channel }, .stored)
    | _ => none

def announce (c : Checker) (i : ℕ) : Checker :=
  c.advance i fun
    | .stored => some ({ c with checkDone := true }, .announced)
    | _ => none

/-- The last step of a thread. -/
def clear (c : Checker) (i : ℕ) : Checker :=
  match c.threads[i]? with
  | some .announced => { c with checkRunning := false, threads := c.threads.eraseIdx i }
  | _ => c

/-- The part of `poll_update` about the check. -/
def pollUpdate (c : Checker) : Checker :=
  if c.checkDone then
    { c with
      checkDone := false, status := c.result.text, shownFor := c.resultFor
      buttonDisabled := if c.result = .updateAvailable then false else c.buttonDisabled }
  else c

def step (c : Checker) : CheckEvent → Checker
  | .check => c.checkForUpdate
  | .choose selected => c.handleCallback selected
  | .begin i => c.beginScript i
  | .fail i => c.failScript i
  | .answer i output => c.answer i output
  | .storeResult i => c.storeResult i
  | .announce i => c.announce i
  | .clear i => c.clear i
  | .poll => c.pollUpdate

end Checker

end PowerScreen.SysInfo
