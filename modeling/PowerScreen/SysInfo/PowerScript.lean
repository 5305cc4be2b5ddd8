import PowerScreen.State.PrintState
import PowerScreen.WebSocket.Client

/-! # The Power Script card

The system panel has Moonraker look for a new version of the Power Script, reads what it
found and starts the upgrade. Each of the three requests has a handler that runs when its
reply arrives, on a thread of its own, and leaves its result in the card; a timer shows it.
-/
namespace PowerScreen.SysInfo
open Library Library.Run

inductive ScriptState where
  | unknown
  | upToDate
  | available
  | error
  | updating
  | updated
deriving DecidableEq

inductive Request where
  | refresh
  | status
  | upgrade
deriving DecidableEq

def powerScriptName : String := "CFS-Power-Script"

/-- What is sent, with the handler of its reply. -/
def Request.call : Request → WebSocket.Call Request
  | .refresh => .paramsCb "machine.update.refresh" (.obj [("name", .str powerScriptName)]) .refresh
  | .status => .paramsCb "machine.update.status" (.obj [("refresh", .bool false)]) .status
  | .upgrade => .paramsCb "machine.update.upgrade" (.obj [("name", .str powerScriptName)]) .upgrade

/-- A text up to the first such character, and what follows it. -/
def cutAt (d : Char) (s : String) : String × String :=
  let front := s.toList.takeWhile (· ≠ d)
  (String.ofList front, String.ofList (s.toList.drop (front.length + 1)))

def splitVersion (version : String) : String × String := cutAt '-' version

def isPrinting (s : State) : Bool :=
  match s.printState with
  | .str st => st = "printing" || st = "paused"
  | _ => false

structure PowerScript where
  store : State
  /-- Whether the panel was given its client. -/
  client : Bool
  /-- The tick of the running check, 0 when there is none. -/
  checkStarted : UInt32 := 0
  base : String := "..."
  suffix : String := ""
  message : String := ""
  klipperVersion : String := "..."
  moonrakerVersion : String := "..."
  state : ScriptState := .unknown
  dirty : Bool := false
  versionLabel : String := "..."
  suffixLabel : String := ""
  statusLabel : String := ""
  buttonLabel : String := "Check for updates"
  buttonDisabled : Bool := true
  /-- Requests without a reply. -/
  pending : List Request := []
  /-- Cleared by an exception, which ends the program. -/
  running : Bool := true

inductive ScriptEvent where
  | report (r : Report)
  | check (now : UInt32)
  | tap (now : UInt32)
  | poll (now : UInt32)
  | reply (i : ℕ) (j : Json)

/-- What Moonraker says about one entry. -/
structure Entry where
  version : String
  remote : String
  full : String
  behind : Bool
  valid : Bool

def readEntry (info : Json) : Option Entry := do
  let version ← info.value Json.str? "version" ""
  let remote ← info.value Json.str? "remote_version" ""
  let full ← info.value Json.str? "full_version_string" version
  let behind := (info.get "commits_behind").isArray && !(info.get "commits_behind").isEmpty
  let isValid ← info.value Json.bool? "is_valid" true
  -- `corrupt` is read of valid entries only
  let valid ← if isValid then (info.value Json.bool? "corrupt" false).map (!·) else some false
  return ⟨version, remote, full, behind, valid⟩

def versionInfo (j : Json) : Json := (j.get "result").get "version_info"

/-- `read_version`, which leaves the old version where there is no entry. -/
def readVersion (versions : Json) (name old : String) : Option String :=
  if (versions.get name).isObject then (versions.get name).value Json.str? "version" "unknown"
  else some old

namespace PowerScript

def setState (c : PowerScript) (st : ScriptState) (message : String) : PowerScript :=
  { c with state := st, message := message, dirty := true }

def send (c : PowerScript) (r : Request) : PowerScript := { c with pending := c.pending ++ [r] }

def checkScriptUpdate (c : PowerScript) (now : UInt32) : PowerScript :=
  if !c.client then c
  else if c.state = .updating then c
  else
    { c with
      state := .unknown, message := "CHECKING...", checkStarted := now
      statusLabel := "CHECKING...", buttonDisabled := true, buttonLabel := "Checking..." }.send
      .refresh

/-- The first part; the handler of the reply is `statusReply`. -/
def readScriptStatus (c : PowerScript) : PowerScript := if !c.client then c else c.send .status

def showEntry (c : PowerScript) (e : Entry) : PowerScript :=
  let base := (splitVersion e.version).1
  let c := { c with base := if base = "" then "unknown" else base, suffix := e.full }
  if !e.valid then c.setState .error "UNAVAILABLE"
  else if e.behind || (e.remote ≠ "" && e.remote ≠ e.version) then
    c.setState .available "NEW UPDATE AVAILABLE!"
  else c.setState .upToDate "UP TO DATE"

/-- The handler of the status; an entry of an unexpected type is an exception. -/
def statusReply (c : PowerScript) (j : Json) : Option PowerScript := do
  let klipper ← readVersion (versionInfo j) "klipper" c.klipperVersion
  let moonraker ← readVersion (versionInfo j) "moonraker" c.moonrakerVersion
  let c := { c with klipperVersion := klipper, moonrakerVersion := moonraker, checkStarted := 0 }
  let info := (versionInfo j).get powerScriptName
  if info.isObject then (readEntry info).map c.showEntry
  else some (c.setState .error "NO UPDATE ENTRY")

def startScriptUpdate (c : PowerScript) : PowerScript :=
  if !c.client then c
  else if isPrinting c.store then c.setState .error "PRINT IN PROGRESS"
  else (c.setState .updating "UPDATING...").send .upgrade

def upgradeReply (c : PowerScript) (j : Json) : PowerScript :=
  if j.contains "error" then c.setState .error "UPDATE FAILED" else c.setState .updated "UPDATED!"

def applyScriptState (c : PowerScript) : PowerScript :=
  { c with
    versionLabel := c.base, suffixLabel := c.suffix, statusLabel := c.message
    buttonLabel :=
      if c.state = .unknown then "Checking..."
      else if c.state = .available || c.state = .updating then "UPDATE"
      else "Check for updates"
    buttonDisabled := c.state = .unknown || c.state = .updating }

/-- A check without an answer fails after 25 seconds. -/
def expire (c : PowerScript) (now : UInt32) : PowerScript :=
  if c.checkStarted ≠ 0 && now - c.checkStarted > 25000 then
    { (if c.state = .unknown then c.setState .error "CHECK FAILED" else c) with checkStarted := 0 }
  else c

/-- The part of `poll_update` about the card. -/
def pollUpdate (c : PowerScript) (now : UInt32) : PowerScript :=
  let c := c.expire now
  if c.dirty then { c with dirty := false }.applyScriptState else c

/-- A tap on the button. -/
def handleCallback (c : PowerScript) (now : UInt32) : PowerScript :=
  if c.buttonDisabled then c
  else if c.state = .available then c.startScriptUpdate
  else c.checkScriptUpdate now

/-- The reply to a waiting request; that of a refresh is not looked at. -/
def reply (c : PowerScript) (i : ℕ) (j : Json) : PowerScript :=
  let d := { c with pending := c.pending.eraseIdx i }
  match c.pending[i]? with
  | none => c
  | some .refresh => d.readScriptStatus
  | some .status => (d.statusReply j).getD { d with running := false }
  | some .upgrade => d.upgradeReply j

def step (c : PowerScript) (e : ScriptEvent) : PowerScript :=
  if c.running then
    match e with
    | .report r => { c with store := (c.store.receive r).getD c.store }
    | .check now => c.checkScriptUpdate now
    | .tap now => c.handleCallback now
    | .poll now => c.pollUpdate now
    | .reply i j => c.reply i j
  else c

end PowerScript

end PowerScreen.SysInfo
