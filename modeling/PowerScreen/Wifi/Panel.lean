import Mathlib.Data.List.Sort
import Mathlib.Data.String.Basic
import PowerScreen.Library.Assoc
import PowerScreen.Library.Decimal
import PowerScreen.Library.Fields
import PowerScreen.Wifi.Encoding

/-! # The Wi-Fi panel

The panel lists the networks of the last scan, connects to the selected one and asks for
the password of a protected one. What it shows comes from the supplicant's replies, and
what it does are commands to the supplicant.
-/
namespace PowerScreen.Wifi
open Library

structure Network where
  ssid : String
  signal : ℤ
  frequency : ℤ
  flags : String
deriving DecidableEq

namespace Network

def has (n : Network) (kind : String) : Bool := decide (kind.toList <:+: n.flags.toList)

def isSecure (n : Network) : Bool := n.has "WPA" || n.has "WEP"

def security (n : Network) : String := (["WPA3", "WPA2", "WPA", "WEP"].find? n.has).getD "Open"

end Network

def signalLevel (dbm : ℤ) : ℕ :=
  if -55 ≤ dbm then 4 else if -65 ≤ dbm then 3 else if -75 ≤ dbm then 2 else 1

def signalText : ℕ → String
  | 4 => "Excellent signal"
  | 3 => "Good signal"
  | 2 => "Fair signal"
  | _ => "Weak signal"

/-- A line of the scan's reply; the header and lines that do not fit are skipped. -/
def parseLine (line : List Char) : Option Network :=
  if "bss".toList <+: line then none
  else match fields '\t' line with
    | [_, freq, level, flags, ssid] =>
      if ssid = [] then none
      else do
        let frequency ← Decimal.stoi (String.ofList freq)
        let signal ← Decimal.stoi (String.ofList level)
        return ⟨String.ofList ssid, signal, frequency, String.ofList flags⟩
    | _ => none

/-- Of the access points of one name the strongest stays. -/
def keepBest (best : List (String × Network)) (n : Network) : List (String × Network) :=
  match best.lookup n.ssid with
  | none => Assoc.insert n.ssid n best
  | some old => if old.signal < n.signal then Assoc.insert n.ssid n best else best

def scanned (reply : String) : List Network :=
  (((fields '\n' reply.toList).filterMap parseLine).foldl keepBest []).map Prod.snd

/-- The texts of the status card and the state of its buttons. -/
structure Status where
  ssid : String
  badge : String
  signal : String
  security : String
  connectText : String
  connectEnabled : Bool
  forgetShown : Bool
deriving DecidableEq

structure Panel where
  networks : List Network
  selected : Option ℕ
  selectedNetwork : String
  curNetwork : String
  /-- The saved networks with their numbers. -/
  listNetworks : List (String × String)
  status : Status
  promptShown : Bool
  passwordLabel : String
  password : List Char
  /-- The keyboard is shown and writes to the password. -/
  keyboard : Bool
deriving DecidableEq

namespace Panel

def chosen (p : Panel) : Option Network := p.selected.bind fun i => p.networks[i]?

def isSaved (p : Panel) (ssid : String) : Bool := (p.listNetworks.lookup ssid).isSome

/-- The connected network comes first, then the stronger one. -/
def before (cur : String) (a b : Network) : Bool :=
  if (a.ssid = cur) ≠ (b.ssid = cur) then a.ssid = cur else b.signal < a.signal

def sorted (cur : String) (networks : List Network) : List Network :=
  networks.insertionSort fun a b => ¬ before cur b a

def lastIndexOf (ssid : String) (networks : List Network) : Option ℕ :=
  (networks.zipIdx.reverse.find? fun n => n.1.ssid = ssid).map Prod.snd

/-- The selection follows the name found under the old index, which may by now belong to
another network. -/
def rebuildList (p : Panel) : Panel :=
  let selectedSsid := p.chosen.elim p.curNetwork Network.ssid
  let networks := sorted p.curNetwork p.networks
  let selected := lastIndexOf selectedSsid networks
  { p with
    networks := networks
    selected := if selected = none ∧ networks ≠ [] then some 0 else selected }

def statusOf (p : Panel) : Status :=
  match p.chosen with
  | none => ⟨"Select a network", "Not connected", "", "", "Connect to network", false, false⟩
  | some n =>
    let connected := decide (n.ssid = p.curNetwork)
    let saved := p.isSaved n.ssid
    { ssid := n.ssid
      badge := if connected then "Connected" else if saved then "Saved" else "Not connected"
      signal := signalText (signalLevel n.signal)
      security := n.security ++ " - " ++ if 4900 ≤ n.frequency then "5 GHz" else "2.4 GHz"
      connectText :=
        if connected then "Connected" else if saved then "Connect" else "Connect to network"
      connectEnabled := !connected
      forgetShown := saved }

/-- What the constructor builds. -/
def start : Panel :=
  { networks := [], selected := none, selectedNetwork := "", curNetwork := "", listNetworks := []
    status := ⟨"Select a network", "Not connected", "", "", "Connect to network", false, false⟩
    promptShown := false, passwordLabel := "Password", password := [], keyboard := false }

def updateStatus (p : Panel) : Panel := { p with status := p.statusOf }

def showPasswordPrompt (p : Panel) : Panel :=
  { p with
    passwordLabel := "Password for " ++ p.selectedNetwork
    promptShown := true
    keyboard := true }

def hidePasswordPrompt (p : Panel) : Panel :=
  { p with promptShown := false, password := [], keyboard := false }

def handleRow (p : Panel) (index : ℕ) : Panel :=
  match p.networks[index]? with
  | none => p
  | some n =>
    ({ p with selected := some index, selectedNetwork := n.ssid }).hidePasswordPrompt.updateStatus

/-- A line of the list of saved networks. -/
def noteNetwork (found : Panel × Bool) (line : List Char) : Panel × Bool :=
  let parts := (fields '\t' line).map String.ofList
  let current := parts.length = 4 ∧ "[CURRENT]".toList <:+: line
  let name := parts.getD 1 ""
  let saved := 1 < parts.length ∧ parts.getD 0 "" ≠ "network id"
  ({ found.1 with
      curNetwork := if current then name else found.1.curNetwork
      listNetworks :=
        if saved then Assoc.insert name (parts.getD 0 "") found.1.listNetworks
        else found.1.listNetworks },
    found.2 || current)

/-- The saved networks and the current one, as the supplicant lists them, and whether one
is current. -/
def findCurrentNetwork (p : Panel) (nets : String) : Panel × Bool :=
  (fields '\n' nets.toList).foldl noteNetwork ({ p with listNetworks := [], curNetwork := "" }, false)

/-- The part of a scan's event that holds the lock; the saved networks have been looked up
before it is taken. -/
def showScan (p : Panel) (reply : String) : Panel :=
  ({ p with networks := scanned reply }).rebuildList.updateStatus

/-- The part of a connection's event that holds the lock. -/
def showConnected (p : Panel) : Panel := p.rebuildList.updateStatus

end Panel

/-- How `fmt` shows a text for debugging. What it takes for printable and how it names
what is not is its own business. -/
structure DebugFormat where
  printable : Char → Bool
  code : Char → List Char
  ascii : ∀ c : Char, c.toNat < 128 → (printable c ↔ 32 ≤ c.toNat ∧ c.toNat < 127)
  code_ne_nil : ∀ c, code c ≠ []

namespace DebugFormat

def escape (fmt : DebugFormat) (c : Char) : List Char :=
  if c = '"' ∨ c = '\\' then ['\\', c]
  else if fmt.printable c then [c]
  else '\\' :: fmt.code c

def quote (fmt : DebugFormat) (s : String) : String :=
  String.ofList ('"' :: (s.toList.flatMap fmt.escape ++ ['"']))

end DebugFormat

namespace Panel

def setNetworkCommand (nid name value : String) : String :=
  "SET_NETWORK " ++ nid ++ " " ++ name ++ " " ++ value

/-- The commands of a connection, `nid` being the reply to the first; no password stands
for an open network. -/
def connect (fmt : DebugFormat) (p : Panel) (nid : String) (password : Option String) :
    List String :=
  "ADD_NETWORK" ::
    if nid = "" then []
    else
      [setNetworkCommand nid "ssid" (fmt.quote p.selectedNetwork),
        match password with
        | some text => setNetworkCommand nid "psk" (fmt.quote text)
        | none => setNetworkCommand nid "key_mgmt" "NONE",
        "ENABLE_NETWORK " ++ nid, "SELECT_NETWORK " ++ nid, "SAVE_CONFIG"]

/-- The tap on Connect. -/
def handleConnect (fmt : DebugFormat) (p : Panel) (nid : String) : Panel × List String :=
  match p.chosen with
  | none => (p, [])
  | some n =>
    let q := { p with selectedNetwork := n.ssid }
    if n.ssid = p.curNetwork then (q, [])
    else match p.listNetworks.lookup n.ssid with
      | some id => (q, ["SELECT_NETWORK " ++ id, "SAVE_CONFIG"])
      | none => if n.isSecure then (q.showPasswordPrompt, []) else (q, q.connect fmt nid none)

/-- The tap on Forget, `nets` being the saved networks that are listed after it. -/
def handleForget (p : Panel) (nets : String) : Panel × List String :=
  match p.chosen with
  | none => (p, [])
  | some n =>
    let q := { p with selectedNetwork := n.ssid }
    match p.listNetworks.lookup n.ssid with
    | none => (q, [])
    | some id =>
      ((q.findCurrentNetwork nets).1.rebuildList.updateStatus,
        ["REMOVE_NETWORK " ++ id, "SAVE_CONFIG", "LIST_NETWORKS"])

/-- The key that confirms the password. -/
def handleReady (fmt : DebugFormat) (p : Panel) (nid : String) : Panel × List String :=
  if p.password = [] then (p, [])
  else
    let q := p.hidePasswordPrompt
    ({ q with
        status := { q.status with ssid := "Connecting to " ++ q.selectedNetwork ++ " ..." } },
      p.connect fmt nid (some (String.ofList p.password)))

end Panel

end PowerScreen.Wifi
