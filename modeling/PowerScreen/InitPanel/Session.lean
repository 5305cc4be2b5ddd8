import PowerScreen.Leds.Agreement
import PowerScreen.MainPanel.Temperatures

/-! # From the connection to the first report

With every connection the store is emptied and the printer is asked for its objects. The
answer builds the Home cards, the fans and the lamps anew and asks for reports about the
objects; the answer to that fills the cards and takes the notice away. Requests are answered
in any order, and a connection can be followed by another one before they are.
-/
namespace PowerScreen.InitPanel
open Library Library.Json MainPanel
open PrintStatus (Arith)

inductive Request where
  | objectsList
  | powerDevices
  | roots
  | printerInfo
  | console
  | settings
  | macros
  | files
  | serverInfo
  | subscribe
deriving DecidableEq

/-- Where the store keeps the answer, and where the answer has it. -/
def Request.stored : Request → Option (String × List String)
  | .roots => some ("roots", ["result"])
  | .printerInfo => some ("printer_info", ["result"])
  | .console => some ("console", ["result", "value"])
  | .settings => some ("powerscreensettings", ["result", "value"])
  | .serverInfo => some ("server_info", ["result"])
  | _ => none

/-- The panel with what it fills: the cards of the Home, the fans with their names, the
target cards below them and the lamps. -/
structure Link where
  store : State
  waiting : List Request := []
  cards : List (TempCard × Display) := []
  fans : List (String × String) := []
  targets : List String := []
  lamps : Leds.Panel := {}
  subscribed : List (String × Json) := []
  noticeHidden : Bool := false
  spoolman : Bool := false

inductive Event where
  /-- The socket is open; answers to what was asked over another one do not come any more. -/
  | opened
  | klippyReady
  | klippyDisconnected
  | closed
  | reply (r : Request) (d : Doc)
  | update (st : Status) (t : ℚ)

def knownFans : List (String × String) :=
  [("output_pin fan0", "Hotend Fan"), ("output_pin fan2", "Chamber Fan"),
    ("output_pin fan1", "Rear Fan")]

/-- The fans in their order on the panel; `none` is the exception of a missing name. -/
def createFans (f : List (String × Json)) : Option (List (String × String)) :=
  ((f.filter (·.1 ∉ knownFans.map Prod.fst)).mapM fun e : String × Json =>
    (e.2.get "display_name").str?.map (e.1, ·)).map
      (knownFans.filter (fun k => (f.lookup k.1).isSome) ++ ·)

/-- The target cards, for the temperature fans the printer has. -/
def createTargets (sensors : List String) : List String :=
  ["temperature_fan chamber_fan", "temperature_fan soc_fan"].filter (· ∈ sensors)

/-- The objects of a subscription request: all but the macros, and the driver statistics. -/
def subscription (names : List String) : List (String × Json) :=
  Assoc.insertAll ((names.filter fun n => !State.hasPrefix "gcode_macro " n).map (·, .null) ++
    [("tmcstatus", .null)]) []

namespace Link

/-- At the start of the program nothing is shown yet. -/
def start (s : State) : Link := { store := s.reset }

def connected (l : Link) : Link :=
  { l with store := l.store.reset, waiting := l.waiting ++ [.objectsList, .powerDevices] }

def disconnected (l : Link) : Link := { l with noticeHidden := false }

variable (A : Arith) (conf : Json) (df : String)

/-- The answer with the printer's objects. -/
def objectsListed (l : Link) (d : Doc) : Option Link := do
  let store ← l.store.setData "printer_objs" d ["result"]
  let cards ← createSensors (← store.getDisplaySensors conf df)
  let fans ← createFans (← store.getDisplayFans conf df)
  let targets := createTargets (← store.getSensors)
  let lamps := l.lamps.init (← store.getDisplayLeds conf df)
  let l := { l with
    store := store, fans := fans, targets := targets, lamps := lamps
    cards := cards.map (·, {})
    waiting := l.waiting ++ [.roots, .printerInfo, .console, .settings, .macros, .files,
      .serverInfo] }
  let objs ← getAt ["result", "objects"] d.json
  if objs = .null then return l
  let names ← objs.elements.mapM str?
  return { l with waiting := l.waiting ++ [.subscribe], subscribed := subscription names }

/-- The answer to the subscription, with the first values of everything. -/
def subscriptionAnswered (l : Link) (d : Doc) : Option Link := do
  let store ← l.store.setData "printer_state" d ["result", "status"]
  let lamps ← l.lamps.refresh store
  let cards ← l.cards.mapM (updateCard A (readAt "/result/status/" d))
  return { l with store := store, lamps := lamps, cards := cards, noticeHidden := true }

/-- Whether the server has the Spoolman component. -/
def hasSpoolman (d : Doc) : Option Bool := do
  let components ← getAt ["result", "components"] d.json
  if components = .null then return false
  if components.isArray then return "spoolman" ∈ (← components.elements.mapM str?) else none

def answer (l : Link) (d : Doc) : Request → Option Link
  | .objectsList => l.objectsListed conf df d
  | .subscribe => l.subscriptionAnswered A d
  | r => do
    let store ← r.stored.elim (some l.store) fun at' => l.store.setData at'.1 d at'.2
    let spoolman ← (if r = .serverInfo then hasSpoolman d else some false)
    return { l with store := store, spoolman := l.spoolman || spoolman }

def notified (l : Link) (st : Status) (t : ℚ) : Option Link := do
  let store ← l.store.consume (st.notification t)
  let lamps ← l.lamps.consume st t
  let cards ← l.cards.mapM (updateCard A (readAt "/params/0/" (st.notification t)))
  return { l with store := store, lamps := lamps, cards := cards }

def handle (l : Link) : Event → Option Link
  | .opened => some { l with waiting := [] }.connected
  | .klippyReady => some l.connected
  | .klippyDisconnected | .closed => some l.disconnected
  | .reply r d =>
    if r ∈ l.waiting then { l with waiting := l.waiting.erase r }.answer A conf df d r
    else some l
  | .update st t => l.notified A st t

/-- After an exception there is no state any more. -/
def step (l : Option Link) (e : Event) : Option Link := l.bind (handle A conf df · e)

/-- The objects that have a card, a slider or a lamp. -/
def shown (l : Link) : List String :=
  l.cards.map (·.1.key) ++ l.fans.map Prod.fst ++ l.targets ++ l.lamps.leds.map Prod.fst

end Link

end PowerScreen.InitPanel
